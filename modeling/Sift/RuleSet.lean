import Sift.RuleSet.Catalogue

/-!
# Rule sets

A rule set holds rules by the sources they came from. Loading a source again replaces what it held.
No two rules of a set share an identifier. The rules for a list of languages are found through a
catalogue that is built anew when the sources change, and answers are kept until then.
-/

namespace Sift

/-- Rules by source. -/
structure RuleSet where
  /-- Whether directories are searched with all below them. -/
  recursive : Bool := false
  sources : List RuleSource := []
  /-- What is derived from the sources. -/
  catalogue : Catalogue := {}
  /-- Earlier answers of `candidatesFor`, each with the question's key. -/
  answers : List (String × List Rule) := []

namespace RuleSet

/-- The rules in the order of their sources. -/
def rules (set : RuleSet) : List Rule := set.catalogue.rules.toList

/-- The names of the sources. -/
def sourceNames (set : RuleSet) : List String := set.sources.map (·.name)

/-- The rule with an identifier. -/
def find? (set : RuleSet) (id : String) : Option Rule := set.catalogue.find? id

/-- The set with other sources and nothing remembered. -/
def withSources (set : RuleSet) (sources : List RuleSource) : RuleSet :=
  { set with sources, catalogue := .ofSources sources, answers := [] }

/-- A set with the same rules that remembers nothing. -/
def clone (set : RuleSet) : RuleSet := set.withSources set.sources

/-- What became of the records of a source. -/
structure Sorted where
  accepted : List Rule := []
  errors : List LoadError := []

/-- Sorts the records of a source into rules and errors; `taken` are the identifiers of the rules
before. Disabled rules are left out without a word. -/
def sortRecords (source : String) (taken : List String) : List RuleRecord → Sorted
  | [] => {}
  | record :: rest =>
    match Rule.compile source record with
    | .error error =>
      let others := sortRecords source taken rest
      { others with errors := error :: others.errors }
    | .ok rule =>
      if rule.disabled then sortRecords source taken rest
      else if taken.contains rule.id then
        let others := sortRecords source taken rest
        { others with errors := .parse source rule.id (.duplicateId none) :: others.errors }
      else
        let others := sortRecords source (rule.id :: taken) rest
        { others with accepted := rule :: others.accepted }

/-- The source other than `source` that holds an identifier. -/
def owner? (set : RuleSet) (source id : String) : Option String :=
  (set.sources.find? fun other =>
    other.name ≠ source && other.rules.any fun rule => rule.id == id).map (·.name)

/-- Puts rules in the place of those a source had, or behind all others. -/
def putSource (name : String) (rules : List Rule) : List RuleSource → List RuleSource
  | [] => [⟨name, rules⟩]
  | source :: rest =>
    if source.name = name then ⟨name, rules⟩ :: rest else source :: putSource name rules rest

/-- Takes in the records of a source. Records that cannot be used, or whose identifier is taken, are
reported; the others are registered. -/
def addRecords (set : RuleSet) (records : List RuleRecord) (source : String) :
    RuleSet × List LoadError :=
  let sorted := sortRecords source [] records
  let free := sorted.accepted.filter fun rule => (set.owner? source rule.id).isNone
  let clashes := sorted.accepted.filterMap fun rule =>
    (set.owner? source rule.id).map fun owner =>
      LoadError.parse source rule.id (.duplicateId (some owner))
  (set.withSources (putSource source free set.sources), sorted.errors ++ clashes)

/-- Loads a source from text. Text that is not a rule source leaves the set as it was. -/
def add (set : RuleSet) (content : Bytes) (source : String) (precedence : Precedence := .first) :
    RuleSet × Option LoadFailure :=
  match RuleRecord.decode precedence content source with
  | .error error => (set, some (.rejected error))
  | .ok records =>
    let (set, errors) := set.addRecords records source
    (set, LoadFailure.ofErrors? errors)

/-- Drops a source, and tells whether it was there. -/
def removeSource (set : RuleSet) (name : String) : RuleSet × Bool :=
  if set.sources.any (·.name = name) then
    (set.withSources (set.sources.eraseP (·.name = name)), true)
  else (set, false)

/-- The rules for languages whose severity shares a level with `mask`, through the catalogue. -/
def lookup (set : RuleSet) (languages : List String) (mask : Severity) : List Rule :=
  set.catalogue.select (Language.normalize languages) mask

/-- The key under which an answer is kept. -/
def answerKey (languages : List String) (mask : Severity) : String :=
  toString mask.bits.toNat ++ "|" ++ ",".intercalate (Language.normalize languages)

/-- The rules for languages whose severity shares a level with `mask`, and the set with the answer
kept. -/
def candidatesFor (set : RuleSet) (languages : List String) (mask : Severity) :
    List Rule × RuleSet :=
  let key := answerKey languages mask
  match set.answers.lookup key with
  | some known => (known, set)
  | none =>
    let found := set.lookup languages mask
    (found, { set with answers := (key, found) :: set.answers })

end RuleSet

end Sift
