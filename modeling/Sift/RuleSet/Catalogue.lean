import Sift.Rule
import Sift.Language
import Sift.Positions

/-!
# Catalogues of rules

What a rule set derives from its sources: the rules in the order of their sources, and the tables
through which they are found by identifier and by language. A catalogue is built rule by rule, and a
rule is known in the tables by its position.
-/

namespace Sift

/-- A named source and the rules it contributed. -/
structure RuleSource where
  name : String
  rules : List Rule

/-- Rules with the tables that find them. -/
structure Catalogue where
  /-- The rules in the order of their sources. -/
  rules : Array Rule := #[]
  /-- Rules by identifier; the first entry for an identifier counts. -/
  byId : List (String × Rule) := []
  /-- The positions of the rules that name a language, for each language. -/
  index : Positions String := []
  /-- The positions of the rules that are for all languages. -/
  universal : List Nat := []

namespace Catalogue

/-- Adds a rule behind all others. -/
def push (catalogue : Catalogue) (rule : Rule) : Catalogue :=
  let position := catalogue.rules.size
  let known :=
    { catalogue with
      rules := catalogue.rules.push rule
      byId := (rule.id, rule) :: catalogue.byId }
  if rule.appliesTo.isEmpty then { known with universal := catalogue.universal ++ [position] }
  else
    { known with
      index := catalogue.index.addAll ((Language.normalize rule.appliesTo).map (·, position)) }

/-- The catalogue of some sources. -/
def ofSources (sources : List RuleSource) : Catalogue :=
  sources.foldl (fun catalogue source => source.rules.foldl push catalogue) {}

/-- The rule with an identifier. -/
def find? (catalogue : Catalogue) (id : String) : Option Rule := catalogue.byId.lookup id

/-- The positions of the rules that name a language. -/
def positionsOf (catalogue : Catalogue) (language : String) : List Nat :=
  catalogue.index.under language

/-- Merges two ascending lists; what stands in both is taken once. -/
def mergePositions : List Nat → List Nat → List Nat
  | [], bs => bs
  | as, [] => as
  | a :: as, b :: bs =>
    if a < b then a :: mergePositions as (b :: bs)
    else if b < a then b :: mergePositions (a :: as) bs
    else a :: mergePositions as bs
termination_by as bs => as.length + bs.length

/-- The positions of the rules for normalized languages. -/
def positions (catalogue : Catalogue) (languages : List String) : List Nat :=
  languages.foldl (fun found language => mergePositions found (catalogue.positionsOf language))
    catalogue.universal

/-- The rules for normalized languages whose severity shares a level with `mask`. -/
def select (catalogue : Catalogue) (languages : List String) (mask : Severity) : List Rule :=
  ((catalogue.positions languages).filterMap fun position => catalogue.rules[position]?).filter
    fun rule => rule.severity.intersects mask

end Catalogue

end Sift
