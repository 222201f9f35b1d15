import Sift.Json.Parser
import Sift.Json.Fields
import Sift.Severity
import Sift.Rule.Fault

/-!
# Rules as they are written

A rule source is JSON text: a list of records, or a single one. Records are read here and checked
later, except that a severity must be known at once.
-/

namespace Sift

/-- A pattern as it is written. -/
structure PatternRecord where
  text : String := ""
  type : String := ""
  modifiers : List String := []
  scopes : List String := []
  deriving DecidableEq, Repr

/-- A rule as it is written. A pattern may be missing from its list. -/
structure RuleRecord where
  id : String := ""
  name : String := ""
  description : String := ""
  recommendation : String := ""
  tags : Option (List String) := none
  severity : Severity := .none
  appliesTo : List String := []
  patterns : List (Option PatternRecord) := []
  exclusions : List (Option PatternRecord) := []
  disabled : Bool := false
  /-- What made the record unusable, if something did. -/
  fault : Option RuleFault := none

namespace Severity

/-- The union of named levels. -/
def ofNames : List String → Except RuleFault Severity
  | [] => .ok none
  | name :: rest =>
    match parse? name with
    | Option.none => .error (.unknownSeverity name)
    | some level => (ofNames rest).map level.union

/-- Reads a level or a list of levels. -/
def ofJson : Json → Except RuleFault Severity
  | .null => ofNames [""]
  | .string name => ofNames [name]
  | .array items =>
    let read := Json.Reading.items "" Json.Reading.string [] items
    if read.sound then ofNames read.value else .error .malformedSeverity
  | _ => .error .malformedSeverity

/-- Reads a level or a list of levels from stored text. -/
def read (text : Bytes) : Except RuleFault Severity :=
  match Json.parse text with
  | some value => ofJson value
  | Option.none => .error .malformedSeverity

end Severity

open Json (Slots) in
/-- A pattern while it is read: the lists of the record are in their slots. -/
structure PatternDraft where
  record : PatternRecord := {}
  modifiers : Slots String := {}
  scopes : Slots String := {}

namespace PatternDraft

open Json (Reading names)

/-- The pattern as far as it is read. -/
def pattern (draft : PatternDraft) : PatternRecord :=
  { draft.record with modifiers := draft.modifiers.items, scopes := draft.scopes.items }

/-- Reads a field over what is there. -/
def readField (old : PatternDraft) (key : String) (value : Json) : Reading PatternDraft :=
  if names key "pattern" then
    (Reading.string old.record.text value).map fun text => { old with record.text := text }
  else if names key "type" then
    (Reading.string old.record.type value).map fun type => { old with record.type := type }
  else if names key "modifiers" then
    (Reading.strings (some old.modifiers) value).map fun list =>
      { old with modifiers := list.getD {} }
  else if names key "scopes" then
    (Reading.strings (some old.scopes) value).map fun list => { old with scopes := list.getD {} }
  else ⟨old, true⟩

/-- Reads fields over what is there. -/
def readFields (old : PatternDraft) : List (String × Json) → Reading PatternDraft
  | [] => ⟨old, true⟩
  | (key, value) :: rest =>
    let first := old.readField key value
    (first.value.readFields rest).after first.sound

/-- Reads a pattern of a list over what is there. -/
def readItem (old : Option PatternDraft) : Json → Reading (Option PatternDraft)
  | .null => ⟨none, true⟩
  | .object fields => ((old.getD {}).readFields fields).map some
  | _ => ⟨some (old.getD {}), false⟩

end PatternDraft

/-- Which fault of a record counts if a field of the wrong type comes before a severity that is not
understood. -/
inductive Precedence where
  /-- The one that comes first. -/
  | first
  /-- That of the severity, since it ends the reading. -/
  | severity
  deriving DecidableEq

open Json (Slots) in
/-- A rule while it is read: the lists of the record are in their slots. -/
structure RuleDraft where
  record : RuleRecord := {}
  tags : Option (Slots String) := none
  appliesTo : Slots String := {}
  patterns : Slots (Option PatternDraft) := {}
  exclusions : Slots (Option PatternDraft) := {}

namespace RuleDraft

open Json (Reading Slots names)

/-- The rule as far as it is read. -/
def rule (draft : RuleDraft) : RuleRecord :=
  { draft.record with
    tags := draft.tags.map (·.items)
    appliesTo := draft.appliesTo.items
    patterns := draft.patterns.items.map (Option.map PatternDraft.pattern)
    exclusions := draft.exclusions.items.map (Option.map PatternDraft.pattern) }

/-- Reads a list of patterns over what is there. -/
def readPatterns (old : Slots (Option PatternDraft)) (value : Json) :
    Reading (Slots (Option PatternDraft)) :=
  (Reading.list none PatternDraft.readItem (some old) value).map (·.getD {})

/-- Reads a field over what is there. A severity that is not understood ends the reading. -/
def readField (old : RuleDraft) (key : String) (value : Json) :
    Except RuleFault (Reading RuleDraft) :=
  if names key "id" then
    .ok ((Reading.string old.record.id value).map fun id => { old with record.id := id })
  else if names key "name" then
    .ok ((Reading.string old.record.name value).map fun name => { old with record.name := name })
  else if names key "description" then
    .ok ((Reading.string old.record.description value).map fun text =>
      { old with record.description := text })
  else if names key "recommendation" then
    .ok ((Reading.string old.record.recommendation value).map fun text =>
      { old with record.recommendation := text })
  else if names key "tags" then
    .ok ((Reading.strings old.tags value).map fun tags => { old with tags })
  else if names key "severity" then
    (Severity.ofJson value).map fun severity => ⟨{ old with record.severity := severity }, true⟩
  else if names key "applies_to" then
    .ok ((Reading.strings (some old.appliesTo) value).map fun list =>
      { old with appliesTo := list.getD {} })
  else if names key "patterns" then
    .ok ((readPatterns old.patterns value).map fun patterns => { old with patterns })
  else if names key "exclusions" then
    .ok ((readPatterns old.exclusions value).map fun exclusions => { old with exclusions })
  else if names key "disabled" then
    .ok ((Reading.bool old.record.disabled value).map fun disabled =>
      { old with record.disabled := disabled })
  else .ok ⟨old, true⟩

/-- Reads fields over what is there; `sound` tells whether all before were. -/
def readFields (precedence : Precedence) (old : RuleDraft) (sound : Bool) :
    List (String × Json) → Except RuleFault RuleRecord
  | [] => if sound then .ok old.rule else .error .malformed
  | (key, value) :: rest =>
    match old.readField key value with
    | .error fault => .error (if sound || precedence = .severity then fault else .malformed)
    | .ok first => first.value.readFields precedence (sound && first.sound) rest

end RuleDraft

namespace RuleRecord

open Json (Reading names)

/-- The identifier among fields, if it is a string. -/
def readId (old : String) : List (String × Json) → Reading String
  | [] => ⟨old, true⟩
  | (key, value) :: rest =>
    if names key "id" then
      let first := Reading.string old value
      (readId first.value rest).after first.sound
    else readId old rest

/-- What a record that cannot be used is called: its identifier, or else its position. -/
def label (value : Json) (index : Nat) : String :=
  let position := "#" ++ toString index
  match value with
  | .object fields =>
    let id := readId "" fields
    if id.sound && id.value ≠ "" then id.value else position
  | _ => position

/-- Reads a record. -/
def ofJson (precedence : Precedence) : Json → Except RuleFault RuleRecord
  | .null => .ok {}
  | .object fields => RuleDraft.readFields precedence {} true fields
  | _ => .error .malformed

/-- Reads the records of a source from the position `index` on. An unknown severity is kept for
later; any other fault rejects the source. -/
def ofItems (precedence : Precedence) (source : String) (index : Nat) :
    List Json → Except LoadError (List RuleRecord)
  | [] => .ok []
  | value :: rest =>
    match ofJson precedence value with
    | .ok record => (ofItems precedence source (index + 1) rest).map (record :: ·)
    | .error (.unknownSeverity name) =>
      (ofItems precedence source (index + 1) rest).map
        ({ id := label value index, fault := some (.unknownSeverity name) } :: ·)
    | .error fault => .error (.parse source (label value index) fault)

/-- Reads a rule source. -/
def decode (precedence : Precedence) (content : Bytes) (source : String) :
    Except LoadError (List RuleRecord) :=
  match Text.trimChars ((Utf8.codePoints content).map Char.ofNat) with
  | [] => .error (.parse source "" .emptySource)
  | first :: rest =>
    match Json.parseChars (first :: rest) with
    | some (.array items) => ofItems precedence source 0 items
    | some (.object fields) => ofItems precedence source 0 [.object fields]
    | some .null => .ok []
    | some _ => .error (.parse source "" .malformed)
    | none => .error (.parse source (if first = '{' then "#0" else "") .malformed)

end RuleRecord

end Sift
