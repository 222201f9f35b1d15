import Sift.Proofs.RuleSet.Reachable

/-!
# Where the rules of a set come from

Every rule of a reachable set was made from a record and is not disabled (`Rule.Origin`). A severity
that is read from text is a union of named levels, so that the rules of sets that are loaded from text
have named levels only (`origin_after`). A rule can be had alone: there are operations that lead to a
set which holds it and nothing else (`exists_after_eq_only`).
-/

namespace Sift

lemma exists_of_map_eq_ok {ε α β : Type} {f} {result : Except ε α} {b : β} (eq : result.map f = .ok b) :
    ∃ a, result = .ok a ∧ f a = b := by
  cases result with
  | error fault => cases eq
  | ok a =>
    cases eq
    exact ⟨a, rfl, rfl⟩

namespace Severity

/-- The severity has no other bits than those of the levels. -/
def IsLevels (severity : Severity) : Prop := severity.bits &&& all.bits = severity.bits

lemma isLevels_none : none.IsLevels := rfl

/-- Levels together are levels. -/
lemma IsLevels.union {a b : Severity} (ha : a.IsLevels) (hb : b.IsLevels) : (a.union b).IsLevels := by
  have distrib : (a.bits ||| b.bits) &&& all.bits = (a.bits &&& all.bits) ||| (b.bits &&& all.bits) :=
    UInt8.toBitVec_inj.mp BitVec.and_or_distrib_right
  rw [IsLevels, Severity.union, distrib, ha, hb]

/-- Levels that share one with some severity share one with all levels. -/
lemma IsLevels.intersects_all {a mask : Severity} (levels : a.IsLevels)
    (shares : a.intersects mask = true) : a.intersects all = true := by
  rw [intersects, bne_iff_ne] at shares ⊢
  rw [IsLevels] at levels
  rw [levels]
  intro zero
  exact shares (by rw [zero, UInt8.zero_and])

/-- A level that a name stands for is a level. -/
lemma isLevels_of_parse? {name level} (eq : parse? name = some level) :
    level.IsLevels := by
  obtain ⟨entry, found, rfl⟩ := Option.map_eq_some_iff.mp eq
  have each : ∀ entry ∈ levels, entry.1.bits &&& all.bits = entry.1.bits := by decide
  exact each entry (List.mem_of_find?_eq_some found)

lemma isLevels_of_ofNames {names} {severity : Severity} (eq : ofNames names = .ok severity) : severity.IsLevels := by
  induction names generalizing severity with
  | nil =>
    cases eq
    rfl
  | cons name rest ih =>
    unfold ofNames at eq
    split at eq
    · cases eq
    · rename_i level parsed
      obtain ⟨severity', others, rfl⟩ := exists_of_map_eq_ok eq
      exact (isLevels_of_parse? parsed).union (ih others)

lemma isLevels_of_ofJson {value severity} (eq : ofJson value = .ok severity) :
    severity.IsLevels := by
  unfold ofJson at eq
  split at eq
  · exact isLevels_of_ofNames eq
  · exact isLevels_of_ofNames eq
  · dsimp only at eq
    split at eq
    · exact isLevels_of_ofNames eq
    · cases eq
  · cases eq

end Severity

namespace RuleDraft

/-- What is read, if anything is, has a severity of levels. -/
def Leveled (result : Except RuleFault (Json.Reading RuleDraft)) : Prop :=
  ∀ read, result = .ok read → read.value.record.severity.IsLevels

/-- Reading a field keeps the severity or reads it. -/
lemma leveled_readField {old : RuleDraft} (levels : old.record.severity.IsLevels) (key : String)
    (value : Json) : Leveled (old.readField key value) := by
  have kept : ∀ {reading : Json.Reading RuleDraft}, reading.value.record.severity = old.record.severity →
      Leveled (.ok reading) := by
    rintro reading same _ ⟨⟩
    rwa [same]
  unfold readField
  -- Of the ten named fields, the sixth is the severity.
  iterate 5 refine iteInduction (fun _ => kept rfl) fun _ => ?_
  refine iteInduction (fun _ => ?_) fun _ => ?_
  · intro read eq
    obtain ⟨severity, read_severity, rfl⟩ := exists_of_map_eq_ok eq
    exact Severity.isLevels_of_ofJson read_severity
  · iterate 4 refine iteInduction (fun _ => kept rfl) fun _ => ?_
    exact kept rfl

/-- Fields that are read over levels give levels. -/
lemma readFields_isLevels {precedence} {old : RuleDraft} {record sound fields}
    (levels : old.record.severity.IsLevels) (eq : old.readFields precedence sound fields = .ok record) :
    record.severity.IsLevels := by
  induction fields generalizing old sound with
  | nil =>
    unfold readFields at eq
    split at eq
    · cases eq
      exact levels
    · cases eq
  | cons field rest ih =>
    unfold readFields at eq
    split at eq
    · cases eq
    · rename_i first read
      exact ih (leveled_readField levels _ _ first read) eq

end RuleDraft

namespace RuleRecord

variable {precedence : Precedence}

/-- A record that is read has a severity of levels. -/
lemma ofJson_isLevels {value record} (eq : ofJson precedence value = .ok record) :
    record.severity.IsLevels := by
  unfold ofJson at eq
  split at eq
  · cases eq
    rfl
  · exact RuleDraft.readFields_isLevels Severity.isLevels_none eq
  · cases eq

/-- So have all records of a list. -/
lemma ofItems_isLevels {source index values records} (eq : ofItems precedence source index values = .ok records) :
    ∀ record ∈ records, record.severity.IsLevels := by
  induction values generalizing index records with
  | nil =>
    cases eq
    simp
  | cons value rest ih =>
    unfold ofItems at eq
    split at eq
    · rename_i record read
      obtain ⟨others, read_others, rfl⟩ := exists_of_map_eq_ok eq
      exact List.forall_mem_cons.mpr ⟨ofJson_isLevels read, ih read_others⟩
    · obtain ⟨others, read_others, rfl⟩ := exists_of_map_eq_ok eq
      exact List.forall_mem_cons.mpr ⟨Severity.isLevels_none, ih read_others⟩
    · cases eq

/-- The records of a source that is read have severities of levels. -/
lemma decode_isLevels {content source records} (eq : decode precedence content source = .ok records) :
    ∀ record ∈ records, record.severity.IsLevels := by
  unfold decode at eq
  split at eq
  · cases eq
  · split at eq
    · exact ofItems_isLevels eq
    · exact ofItems_isLevels eq
    · cases eq
      simp
    · cases eq
    · cases eq

end RuleRecord

/-- The rule was made from a record of its source with a given property, and it is not disabled. -/
def Rule.Origin (p : RuleRecord → Prop) (rule : Rule) : Prop :=
  ∃ record, p record ∧ Rule.compile rule.source record = .ok rule ∧ rule.disabled = false

/-- A rule that is made from a record knows its source and keeps the record's severity, which is not empty.
Its languages are in normal form. -/
lemma Rule.of_compile {source record rule} (eq : Rule.compile source record = .ok rule) :
    rule.source = source ∧ rule.severity = record.severity ∧ rule.severity ≠ .none ∧
      rule.appliesTo = record.appliesTo.map Text.normalize := by
  unfold Rule.compile at eq
  simp only [bind, Except.bind, pure, Except.pure, throw, throwThe, MonadExceptOf.throw] at eq
  -- the five checks that a record can fail come before the rule, the third one on the severity
  iterate 2
    split at eq
    · cases eq
  split at eq
  · cases eq
  rename_i severe
  iterate 2
    split at eq
    · cases eq
  cases eq
  exact ⟨rfl, rfl, severe, rfl⟩

namespace RuleSet

/-- Rules that are accepted are made from the records. -/
lemma origin_of_mem_accepted {p source taken records} (all : ∀ record ∈ records, p record) {rule}
    (mem : rule ∈ (sortRecords source taken records).accepted) : rule.Origin p := by
  induction records generalizing taken with
  | nil => cases mem
  | cons record rest ih =>
    obtain ⟨first, others⟩ := List.forall_mem_cons.mp all
    unfold sortRecords at mem
    split at mem
    · exact ih others mem
    · rename_i made compiled
      split at mem
      · exact ih others mem
      · rename_i enabled
        split at mem
        · exact ih others mem
        · rcases List.mem_cons.mp mem with rfl | mem'
          · -- The rule knows the source that it was registered under.
            exact ⟨record, first, by rwa [(Rule.of_compile compiled).1], by simpa using enabled⟩
          · exact ih others mem'

lemma mem_putSource {source name rules sources} (mem : source ∈ putSource name rules sources) :
    source = ⟨name, rules⟩ ∨ source ∈ sources := by
  induction sources with
  | nil => exact .inl (List.mem_singleton.mp mem)
  | cons first rest ih =>
    unfold putSource at mem
    split at mem
    · exact (List.mem_cons.mp mem).imp_right (List.mem_cons_of_mem _)
    · rcases List.mem_cons.mp mem with rfl | mem'
      · exact .inr List.mem_cons_self
      · exact (ih mem').imp_right (List.mem_cons_of_mem _)

/-- The records that an operation is given have a property. -/
def Operation.Gives (p : RuleRecord → Prop) : Operation → Prop
  | .addRecords records _ => ∀ record ∈ records, p record
  | _ => True

/-- All rules that the sources of a set hold were made from records with a property. -/
def Stems (p : RuleRecord → Prop) (set : RuleSet) : Prop :=
  ∀ source ∈ set.sources, ∀ rule ∈ source.rules, rule.Origin p

section Stems

variable {p : RuleRecord → Prop}

lemma Stems.addRecords {set : RuleSet} (stems : set.Stems p) {records} (all : ∀ record ∈ records, p record)
    (source : String) :
    (set.addRecords records source).1.Stems p := by
  intro held mem rule mem'
  rcases mem_putSource mem with rfl | old
  · exact origin_of_mem_accepted all (List.mem_filter.mp mem').1
  · exact stems held old rule mem'

lemma Stems.removeSource {set : RuleSet} (stems : set.Stems p) (name : String) :
    (set.removeSource name).1.Stems p := by
  unfold RuleSet.removeSource
  split
  · exact fun held mem => stems held (List.mem_of_mem_eraseP mem)
  · exact stems

/-- No operation adds other rules than those that are made from records which are read or given. -/
lemma Stems.apply (read : ∀ precedence content source records,
      RuleRecord.decode precedence content source = .ok records → ∀ record ∈ records, p record) {set : RuleSet}
    (stems : set.Stems p) {operation} (gives : operation.Gives p) :
    (set.apply operation).Stems p := by
  have keep : ∀ {precedence : Precedence} {set : RuleSet} (content records source),
      RuleRecord.decode precedence content source = .ok records → set.Stems p →
        (set.addRecords records source).1.Stems p :=
    fun content records source eq stems => stems.addRecords (read _ content source records eq) source
  cases operation with
  | add content source _ => exact add_preserves keep stems content source
  | addRecords records source => exact stems.addRecords gives source
  | addCorpus corpus root label _ => exact addCorpus_preserves keep stems corpus root label
  | addDirectory fs dir label _ => exact addDirectory_preserves keep stems fs dir label
  | removeSource name => exact stems.removeSource name
  | clone => exact stems
  | ask languages mask =>
    obtain ⟨answers, eq⟩ := set.candidatesFor_snd languages mask
    rw [RuleSet.apply, eq]
    exact stems

/-- The rules of a set were made from records that were read or given. -/
lemma origin_after (read : ∀ precedence content source records,
      RuleRecord.decode precedence content source = .ok records → ∀ record ∈ records, p record) (recursive : Bool)
    {operations} (gives : ∀ operation ∈ operations, operation.Gives p) :
    ∀ rule ∈ (after recursive operations).rules, rule.Origin p := by
  have stems : (after recursive operations).Stems p := by
    suffices h : ∀ set : RuleSet, set.Stems p → (operations.foldl RuleSet.apply set).Stems p from
      h _ nofun
    induction operations with
    | nil => exact fun _ stems => stems
    | cons operation rest ih =>
      obtain ⟨first, others⟩ := List.forall_mem_cons.mp gives
      exact fun set stems => ih others _ (stems.apply read first)
  intro rule mem
  rw [(wellFormed_after recursive operations).rules_eq] at mem
  obtain ⟨source, mem_source, mem_rule⟩ := List.mem_flatMap.mp mem
  exact stems source mem_source rule mem_rule

end Stems

/-- If the records that are given have named levels only, so have the rules of the set. -/
lemma severity_isLevels_after (recursive : Bool) {operations}
    (gives : ∀ operation ∈ operations, operation.Gives (·.severity.IsLevels)) :
    ∀ rule ∈ (after recursive operations).rules, rule.severity.IsLevels := by
  intro rule mem
  obtain ⟨record, levels, compiled, _⟩ :=
    origin_after (fun _ _ _ _ eq => RuleRecord.decode_isLevels eq) recursive gives rule mem
  rw [(Rule.of_compile compiled).2.1]
  exact levels

/-- The set that holds one rule and remembers nothing. -/
def only (rule : Rule) : RuleSet := withSources {} [⟨rule.source, [rule]⟩]

lemma rules_only (rule : Rule) : (only rule).rules = [rule] :=
  Catalogue.toList_rules_ofSources [⟨rule.source, [rule]⟩]

/-- Registering the record that a rule is made from gives the set that holds this rule alone. -/
lemma after_addRecords_singleton {rule record} (compiled : Rule.compile rule.source record = .ok rule)
    (enabled : rule.disabled = false) :
    after false [.addRecords [record] rule.source] = only rule := by
  have sorted : sortRecords rule.source [] [record] = ⟨[rule], []⟩ := by
    simp [sortRecords, compiled, enabled]
  simp [after, apply, addRecords, sorted, owner?, putSource, only]

/-- Each rule of a reachable set was made from some record. -/
lemma exists_compile_after {recursive operations rule} (mem : rule ∈ (after recursive operations).rules) :
    ∃ record, Rule.compile rule.source record = .ok rule ∧ rule.disabled = false := by
  have gives : ∀ operation ∈ operations, operation.Gives fun _ => True := by
    intro operation _
    cases operation <;> simp [Operation.Gives]
  obtain ⟨record, _, made⟩ := origin_after (fun _ _ _ _ _ _ _ => trivial) recursive gives rule mem
  exact ⟨record, made⟩

/-- Each rule of a reachable set can be had alone. -/
lemma exists_after_eq_only {recursive operations rule} (mem : rule ∈ (after recursive operations).rules) :
    ∃ operations', after false operations' = only rule := by
  obtain ⟨record, compiled, enabled⟩ := exists_compile_after mem
  exact ⟨_, after_addRecords_singleton compiled enabled⟩

end RuleSet

end Sift
