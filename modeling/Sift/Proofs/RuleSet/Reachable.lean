import Mathlib.Data.List.Flatten
import Sift.RuleSet.Directory
import Sift.Proofs.RuleSet.Catalogue

/-!
# Reachable rule sets

`RuleSet.after` is the set that a list of operations makes of an empty one: sources are loaded from
text, from records, from a corpus or from a directory, and dropped; the set is cloned and asked for
candidates. Any operation may fail, and any names and contents may occur.

Loading files is registering the records that are read from one text after another, so that a property
which this keeps is kept by every way of loading (`add_preserves`, `addCorpus_preserves`,
`addDirectory_preserves`). The invariant that carries the induction over the operations is
`WellFormed`: the catalogue belongs to the sources, and neither names of sources nor identifiers of
rules repeat. All that can be read off the tables of a set follows from it (`consistent_after`).
-/

namespace Sift.RuleSet

/-- What can be done with a rule set. -/
inductive Operation where
  | add (content : Bytes) (source : String) (precedence : Precedence := .first)
  | addRecords (records : List RuleRecord) (source : String)
  | addCorpus (corpus : FileSystem) (root label : String) (precedence : Precedence := .first)
  | addDirectory (fs : FileSystem) (dir label : String) (precedence : Precedence := .first)
  | removeSource (name : String)
  | clone
  | ask (languages : List String) (mask : Severity)

/-- The set after an operation. -/
def apply (set : RuleSet) : Operation → RuleSet
  | .add content source precedence => (set.add content source precedence).1
  | .addRecords records source => (set.addRecords records source).1
  | .addCorpus corpus root label precedence => (set.addCorpus corpus root label precedence).1
  | .addDirectory fs dir label precedence => (set.addDirectory fs dir label precedence).1
  | .removeSource name => (set.removeSource name).1
  | .clone => set.clone
  | .ask languages mask => (set.candidatesFor languages mask).2

/-- The set that operations make of an empty one. -/
def after (recursive : Bool) (operations : List Operation) : RuleSet :=
  operations.foldl apply { recursive }

section Loading

variable {P : RuleSet → Prop} {precedence : Precedence}
  (keep : ∀ {set : RuleSet} (content records source), RuleRecord.decode precedence content source = .ok records →
    P set → P (set.addRecords records source).1)

include keep

/-- What registering records that are read keeps, loading text keeps. -/
lemma add_preserves {set} (holds : P set) (content : Bytes) (source : String) :
    P (set.add content source precedence).1 := by
  unfold add
  split
  · exact holds
  · rename_i records read
    exact keep content records source read holds

/-- What registering records that are read keeps, loading a file keeps. -/
lemma loadFile_preserves {set} (holds : P set) (fs : FileSystem) (root shown label name : String) :
    P (loadFile fs root shown label precedence set name).1 := by
  unfold loadFile
  split
  · exact holds
  · exact add_preserves keep holds _ _

/-- What registering records that are read keeps, loading files keeps. -/
lemma addFiles_preserves {set} (holds : P set) (fs : FileSystem) (root shown label : String)
    (collected : List LoadReport) (names : List String) :
    P (addFiles fs root shown label precedence set collected names).1 := by
  induction names generalizing set collected with
  | nil => exact holds
  | cons name rest ih => exact ih (loadFile_preserves keep holds fs root shown label name) _

/-- What registering records that are read keeps, loading a corpus keeps. -/
lemma addCorpus_preserves {set} (holds : P set) (corpus : FileSystem) (root label : String) :
    P (set.addCorpus corpus root label precedence).1 := by
  show P (set.reportCorpus corpus root label precedence).1
  unfold reportCorpus
  split
  · exact holds
  · exact addFiles_preserves keep holds _ _ _ _ _ _

/-- What registering records that are read keeps, loading a directory keeps. -/
lemma addDirectory_preserves {set} (holds : P set) (fs : FileSystem) (dir label : String) :
    P (set.addDirectory fs dir label precedence).1 := by
  unfold addDirectory
  split
  · exact holds
  · split
    · exact holds
    · exact addFiles_preserves keep holds _ _ _ _ _ _
    · exact holds

end Loading

/-- The identifiers that sources hold. -/
def idsOf (sources : List RuleSource) : List String :=
  sources.flatMap fun source => source.rules.map (·.id)

/-- An identifier is held by a source. -/
lemma mem_idsOf {id sources} :
    id ∈ idsOf sources ↔ ∃ source ∈ sources, ∃ rule ∈ source.rules, rule.id = id := by
  simp only [idsOf, List.mem_flatMap, List.mem_map]

/-- Putting a source in place keeps the names, and adds its own at the end if it is new. -/
lemma map_name_putSource (name : String) (rules : List Rule) (sources : List RuleSource) :
    (putSource name rules sources).map (·.name) =
      if name ∈ sources.map (·.name) then sources.map (·.name)
      else sources.map (·.name) ++ [name] := by
  induction sources with
  | nil => simp [putSource]
  | cons source rest ih =>
    by_cases eq : source.name = name
    · simp [putSource, eq]
    · rw [putSource, if_neg eq, List.map_cons, ih, List.map_cons]
      by_cases mem : name ∈ rest.map (·.name)
      · rw [if_pos mem, if_pos (List.mem_cons_of_mem _ mem)]
      · have new : name ∉ source.name :: rest.map (·.name) := by
          rintro (_ | ⟨_, mem'⟩)
          · exact eq rfl
          · exact mem mem'
        rw [if_neg mem, if_neg new, List.cons_append]

/-- Putting a source in place keeps the names different. -/
lemma putSource_names_nodup {name rules sources} (nodup : (sources.map (·.name)).Nodup) :
    ((putSource name rules sources).map (·.name)).Nodup := by
  rw [map_name_putSource]
  split
  · exact nodup
  · rename_i new
    refine List.nodup_append.mpr ⟨nodup, List.nodup_singleton name, ?_⟩
    rintro other mem _ mem' rfl
    exact new (List.mem_singleton.mp mem' ▸ mem)

/-- After a source is put in place, an identifier is one of its own or was held before. -/
lemma mem_idsOf_putSource {id name rules sources} (mem : id ∈ idsOf (putSource name rules sources)) :
    id ∈ rules.map (·.id) ∨ id ∈ idsOf sources := by
  induction sources with
  | nil => simpa [idsOf, putSource] using mem
  | cons source rest ih =>
    unfold putSource at mem
    split at mem
    · rcases List.mem_append.mp mem with own | held
      · exact .inl own
      · exact .inr (List.mem_append_right _ held)
    · rcases List.mem_append.mp mem with held | mem'
      · exact .inr (List.mem_append_left _ held)
      · exact (ih mem').imp_right (List.mem_append_right _)

/-- Identifiers stay different when a source is put in place whose rules have different identifiers
that no other source holds. -/
lemma putSource_ids_nodup {name rules sources} (names : (sources.map (·.name)).Nodup) (ids : (idsOf sources).Nodup)
    (own : (rules.map (·.id)).Nodup) (free : ∀ source ∈ sources, source.name ≠ name → ∀ rule ∈ source.rules,
      rule.id ∉ rules.map (·.id)) :
    (idsOf (putSource name rules sources)).Nodup := by
  induction sources with
  | nil => simpa [idsOf, putSource] using own
  | cons source rest ih =>
    obtain ⟨new, names'⟩ := List.nodup_cons.mp names
    obtain ⟨held, ids', apart⟩ := List.nodup_append.mp ids
    unfold putSource
    split
    · rename_i eq
      refine List.nodup_append.mpr ⟨own, ids', ?_⟩
      -- The other sources have other names, so that their identifiers are not among the new ones.
      rintro id mem _ mem' rfl
      obtain ⟨other, mem_rest, rule, mem_rule, rfl⟩ := mem_idsOf.mp mem'
      have ne : other.name ≠ name := by
        rintro rfl
        exact new (List.mem_map.mpr ⟨other, mem_rest, eq.symm⟩)
      exact free other (List.mem_cons_of_mem _ mem_rest) ne rule mem_rule mem
    · rename_i ne
      -- The source stays, and what is put behind it holds new identifiers or those of before.
      refine List.nodup_append.mpr ⟨held, ih names' ids' fun other mem => ?_, ?_⟩
      · exact free other (List.mem_cons_of_mem _ mem)
      · rintro id mem _ mem' rfl
        rcases mem_idsOf_putSource mem' with mem_own | mem_rest
        · obtain ⟨rule, mem_rule, rfl⟩ := List.mem_map.mp mem
          exact free source List.mem_cons_self ne rule mem_rule mem_own
        · exact apart id mem id mem_rest rfl

/-- Accepted rules have identifiers that were not taken before. -/
lemma id_not_mem_taken {source taken records rule} (mem : rule ∈ (sortRecords source taken records).accepted) :
    rule.id ∉ taken := by
  induction records generalizing taken with
  | nil => cases mem
  | cons record rest ih =>
    unfold sortRecords at mem
    split at mem
    · exact ih mem
    · split at mem
      · exact ih mem
      · split at mem
        · exact ih mem
        · rename_i new
          cases mem with
          | head => simpa using new
          | tail _ mem' => exact fun mem => ih mem' (List.mem_cons_of_mem _ mem)

/-- Accepted rules have different identifiers. -/
lemma accepted_ids_nodup (source : String) (taken : List String) (records : List RuleRecord) :
    ((sortRecords source taken records).accepted.map (·.id)).Nodup := by
  induction records generalizing taken with
  | nil => exact List.nodup_nil
  | cons record rest ih =>
    unfold sortRecords
    split
    · exact ih taken
    · split
      · exact ih taken
      · split
        · exact ih taken
        · refine List.nodup_cons.mpr ⟨?_, ih _⟩
          intro mem
          obtain ⟨rule, mem', eq⟩ := List.mem_map.mp mem
          exact id_not_mem_taken mem' (List.mem_cons.mpr (.inl eq))

/-- An identifier without an owner is held by no other source. -/
lemma id_ne_of_owner?_isNone {set : RuleSet} {name id} (none : (set.owner? name id).isNone = true) {source}
    (mem : source ∈ set.sources) (ne : source.name ≠ name) {rule} (mem' : rule ∈ source.rules) : rule.id ≠ id := by
  rw [Option.isNone_iff_eq_none, owner?, Option.map_eq_none_iff, List.find?_eq_none] at none
  rintro rfl
  apply none source mem
  rw [Bool.and_eq_true, decide_eq_true_eq, List.any_eq_true]
  exact ⟨ne, rule, mem', beq_self_eq_true _⟩

/-- The catalogue belongs to the sources, and neither names nor identifiers repeat. -/
structure WellFormed (set : RuleSet) : Prop where
  catalogue_eq : set.catalogue = .ofSources set.sources
  names_nodup : set.sourceNames.Nodup
  ids_nodup : (idsOf set.sources).Nodup

/-- An empty set is well formed. -/
lemma WellFormed.empty (recursive : Bool) : WellFormed { recursive } where
  catalogue_eq := rfl
  names_nodup := List.nodup_nil
  ids_nodup := List.nodup_nil

/-- Registering the records of a source keeps a set well formed. -/
lemma WellFormed.addRecords {set : RuleSet} (wf : set.WellFormed) (records : List RuleRecord)
    (source : String) : (set.addRecords records source).1.WellFormed where
  catalogue_eq := rfl
  names_nodup := putSource_names_nodup wf.names_nodup
  ids_nodup := by
    refine putSource_ids_nodup wf.names_nodup wf.ids_nodup ?_ ?_
    · exact (accepted_ids_nodup source [] records).sublist (List.filter_sublist.map _)
    · intro other mem ne rule mem_rule mem_free
      obtain ⟨new, mem_new, eq⟩ := List.mem_map.mp mem_free
      have none := (List.mem_filter.mp mem_new).2
      exact id_ne_of_owner?_isNone none mem ne mem_rule eq.symm

/-- Dropping a source keeps a set well formed. -/
lemma WellFormed.removeSource {set : RuleSet} (wf : set.WellFormed) (name : String) :
    (set.removeSource name).1.WellFormed := by
  unfold RuleSet.removeSource
  split
  · have sub : (set.sources.eraseP (·.name = name)).Sublist set.sources := List.eraseP_sublist
    exact {
      catalogue_eq := rfl
      names_nodup := wf.names_nodup.sublist (sub.map _)
      ids_nodup := wf.ids_nodup.sublist (sub.flatMap _) }
  · exact wf

/-- A clone of a well-formed set is well formed. -/
lemma WellFormed.clone {set : RuleSet} (wf : set.WellFormed) : set.clone.WellFormed where
  catalogue_eq := rfl
  names_nodup := wf.names_nodup
  ids_nodup := wf.ids_nodup

/-- A question whose key is known is answered as before. -/
lemma candidatesFor_of_known {set : RuleSet} {languages mask known}
    (hit : set.answers.lookup (answerKey languages mask) = some known) :
    set.candidatesFor languages mask = (known, set) := by
  simp only [candidatesFor, hit]

/-- A question whose key is new is answered through the catalogue, and the answer is kept. -/
lemma candidatesFor_of_new {set : RuleSet} {languages mask}
    (miss : set.answers.lookup (answerKey languages mask) = none) :
    set.candidatesFor languages mask = (set.lookup languages mask,
      { set with
        answers := (answerKey languages mask, set.lookup languages mask) :: set.answers }) := by
  simp only [candidatesFor, miss]

/-- Asking changes neither sources nor catalogue. -/
lemma candidatesFor_snd (set : RuleSet) (languages : List String) (mask : Severity) :
    ∃ answers, (set.candidatesFor languages mask).2 = { set with answers } := by
  cases h : set.answers.lookup (answerKey languages mask) with
  | some known =>
    rw [candidatesFor_of_known h]
    exact ⟨set.answers, rfl⟩
  | none =>
    rw [candidatesFor_of_new h]
    exact ⟨_, rfl⟩

/-- Every operation keeps a set well formed. -/
lemma WellFormed.apply {set : RuleSet} (wf : set.WellFormed) (operation : Operation) :
    (set.apply operation).WellFormed := by
  have keep : ∀ {precedence : Precedence} {set : RuleSet} (content records source),
      RuleRecord.decode precedence content source = .ok records → set.WellFormed →
        (set.addRecords records source).1.WellFormed :=
    fun _ records source _ wf => wf.addRecords records source
  cases operation with
  | add content source _ => exact add_preserves keep wf content source
  | addRecords records source => exact wf.addRecords records source
  | addCorpus corpus root label _ => exact addCorpus_preserves keep wf corpus root label
  | addDirectory fs dir label _ => exact addDirectory_preserves keep wf fs dir label
  | removeSource name => exact wf.removeSource name
  | clone => exact wf.clone
  | ask languages mask =>
    obtain ⟨answers, eq⟩ := set.candidatesFor_snd languages mask
    rw [RuleSet.apply, eq]
    exact ⟨wf.catalogue_eq, wf.names_nodup, wf.ids_nodup⟩

/-- Every set that operations lead to is well formed. -/
lemma wellFormed_after (recursive : Bool) (operations : List Operation) :
    (after recursive operations).WellFormed := by
  suffices h : ∀ set : RuleSet, set.WellFormed → (operations.foldl RuleSet.apply set).WellFormed from
    h _ (.empty recursive)
  induction operations with
  | nil => exact fun _ wf => wf
  | cons operation rest ih => exact fun set wf => ih _ (wf.apply operation)

/-- The rules of a well-formed set are those of its sources. -/
lemma WellFormed.rules_eq {set : RuleSet} (wf : set.WellFormed) :
    set.rules = set.sources.flatMap (·.rules) := by
  rw [rules, wf.catalogue_eq, Catalogue.toList_rules_ofSources]

/-- The tables of a well-formed set are faithful. -/
lemma WellFormed.faithful {set : RuleSet} (wf : set.WellFormed) : set.catalogue.Faithful := by
  rw [wf.catalogue_eq]
  exact Catalogue.ofSources_faithful set.sources

/-- No two rules of a well-formed set have one identifier. -/
lemma WellFormed.rules_ids_nodup {set : RuleSet} (wf : set.WellFormed) :
    (set.rules.map (·.id)).Nodup := by
  rw [wf.rules_eq, List.map_flatMap]
  exact wf.ids_nodup

/-- What can be read off a rule set fits together. -/
structure Consistent (set : RuleSet) : Prop where
  /-- No two sources have one name. -/
  names_nodup : set.sourceNames.Nodup
  /-- No two rules have one identifier. -/
  ids_nodup : (set.rules.map (·.id)).Nodup
  /-- The rules are those of the sources, in the order of the sources. -/
  rules_eq : set.rules = set.sources.flatMap (·.rules)
  /-- An identifier finds the rule that has it, and nothing else. -/
  find?_eq_some_iff : ∀ id rule, set.find? id = some rule ↔ rule ∈ set.rules ∧ rule.id = id
  /-- Positions ascend strictly, those of each language and those for all languages. -/
  positionsOf_pairwise : ∀ language, (set.catalogue.positionsOf language).Pairwise (· < ·)
  universal_pairwise : set.catalogue.universal.Pairwise (· < ·)
  /-- The rules for all languages are those that name none. -/
  mem_universal_iff : ∀ position, position ∈ set.catalogue.universal ↔
    ∃ rule, set.rules[position]? = some rule ∧ rule.appliesTo = []
  /-- The rules of a language are those that name it. -/
  mem_positionsOf_iff : ∀ language position, position ∈ set.catalogue.positionsOf language ↔
    ∃ rule, set.rules[position]? = some rule ∧ language ∈ Language.normalize rule.appliesTo

/-- Whatever is done with a rule set, names and identifiers stay different, and the tables say of the
rules of its sources what they should. -/
theorem consistent_after (recursive : Bool) (operations : List Operation) :
    (after recursive operations).Consistent := by
  have wf := wellFormed_after recursive operations
  have faithful := wf.faithful
  refine {
    names_nodup := wf.names_nodup
    ids_nodup := wf.rules_ids_nodup
    rules_eq := wf.rules_eq
    find?_eq_some_iff := fun id rule => faithful.find?_eq_some_iff wf.rules_ids_nodup
    positionsOf_pairwise := fun language => (faithful.index language).ascending
    universal_pairwise := faithful.universal.ascending
    mem_universal_iff := fun position => ?_
    mem_positionsOf_iff := fun language position => ?_ }
  · rw [faithful.universal.mem_iff, rules]
    simp only [Array.getElem?_toList, List.isEmpty_iff]
  · rw [(faithful.index language).mem_iff, rules]
    simp only [Array.getElem?_toList, List.contains_iff_mem]

end Sift.RuleSet
