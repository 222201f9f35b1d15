import Mathlib.Data.List.Range
import Mathlib.Data.List.Sort
import Sift.RuleSet.Catalogue
import Sift.Proofs.Language

/-!
# What a catalogue finds

A catalogue knows rules by their positions. `Lists rules p found` says that `found` holds, ascending,
the positions of the rules that have the property `p`. Adding a rule keeps such lists complete
(`Lists.push`), merging two of them lists the rules that have either property (`Lists.merge`), and
reading the rules at the positions gives what filtering all rules gives (`Lists.filterMap_getElem?`).

A catalogue is `Faithful` if its three tables say of its rules what they should. Every push keeps it
so, hence every catalogue built from sources is faithful (`ofSources_faithful`) and selects by
language and severity what a plain filter of its rules selects (`Faithful.select_eq`).
-/

namespace Sift.Catalogue

/-- `found` holds, ascending, the positions of the rules with a property. -/
structure Lists (rules : Array Rule) (p : Rule → Bool) (found : List Nat) : Prop where
  ascending : found.Pairwise (· < ·)
  mem_iff : ∀ position, position ∈ found ↔ ∃ rule, rules[position]? = some rule ∧ p rule = true

/-- A listed position is one of a rule. -/
lemma Lists.lt_size {rules p found position} (ls : Lists rules p found) (mem : position ∈ found) :
    position < rules.size := by
  obtain ⟨rule, at_position, _⟩ := (ls.mem_iff position).mp mem
  exact (Array.getElem?_eq_some_iff.mp at_position).1

/-- No position is listed of no rules. -/
lemma Lists.empty {p} : Lists #[] p [] where
  ascending := .nil
  mem_iff position := by simp

/-- A rule that is added is listed behind all others if it has the property. -/
lemma Lists.push {rules p found} (ls : Lists rules p found) (rule : Rule) :
    Lists (rules.push rule) p (found ++ if p rule then [rules.size] else []) where
  ascending := by
    refine List.pairwise_append.mpr ⟨ls.ascending, ?_, ?_⟩
    · split
      · exact List.pairwise_singleton _ _
      · exact .nil
    · intro position mem last mem_last
      split at mem_last
      · rw [List.mem_singleton.mp mem_last]
        exact ls.lt_size mem
      · cases mem_last
  mem_iff position := by
    rw [List.mem_append, ls.mem_iff position, Array.getElem?_push]
    by_cases last : position = rules.size
    · subst last
      cases h : p rule <;> simp [h]
    · cases h : p rule <;> simp [last]

/-- What is merged stands in one of the two lists. -/
lemma mem_mergePositions {position as bs} :
    position ∈ mergePositions as bs ↔ position ∈ as ∨ position ∈ bs := by
  induction as, bs using mergePositions.induct with
  | case1 bs => simp [mergePositions]
  | case2 as => simp [mergePositions]
  | case3 a as b bs lt ih =>
    rw [mergePositions, if_pos lt, List.mem_cons, ih, ← or_assoc, ← List.mem_cons]
  | case4 a as b bs nlt gt ih =>
    rw [mergePositions, if_neg nlt, if_pos gt, List.mem_cons, ih, List.mem_cons (a := position) (b := b),
      or_left_comm]
  | case5 a as b bs nlt ngt ih =>
    have eq : a = b := by omega
    subst eq
    rw [mergePositions, if_neg nlt, if_neg ngt, List.mem_cons, ih]
    simp only [List.mem_cons]
    tauto

/-- Merging keeps strictly ascending lists strictly ascending. -/
lemma mergePositions_pairwise {as bs} (asc : as.Pairwise (· < ·)) (asc' : bs.Pairwise (· < ·)) :
    (mergePositions as bs).Pairwise (· < ·) := by
  induction as, bs using mergePositions.induct with
  | case1 bs => simpa only [mergePositions] using asc'
  | case2 as => simpa only [mergePositions] using asc
  | case3 a as b bs lt ih =>
    obtain ⟨below, asc_as⟩ := List.pairwise_cons.mp asc
    obtain ⟨below', _⟩ := List.pairwise_cons.mp asc'
    rw [mergePositions, if_pos lt]
    refine List.pairwise_cons.mpr ⟨?_, ih asc_as asc'⟩
    intro position mem
    rcases mem_mergePositions.mp mem with mem_as | mem_bs
    · exact below position mem_as
    · rcases List.mem_cons.mp mem_bs with rfl | mem_bs
      · exact lt
      · exact lt.trans (below' position mem_bs)
  | case4 a as b bs nlt gt ih =>
    obtain ⟨below, _⟩ := List.pairwise_cons.mp asc
    obtain ⟨below', asc_bs⟩ := List.pairwise_cons.mp asc'
    rw [mergePositions, if_neg nlt, if_pos gt]
    refine List.pairwise_cons.mpr ⟨?_, ih asc asc_bs⟩
    intro position mem
    rcases mem_mergePositions.mp mem with mem_as | mem_bs
    · rcases List.mem_cons.mp mem_as with rfl | mem_as
      · exact gt
      · exact gt.trans (below position mem_as)
    · exact below' position mem_bs
  | case5 a as b bs nlt ngt ih =>
    have eq : a = b := by omega
    subst eq
    obtain ⟨below, asc_as⟩ := List.pairwise_cons.mp asc
    obtain ⟨below', asc_bs⟩ := List.pairwise_cons.mp asc'
    rw [mergePositions, if_neg nlt, if_neg ngt]
    refine List.pairwise_cons.mpr ⟨?_, ih asc_as asc_bs⟩
    intro position mem
    exact (mem_mergePositions.mp mem).elim (below position) (below' position)

/-- Merged lists hold the rules that have either property. -/
lemma Lists.merge {rules p q as bs} (ls : Lists rules p as) (ls' : Lists rules q bs) :
    Lists rules (fun rule => p rule || q rule) (mergePositions as bs) where
  ascending := mergePositions_pairwise ls.ascending ls'.ascending
  mem_iff position := by
    rw [mem_mergePositions, ls.mem_iff, ls'.mem_iff, ← exists_or]
    refine exists_congr fun rule => ?_
    rw [Bool.or_eq_true, and_or_left]

/-- Reading a list at all its positions gives it back. -/
lemma range_filterMap_getElem? {α : Type} (xs : List α) :
    (List.range xs.length).filterMap (xs[·]?) = xs := by
  induction xs with
  | nil => rfl
  | cons x xs ih =>
    rw [List.length_cons, List.range_succ_eq_map, List.filterMap_cons, List.filterMap_map]
    exact congrArg (x :: ·) ih

/-- Reading the rules at listed positions gives what filtering all rules gives. -/
lemma Lists.filterMap_getElem? {rules p found} (ls : Lists rules p found) :
    found.filterMap (rules[·]?) = rules.toList.filter p := by
  -- The listed positions are those of the whole range that hold a rule with the property.
  have eq : found = (List.range rules.size).filter fun position => (rules[position]?).any p := by
    refine ls.ascending.eq_of_mem_iff (List.pairwise_lt_range.filter _) ?_
    intro position
    rw [List.mem_filter, List.mem_range, Option.any_eq_true, ls.mem_iff]
    constructor
    · rintro ⟨rule, at_position, holds⟩
      exact ⟨(Array.getElem?_eq_some_iff.mp at_position).1, rule, at_position, holds⟩
    · rintro ⟨_, rule, at_position, holds⟩
      exact ⟨rule, at_position, holds⟩
  have whole := range_filterMap_getElem? rules.toList
  simp only [Array.length_toList, Array.getElem?_toList] at whole
  rw [eq, List.filterMap_filter, ← congrArg (List.filter p) whole, List.filter_filterMap]
  congr 1
  funext position
  cases rules[position]? with
  | none => rfl
  | some rule => cases h : p rule <;> simp [Option.filter, h]

/-- A position is added to every one of some different languages once. -/
lemma under_addAll_languages {position name} {index : Positions String} {languages : List String}
    (nodup : languages.Nodup) :
    (index.addAll (languages.map (·, position))).under name =
      index.under name ++ if name ∈ languages then [position] else [] := by
  rw [Positions.under_addAll]
  refine congrArg _ ?_
  induction languages with
  | nil => simp
  | cons language rest ih =>
    obtain ⟨new, nodup'⟩ := List.nodup_cons.mp nodup
    by_cases eq : name = language
    · subst eq
      simpa [new] using ih nodup'
    · simpa [eq, Ne.symm eq] using ih nodup'

lemma rules_push (catalogue : Catalogue) (rule : Rule) :
    (catalogue.push rule).rules = catalogue.rules.push rule := by
  unfold push
  split <;> rfl

lemma byId_push (catalogue : Catalogue) (rule : Rule) :
    (catalogue.push rule).byId = (rule.id, rule) :: catalogue.byId := by
  unfold push
  split <;> rfl

/-- A rule without languages is added to those for all languages. -/
lemma universal_push (catalogue : Catalogue) (rule : Rule) :
    (catalogue.push rule).universal =
      catalogue.universal ++ if rule.appliesTo.isEmpty then [catalogue.rules.size] else [] := by
  unfold push
  split
  · rfl
  · exact (List.append_nil _).symm

/-- A rule with languages is added to each of them. -/
lemma positionsOf_push (catalogue : Catalogue) (rule : Rule) (language : String) :
    (catalogue.push rule).positionsOf language = catalogue.positionsOf language ++
      if (Language.normalize rule.appliesTo).contains language then [catalogue.rules.size] else [] := by
  unfold push positionsOf
  split
  · rename_i none
    rw [List.isEmpty_iff.mp none, Language.normalize_nil]
    exact (List.append_nil _).symm
  · simp only [under_addAll_languages (Language.normalize_nodup _), List.contains_iff_mem]

/-- The tables of a catalogue say of its rules what they should. -/
structure Faithful (catalogue : Catalogue) : Prop where
  byId_eq : catalogue.byId = (catalogue.rules.toList.map fun rule => (rule.id, rule)).reverse
  universal : Lists catalogue.rules (·.appliesTo.isEmpty) catalogue.universal
  index : ∀ language, Lists catalogue.rules
    (fun rule => (Language.normalize rule.appliesTo).contains language)
    (catalogue.positionsOf language)

/-- Nothing is found in a catalogue without rules. -/
lemma Faithful.empty : Faithful {} where
  byId_eq := rfl
  universal := .empty
  index _ := .empty

/-- Adding a rule keeps the tables faithful. -/
lemma Faithful.push {catalogue : Catalogue} (faithful : catalogue.Faithful) (rule : Rule) :
    (catalogue.push rule).Faithful where
  byId_eq := by
    rw [byId_push, rules_push, faithful.byId_eq, Array.toList_push, List.map_append,
      List.reverse_append]
    rfl
  universal := by
    rw [rules_push, universal_push]
    exact faithful.universal.push rule
  index language := by
    rw [rules_push, positionsOf_push]
    exact (faithful.index language).push rule

/-- Adding rules one after the other keeps the tables faithful. -/
lemma Faithful.foldl_push {catalogue : Catalogue} (faithful : catalogue.Faithful) (rules : List Rule) :
    (rules.foldl Catalogue.push catalogue).Faithful := by
  induction rules generalizing catalogue with
  | nil => exact faithful
  | cons rule rest ih => exact ih (faithful.push rule)

/-- Rules that are added stand behind those before. -/
lemma toList_rules_foldl_push (catalogue : Catalogue) (rules : List Rule) :
    (rules.foldl push catalogue).rules.toList = catalogue.rules.toList ++ rules := by
  induction rules generalizing catalogue with
  | nil => exact (List.append_nil _).symm
  | cons rule rest ih =>
    rw [List.foldl_cons, ih, rules_push, Array.toList_push, List.append_assoc, List.singleton_append]

/-- The sources of a catalogue count only by their rules. -/
lemma ofSources_eq_foldl_push (sources : List RuleSource) :
    ofSources sources = (sources.flatMap (·.rules)).foldl push {} :=
  List.foldl_flatMap.symm

/-- A catalogue built from sources holds their rules in order. -/
lemma toList_rules_ofSources (sources : List RuleSource) :
    (ofSources sources).rules.toList = sources.flatMap (·.rules) := by
  rw [ofSources_eq_foldl_push, toList_rules_foldl_push]
  rfl

/-- A catalogue built from sources is faithful. -/
lemma ofSources_faithful (sources : List RuleSource) : (ofSources sources).Faithful := by
  rw [ofSources_eq_foldl_push]
  exact Faithful.empty.foldl_push _

/-- Among entries with different keys, looking up a key finds its entry. -/
lemma lookup_eq_some_iff_mem {α : Type} {entries : List (String × α)} {key value}
    (nodup : (entries.map (·.1)).Nodup) :
    entries.lookup key = some value ↔ (key, value) ∈ entries := by
  induction entries with
  | nil => simp
  | cons entry rest ih =>
    obtain ⟨name, first⟩ := entry
    obtain ⟨new, nodup'⟩ := List.nodup_cons.mp nodup
    by_cases eq : key = name
    · subst eq
      have absent : (key, value) ∉ rest := fun mem => new (List.mem_map.mpr ⟨_, mem, rfl⟩)
      simp [absent, eq_comm]
    · simp [List.lookup_cons, beq_eq_false_iff_ne.mpr eq, eq, ih nodup']

/-- Where identifiers differ, an identifier finds the rule that has it. -/
lemma Faithful.find?_eq_some_iff {catalogue : Catalogue} (faithful : catalogue.Faithful)
    (nodup : (catalogue.rules.toList.map (·.id)).Nodup) {id rule} :
    catalogue.find? id = some rule ↔ rule ∈ catalogue.rules.toList ∧ rule.id = id := by
  have nodup' : (catalogue.byId.map (·.1)).Nodup := by
    rw [faithful.byId_eq, List.map_reverse, List.map_map]
    exact List.nodup_reverse.mpr nodup
  rw [find?, lookup_eq_some_iff_mem nodup', faithful.byId_eq, List.mem_reverse, List.mem_map]
  constructor
  · rintro ⟨other, mem, eq⟩
    cases eq
    exact ⟨mem, rfl⟩
  · rintro ⟨mem, rfl⟩
    exact ⟨rule, mem, rfl⟩

/-- Merging the lists of languages one after the other lists the rules that name one of them. -/
lemma Faithful.foldl_mergePositions {catalogue : Catalogue} {p found} (faithful : catalogue.Faithful)
    (ls : Lists catalogue.rules p found) (languages : List String) :
    Lists catalogue.rules
      (fun rule => p rule || languages.any ((Language.normalize rule.appliesTo).contains ·))
      (languages.foldl
        (fun found language => mergePositions found (catalogue.positionsOf language)) found) := by
  induction languages generalizing p found with
  | nil => simpa only [List.any_nil, Bool.or_false, List.foldl_nil] using ls
  | cons language rest ih =>
    have step := ih (ls.merge (faithful.index language))
    simpa only [List.any_cons, List.foldl_cons, Bool.or_assoc] using step

/-- Selecting through the tables gives what filtering all rules gives. -/
lemma Faithful.select_eq {catalogue : Catalogue} (faithful : catalogue.Faithful)
    (languages : List String) (mask : Severity) :
    catalogue.select languages mask = catalogue.rules.toList.filter fun rule =>
      rule.severity.intersects mask &&
        (rule.appliesTo.isEmpty ||
          languages.any ((Language.normalize rule.appliesTo).contains ·)) := by
  have ls := faithful.foldl_mergePositions faithful.universal languages
  rw [select, positions, ls.filterMap_getElem?, List.filter_filter]

end Sift.Catalogue
