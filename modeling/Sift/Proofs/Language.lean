import Mathlib.Data.List.Sort
import Mathlib.Data.String.Basic
import Sift.Language

/-!
# Normalized languages

A list of languages is normalized by trimming and lowering its names, dropping the empty ones,
sorting, and removing repeats. Repeats are removed in the array that is read: what is still to be read
is never overwritten (`Compaction.Passed`). The result is strictly ascending (`normalize_pairwise`), so
that no language stands in it twice, and it holds exactly the names that are left (`mem_normalize`).
-/

namespace Sift.Language

lemma exists_of_mem_take {names : List String} {count name} (mem : name ∈ names.take count) :
    ∃ place < count, names[place]? = some name := by
  obtain ⟨place, eq⟩ := List.mem_iff_getElem?.mp mem
  rw [List.getElem?_take] at eq
  split at eq
  · exact ⟨place, ‹_›, eq⟩
  · cases eq

lemma le_of_getElem? {names : List String} (sorted : names.Pairwise (· ≤ ·)) {place later : Nat}
    (le : place ≤ later) {name name'} (get : names[place]? = some name) (get' : names[later]? = some name') :
    name ≤ name' := by
  obtain ⟨lt, rfl⟩ := List.getElem?_eq_some_iff.mp get
  obtain ⟨lt', rfl⟩ := List.getElem?_eq_some_iff.mp get'
  rcases Nat.lt_or_eq_of_le le with before | rfl
  · exact List.pairwise_iff_getElem.mp sorted place later lt lt' before
  · exact le_refl _

namespace Compaction

/-- The names that are kept so far. -/
def front (pass : Compaction) : List String := pass.names.toList.take pass.kept

/-- What is known once some names have been read. There are no more names kept than read, so that what is
still to be read has not been overwritten, and neither has the name before it, unless by itself. -/
structure Passed (names : List String) (count : Nat) (pass : Compaction) : Prop where
  size_eq : pass.names.size = names.length
  kept_le : pass.kept ≤ count
  /-- What stands behind the kept names is as it was. -/
  behind : ∀ place, pass.kept ≤ place → pass.names[place]? = names[place]?
  /-- The last name that was read is the last one that is kept. -/
  last : 0 < count → 0 < pass.kept ∧ pass.names[pass.kept - 1]? = names[count - 1]?
  mem_front : ∀ name, name ∈ pass.front ↔ name ∈ names.take count
  ascends : names.Pairwise (· ≤ ·) → pass.front.Pairwise (· < ·)

namespace Passed

variable {names : List String} {count : Nat} {pass : Compaction}

lemma initial (names : List String) : Passed names 0 ⟨names.toArray, 0⟩ where
  size_eq := List.size_toArray
  kept_le := Nat.le_refl 0
  behind _ _ := List.getElem?_toArray
  last lt := absurd lt (Nat.lt_irrefl 0)
  mem_front _ := Iff.rfl
  ascends _ := .nil

/-- The name that is read is the one that stood there at first, and so is the one before it. -/
lemma reads (passed : Passed names count pass) :
    pass.names[count]? = names[count]? ∧ (0 < count → pass.names[count - 1]? = names[count - 1]?) := by
  refine ⟨passed.behind count passed.kept_le, fun pos => ?_⟩
  rcases Nat.lt_or_eq_of_le passed.kept_le with lt | eq
  · exact passed.behind (count - 1) (by omega)
  · -- All names are kept so far, and the last of them is the one that was read last.
    have last := (passed.last pos).2
    rwa [eq] at last

/-- A name that differs from the one before it is kept. -/
lemma keep (passed : Passed names count pass) {name} (get : names[count]? = some name)
    (new : count = 0 ∨ names[count - 1]? ≠ some name) :
    Passed names (count + 1) ⟨pass.names.setIfInBounds pass.kept name, pass.kept + 1⟩ := by
  obtain ⟨lt, _⟩ := List.getElem?_eq_some_iff.mp get
  have inside : pass.kept < pass.names.size := by
    rw [passed.size_eq]
    exact Nat.lt_of_le_of_lt passed.kept_le lt
  have front : front ⟨pass.names.setIfInBounds pass.kept name, pass.kept + 1⟩ = pass.front ++ [name] := by
    rw [Compaction.front, Array.toList_setIfInBounds, List.take_add_one, List.take_set_of_le (Nat.le_refl _),
      List.getElem?_set_self inside, Option.toList_some, Compaction.front]
  have taken : names.take (count + 1) = names.take count ++ [name] := by
    rw [List.take_add_one, get, Option.toList_some]
  refine ⟨?_, Nat.add_le_add_right passed.kept_le 1, fun place le => ?_, fun _ => ⟨Nat.succ_pos _, ?_⟩,
    fun other => ?_, fun sorted => ?_⟩
  · rw [Array.size_setIfInBounds, passed.size_eq]
  · have later : pass.kept < place := le
    rw [Array.getElem?_setIfInBounds_ne (Nat.ne_of_lt later)]
    exact passed.behind place (Nat.le_of_lt later)
  · rw [Nat.add_sub_cancel, Array.getElem?_setIfInBounds_self_of_lt inside, Nat.add_sub_cancel, get]
  · rw [front, taken, List.mem_append, List.mem_append, passed.mem_front]
  · -- Every name that is kept already stands before this one, and the last of them is another one.
    rw [front, List.pairwise_append]
    refine ⟨passed.ascends sorted, List.pairwise_singleton _ _, fun other mem _ mem' => ?_⟩
    obtain rfl := List.mem_singleton.mp mem'
    obtain ⟨place, before, eq⟩ := exists_of_mem_take ((passed.mem_front other).mp mem)
    have previous := List.getElem?_eq_getElem (show count - 1 < names.length by omega)
    have ne := new.resolve_left (by omega)
    rw [previous] at ne
    calc
      other ≤ names[count - 1] := le_of_getElem? sorted (by omega) eq previous
      _ < _ := lt_of_le_of_ne (le_of_getElem? sorted (by omega) previous get) fun same => ne (congrArg some same)

/-- A name that repeats the one before it is passed over. -/
lemma skip (passed : Passed names count pass) {name} (get : names[count]? = some name) (pos : 0 < count)
    (old : names[count - 1]? = some name) : Passed names (count + 1) pass := by
  have taken : names.take (count + 1) = names.take count ++ [name] := by
    rw [List.take_add_one, get, Option.toList_some]
  have mem : name ∈ names.take count := by
    refine List.mem_iff_getElem?.mpr ⟨count - 1, ?_⟩
    rw [List.getElem?_take_of_lt (by omega), old]
  refine ⟨passed.size_eq, Nat.le_succ_of_le passed.kept_le, passed.behind, fun _ => ?_, fun other => ?_,
    passed.ascends⟩
  · rw [Nat.add_sub_cancel, get, ← old]
    exact passed.last pos
  · rw [passed.mem_front, taken, List.mem_append, List.mem_singleton]
    constructor
    · exact .inl
    · rintro (before | rfl)
      · exact before
      · exact mem

lemma step (passed : Passed names count pass) (lt : count < names.length) :
    Passed names (count + 1) (pass.read count) := by
  have get := List.getElem?_eq_getElem lt
  obtain ⟨here, before⟩ := passed.reads
  rw [read, here, get]
  dsimp only
  rcases Nat.eq_zero_or_pos count with rfl | pos
  · exact passed.keep get (.inl rfl)
  · rw [before pos]
    by_cases old : names[count - 1]? = some names[count]
    · rw [if_neg (by simp [old, Nat.ne_of_gt pos])]
      exact passed.skip get pos old
    · rw [if_pos (by simp [old])]
      exact passed.keep get (.inr old)

/-- The pass over the first names of a list. -/
lemma readAll (names : List String) {count} (le : count ≤ names.length) :
    Passed names count (Compaction.readAll names.toArray count) := by
  induction count with
  | zero => exact initial names
  | succ count ih =>
    rw [Compaction.readAll, List.range_succ, List.foldl_append, List.foldl_cons, List.foldl_nil]
    exact (ih (Nat.le_of_succ_le le)).step le

end Passed

end Compaction

/-- Removing repeats keeps every name. -/
lemma mem_dropRepeats {name names} :
    name ∈ dropRepeats names ↔ name ∈ names := by
  have mem := (Compaction.Passed.readAll names (Nat.le_refl _)).mem_front name
  rwa [List.take_length] at mem

/-- Once repeats are removed, an ascending list ascends strictly. -/
lemma dropRepeats_pairwise {names} (asc : names.Pairwise (· ≤ ·)) :
    (dropRepeats names).Pairwise (· < ·) :=
  (Compaction.Passed.readAll names (Nat.le_refl _)).ascends asc

/-- Normalized languages ascend strictly. -/
lemma normalize_pairwise (names : List String) : (normalize names).Pairwise (· < ·) := by
  apply dropRepeats_pairwise
  exact List.pairwise_mergeSort' (· ≤ ·) _

/-- No language stands twice among normalized ones. -/
lemma normalize_nodup (names : List String) : (normalize names).Nodup :=
  (normalize_pairwise names).imp fun lt => ne_of_lt lt

lemma normalize_nil : normalize [] = [] := by
  rw [normalize, List.map_nil, List.filter_nil, List.mergeSort_nil]
  rfl

/-- Normalized languages are the trimmed and lowered names that are not empty. -/
lemma mem_normalize {language names} :
    language ∈ normalize names ↔ language ≠ "" ∧ ∃ name ∈ names, Text.normalize name = language := by
  rw [normalize, mem_dropRepeats, List.mem_mergeSort, List.mem_filter, List.mem_map]
  simp only [ne_eq, decide_not, Bool.not_eq_eq_eq_not, Bool.not_true, decide_eq_false_iff_not]
  exact and_comm

/-- Names that are normalized already and ascend strictly stay as they are. -/
lemma normalize_eq_self {names} (asc : names.Pairwise (· < ·))
    (plain : ∀ name ∈ names, name ≠ "" ∧ Text.normalize name = name) : normalize names = names := by
  refine (normalize_pairwise names).eq_of_mem_iff asc fun name => ?_
  rw [mem_normalize]
  constructor
  · rintro ⟨_, other, mem, rfl⟩
    rwa [(plain other mem).2]
  · intro mem
    exact ⟨(plain name mem).1, name, mem, (plain name mem).2⟩

end Sift.Language
