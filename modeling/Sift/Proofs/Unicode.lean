import Mathlib.Tactic.Lemma
import Sift.Unicode.Category

/-!
# Letters and digits as word characters

A table of ranges ascends, so that what it says of the first code points can be told from its beginning
(`Unicode.mem_rangesBelow`). The letters and digits among the first 128 code points are those of ASCII, so
that all letters and decimal digits are word characters (`Unicode.isWord_of_contains`).
-/

namespace Sift.Unicode

/-- The ranges that begin below a bound; the table is read no further than that. -/
def rangesBelow (bound start : Nat) : List Int → Ranges
  | gap :: length :: rest =>
    let first := start + gap.toNat
    if bound ≤ first then []
    else (first, first + length.toNat - 1) :: rangesBelow bound (first + length.toNat) rest
  | _ => []

lemma le_of_mem_rangesOfGaps {start gaps range} (mem : range ∈ rangesOfGaps start gaps) : start ≤ range.1 := by
  fun_induction rangesOfGaps start gaps with
  | case1 start gap length rest first ih =>
    rcases List.mem_cons.mp mem with rfl | mem
    · exact Nat.le_add_right _ _
    · exact Nat.le_trans (by omega) (ih mem)
  | case2 => cases mem

lemma mem_rangesBelow {bound start gaps range} (mem : range ∈ rangesOfGaps start gaps) (lt : range.1 < bound) :
    range ∈ rangesBelow bound start gaps := by
  fun_induction rangesOfGaps start gaps with
  | case1 start gap length rest first ih =>
    rw [rangesBelow]
    rcases List.mem_cons.mp mem with rfl | later
    · rw [if_neg (Nat.not_le.mpr lt)]
      exact List.mem_cons_self
    · have le := le_of_mem_rangesOfGaps later
      rw [if_neg (by omega)]
      exact List.mem_cons_of_mem _ (ih later)
  | case2 => cases mem

/-- The ranges of a category are those of the entries that its name stands for. -/
lemma exists_entry_of_mem {name range} (mem : range ∈ categoryRanges name) :
    ∃ entry ∈ categoryTable, (entry.1 = name || (name.length = 1 && entry.1.toList.take 1 == name.toList)) = true ∧
      range ∈ rangesOfGaps 0 (entry.2.flatMap fun line => readNumbers line.toList) := by
  rw [categoryRanges, categoryRanges?] at mem
  split at mem
  · cases mem
  · obtain ⟨chosen, mem, within⟩ := List.mem_flatMap.mp mem
    obtain ⟨mem, named⟩ := List.mem_filter.mp mem
    obtain ⟨entry, listed, rfl⟩ := List.mem_map.mp mem
    exact ⟨entry, listed, named, within⟩

set_option maxRecDepth 10000 in
/-- The letters and decimal digits among the first 128 code points. -/
lemma ascii_of_mem_rangesBelow : ∀ entry ∈ categoryTable, entry.1 = "Nd" ∨ entry.1.toList.take 1 = ['L'] →
    ∀ range ∈ rangesBelow 128 0 (entry.2.flatMap fun line => readNumbers line.toList),
      48 ≤ range.1 ∧ range.2 ≤ 57 ∨ 65 ≤ range.1 ∧ range.2 ≤ 90 ∨ 97 ≤ range.1 ∧ range.2 ≤ 122 := by
  decide +kernel

lemma isAsciiWord_of_contains {name} (known : name = "L" ∨ name = "Nd") {c} (lt : c < 128)
    (within : (categoryRanges name).contains c = true) : isAsciiWord c = true := by
  obtain ⟨range, mem, bounds⟩ := List.any_eq_true.mp within
  rw [Bool.and_eq_true, decide_eq_true_eq, decide_eq_true_eq] at bounds
  obtain ⟨entry, listed, named, mem⟩ := exists_entry_of_mem mem
  have kind : entry.1 = "Nd" ∨ entry.1.toList.take 1 = ['L'] := by
    simp only [Bool.or_eq_true, decide_eq_true_eq, Bool.and_eq_true, beq_iff_eq] at named
    rcases known with rfl | rfl <;> rcases named with named | ⟨single, named⟩
    · rw [named]
      decide
    · exact .inr named
    · exact .inl named
    · exact absurd single (by decide)
  have ascii := ascii_of_mem_rangesBelow entry listed kind range (mem_rangesBelow mem (by omega))
  simp only [isAsciiWord, Bool.or_eq_true, Bool.and_eq_true, decide_eq_true_eq]
  omega

/-- Letters and decimal digits are word characters. -/
lemma isWord_of_contains {c} (within : letterRanges.contains c = true ∨ decimalDigitRanges.contains c = true) :
    isWord c = true := by
  rw [isWord]
  split
  case isTrue lt =>
    rcases within with letter | digit
    · exact isAsciiWord_of_contains (.inl rfl) lt letter
    · exact isAsciiWord_of_contains (.inr rfl) lt digit
  case isFalse =>
    rcases within with letter | digit
    · simp [letter]
    · simp [digit]

end Sift.Unicode
