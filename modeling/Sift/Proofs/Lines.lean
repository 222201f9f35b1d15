import Mathlib.Data.List.DropRight
import Sift.Proofs.Utf8

/-!
# Lines and code points

A text is a line, or a line, a line break and another text (`Lines.induction`). No rune runs over a line
break, so that the lines of the code points are the code points of the lines
(`Lines.splitOn_codePoints`), and lines are counted by code points as they are by bytes
(`Lines.number_offsetOf`). The column of an offset is the length of the last line before it
(`Lines.length_last_take`).
-/

namespace Sift

namespace Lines

/-- What holds of a line, and of a line before a text of which it holds, holds of every text. -/
lemma induction {α : Type} [BEq α] [LawfulBEq α] (sep : α) {motive : List α → Prop}
    (line : ∀ line, sep ∉ line → motive line)
    (cons : ∀ line rest, sep ∉ line → motive rest → motive (line ++ sep :: rest)) (text : List α) :
    motive text := by
  by_cases mem : sep ∈ text
  · obtain ⟨first, rest, eq, plain⟩ := List.eq_append_cons_of_mem mem
    have shorter : rest.length < text.length := by
      rw [eq, List.length_append, List.length_cons]
      omega
    rw [eq]
    exact cons first rest plain (induction sep line cons rest)
  · exact line text mem
termination_by text.length

end Lines

namespace Utf8

/-- Only the byte of a line break is read as one. -/
lemma head_code_ne {b} (ne : b ≠ 10) (rest : Bytes) : (head b rest).code ≠ 10 := by
  rcases head_cases b rest with invalid | ⟨tail, later, code, rfl, sequence⟩
  · rw [invalid]
    decide
  · rw [sequence.head_append]
    intro eq
    obtain ⟨c, encoded, rfl⟩ := sequence_iff.mp sequence
    obtain rfl : c = '\n' := Char.toNat_inj.mp eq
    exact ne (List.cons.inj encoded).1

/-- A text without line breaks is read without them. -/
lemma break_not_mem_codePoints {line} (plain : 10 ∉ line) : 10 ∉ codePoints line := by
  match line with
  | [] => exact List.not_mem_nil
  | b :: rest =>
    obtain ⟨ne, plain'⟩ := not_or.mp (mt List.mem_cons.mpr plain)
    have shorter : (rest.drop ((head b rest).width - 1)).length < (b :: rest).length := by
      rw [List.length_drop, List.length_cons]
      omega
    rw [codePoints, runes_cons, List.map_cons, List.mem_cons, not_or]
    exact ⟨(head_code_ne (Ne.symm ne) rest).symm,
      break_not_mem_codePoints fun mem => plain' (List.mem_of_mem_drop mem)⟩
termination_by line.length

lemma codePoints_append_break (front back : Bytes) :
    codePoints (front ++ 10 :: back) = codePoints front ++ 10 :: codePoints back := by
  rw [codePoints, runes_append_break, List.map_append, List.map_cons]
  rfl

lemma offsetOf_append_break_of_le {front} (back : Bytes) {place} (le : place ≤ (codePoints front).length) :
    offsetOf (front ++ 10 :: back) place = offsetOf front place := by
  rw [codePoints, List.length_map] at le
  rw [offsetOf, runes_append_break, List.take_append_of_le_length le, offsetOf]

lemma offsetOf_append_break_add (front back : Bytes) (place : Nat) :
    offsetOf (front ++ 10 :: back) ((codePoints front).length + (place + 1)) =
      front.length + (offsetOf back place + 1) := by
  rw [offsetOf, runes_append_break, codePoints, List.length_map, List.take_length_add_append,
    List.take_succ_cons, width_append, width_runes, width_cons, offsetOf, Nat.add_comm 1]

end Utf8

namespace Lines

/-- A line of a text, counted from zero. -/
def nth (text : Bytes) (number : Nat) : Bytes := (text.splitOn 10).getD number []

/-- The line of a code point, counted from zero. -/
def ofPlace (text : Bytes) (place : Nat) : Nat := ((Utf8.codePoints text).take place).count 10

/-- What stands before a line of a text. -/
def before (text : Bytes) (number : Nat) : Bytes :=
  ((text.splitOn 10).take number).flatMap (· ++ [10])

/-- The lines of the code points are the code points of the lines. -/
lemma splitOn_codePoints (text : Bytes) :
    (Utf8.codePoints text).splitOn 10 = (text.splitOn 10).map Utf8.codePoints := by
  induction text using Lines.induction (10 : UInt8) with
  | line line plain =>
    rw [List.splitOn_eq_singleton plain,
      List.splitOn_eq_singleton (Utf8.break_not_mem_codePoints plain), List.map_singleton]
  | cons line rest plain ih =>
    rw [Utf8.codePoints_append_break, List.splitOn_append_cons_self_of_not_mem plain,
      List.splitOn_append_cons_self_of_not_mem (Utf8.break_not_mem_codePoints plain), ih,
      List.map_cons]

lemma length_splitOn {α : Type} [BEq α] [LawfulBEq α] (sep : α) (text : List α) :
    (text.splitOn sep).length = text.count sep + 1 := by
  induction text using Lines.induction sep with
  | line line plain =>
    rw [List.splitOn_eq_singleton plain, List.count_eq_zero_of_not_mem plain, List.length_singleton]
  | cons line rest plain ih =>
    rw [List.splitOn_append_cons_self_of_not_mem plain, List.length_cons, ih, List.count_append,
      List.count_eq_zero_of_not_mem plain, List.count_cons_self, Nat.zero_add]

/-- The code points of a line are a line of the code points. -/
lemma codePoints_nth (text : Bytes) (number : Nat) :
    Utf8.codePoints (nth text number) = ((Utf8.codePoints text).splitOn 10).getD number [] := by
  rw [splitOn_codePoints, nth, List.getD_eq_getElem?_getD, List.getD_eq_getElem?_getD,
    List.getElem?_map]
  cases (text.splitOn 10)[number]? <;> rfl

lemma codePoints_before (text : Bytes) (number : Nat) :
    Utf8.codePoints (before text number) =
      (((Utf8.codePoints text).splitOn 10).take number).flatMap (· ++ [10]) := by
  rw [before, splitOn_codePoints, ← List.map_take]
  induction (text.splitOn 10).take number with
  | nil => rfl
  | cons line rest ih =>
    rw [List.flatMap_cons, List.append_assoc, List.singleton_append, Utf8.codePoints_append_break, ih,
      List.map_cons, List.flatMap_cons, List.append_assoc, List.singleton_append]

/-- Lines are counted by code points as by bytes. -/
lemma number_offsetOf (text : Bytes) (place : Nat) :
    number text (Utf8.offsetOf text place) = ofPlace text place := by
  rw [ofPlace]
  induction text using Lines.induction (10 : UInt8) generalizing place with
  | line line plain =>
    rw [number, List.count_eq_zero_of_not_mem (mt List.mem_of_mem_take plain),
      List.count_eq_zero_of_not_mem (mt List.mem_of_mem_take (Utf8.break_not_mem_codePoints plain))]
  | cons line rest plain ih =>
    rw [number, Utf8.codePoints_append_break]
    by_cases le : place ≤ (Utf8.codePoints line).length
    · -- The place is on the first line.
      rw [Utf8.offsetOf_append_break_of_le rest le,
        List.take_append_of_le_length (Utf8.offsetOf_le line place), List.take_append_of_le_length le,
        List.count_eq_zero_of_not_mem (mt List.mem_of_mem_take plain),
        List.count_eq_zero_of_not_mem (mt List.mem_of_mem_take (Utf8.break_not_mem_codePoints plain))]
    · obtain ⟨more, rfl⟩ : ∃ more, place = (Utf8.codePoints line).length + (more + 1) :=
        ⟨place - (Utf8.codePoints line).length - 1, by omega⟩
      have ih' : (rest.take (Utf8.offsetOf rest more)).count 10 = _ := ih more
      rw [Utf8.offsetOf_append_break_add, List.take_length_add_append, List.take_length_add_append,
        List.take_succ_cons, List.take_succ_cons, List.count_append, List.count_append,
        List.count_cons_self, List.count_cons_self, ih', List.count_eq_zero_of_not_mem plain,
        List.count_eq_zero_of_not_mem (Utf8.break_not_mem_codePoints plain)]

/-- What stands behind the last line break of a text. -/
def last (text : Bytes) : Bytes := text.rtakeWhile (· ≠ 10)

section

variable {α : Type} [DecidableEq α] {sep : α}

lemma rtakeWhile_of_not_mem {text : List α} (plain : sep ∉ text) : text.rtakeWhile (· ≠ sep) = text :=
  List.rtakeWhile_eq_self_iff.mpr fun _ mem => decide_eq_true (ne_of_mem_of_not_mem mem plain)

lemma rtakeWhile_append_cons (front back : List α) :
    (front ++ sep :: back).rtakeWhile (· ≠ sep) = back.rtakeWhile (· ≠ sep) := by
  induction back using List.reverseRecOn with
  | nil => exact List.rtakeWhile_concat_neg _ _ _ (by simp)
  | append_singleton back b ih =>
    rw [← List.cons_append, ← List.append_assoc, List.rtakeWhile_concat, List.rtakeWhile_concat, ih]

lemma rtakeWhile_append (front : List α) {back} (plain : sep ∉ back) :
    (front ++ back).rtakeWhile (· ≠ sep) = front.rtakeWhile (· ≠ sep) ++ back := by
  have all : ∀ b ∈ back.reverse, decide (b ≠ sep) = true := by
    intro b mem
    exact decide_eq_true (ne_of_mem_of_not_mem (List.mem_reverse.mp mem) plain)
  rw [List.rtakeWhile, List.reverse_append, List.takeWhile_append_of_pos all, List.reverse_append,
    List.reverse_reverse, List.rtakeWhile]

end

/-- The line of an offset, up to the offset, is what stands behind the last line break before it. -/
lemma length_last_take {text offset} (le : offset ≤ text.length) :
    (last (text.take offset)).length = offset - start text offset := by
  have split := congrArg List.length
    (List.takeWhile_append_dropWhile (p := (· ≠ 10)) (l := (text.take offset).reverse))
  rw [List.length_append, List.length_reverse, List.length_take, Nat.min_eq_left le] at split
  rw [last, List.rtakeWhile, List.length_reverse, start]
  omega

end Lines

end Sift
