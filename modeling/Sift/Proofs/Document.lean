import Mathlib.Data.List.Induction
import Mathlib.Tactic.Lemma
import Sift.Document

/-!
# Offsets and lines of a text

A document prepares the offsets of code points and of line breaks. Here they are read off the text
itself: the offset of a code point is the width of those before it (`Document.byteOffset_ofBytes`), a
line is counted by the line breaks before an offset (`Document.lineOf_ofBytes`), it begins behind the
last of them (`Document.lineStart_ofBytes`) and ends at the next one (`Document.lineEnd_ofBytes`).
-/

namespace Sift

namespace Utf8

/-- The bytes that runes take. -/
def width : List Rune → Nat
  | [] => 0
  | rune :: rest => rune.width + width rest

/-- The offset of a code point of a text; behind the last one it is the length of the text. -/
def offsetOf (text : Bytes) (place : Nat) : Nat := width ((runes text).take place)

/-- The offset of a place that may lie beside the text. Where each code point takes a byte, a place is its
own offset; elsewhere there is none before the text, and behind it is the end of the text. -/
def offsetOf? (text : Bytes) (place : Int) : Option Int :=
  if (runes text).length = text.length then some place
  else if 0 ≤ place then some (offsetOf text place.toNat) else none

lemma width_nil : width [] = 0 := rfl

lemma width_cons (rune : Rune) (rest : List Rune) : width (rune :: rest) = rune.width + width rest :=
  rfl

/-- Runes one after the other take what both parts take. -/
lemma width_append (front back : List Rune) : width (front ++ back) = width front + width back := by
  induction front with
  | nil => rw [List.nil_append, width_nil, Nat.zero_add]
  | cons rune rest ih => rw [List.cons_append, width_cons, width_cons, ih, Nat.add_assoc]

/-- Decoding a text whose first bytes belong to the sequence before is decoding the rest. -/
lemma runesAfter_eq (skip : Nat) (text : Bytes) : runesAfter skip text = runes (text.drop skip) := by
  induction text generalizing skip with
  | nil =>
    rw [List.drop_nil, runesAfter]
    rfl
  | cons b rest ih =>
    cases skip with
    | zero => rfl
    | succ skip => rw [runesAfter, ih, List.drop_succ_cons]

lemma runes_cons (b : UInt8) (rest : Bytes) :
    runes (b :: rest) = head b rest :: runes (rest.drop ((head b rest).width - 1)) := by
  rw [← runesAfter_eq]
  rfl

/-- A sequence that may be invalid takes its first byte, and no more than the whole sequence. -/
lemma width_ite_invalid {c : Prop} [Decidable c] {rune n} (pos : 1 ≤ rune.width) (le : rune.width ≤ n) :
    1 ≤ (if c then rune else invalidRune).width ∧ (if c then rune else invalidRune).width ≤ n := by
  split
  · exact ⟨pos, le⟩
  · exact ⟨Nat.le_refl 1, Nat.le_trans pos le⟩

/-- A rune takes its first byte, and no more than there are. -/
lemma head_width (b : UInt8) (rest : Bytes) :
    1 ≤ (head b rest).width ∧ (head b rest).width ≤ rest.length + 1 := by
  have invalid : 1 ≤ invalidRune.width ∧ invalidRune.width ≤ rest.length + 1 :=
    ⟨Nat.le_refl 1, Nat.le_add_left 1 _⟩
  unfold head
  split
  · exact invalid
  · split
    · split
      · exact width_ite_invalid (by simp) (by simp)
      · exact invalid
    · split
      · split
        · exact width_ite_invalid (by simp) (by simp)
        · exact invalid
      · split
        · split
          · exact width_ite_invalid (by simp) (by simp)
          · exact invalid
        · exact invalid

/-- Runes take all bytes but those that belong to the sequence before. -/
lemma width_runesAfter (skip : Nat) (text : Bytes) :
    width (runesAfter skip text) = text.length - skip := by
  induction text generalizing skip with
  | nil =>
    rw [runesAfter, List.length_nil, Nat.zero_sub]
    rfl
  | cons b rest ih =>
    cases skip with
    | succ skip => rw [runesAfter, ih, List.length_cons, Nat.add_sub_add_right]
    | zero =>
      obtain ⟨pos, le⟩ := head_width b rest
      rw [runesAfter, width_cons, ih, List.length_cons]
      omega

/-- The runes of a text take all its bytes. -/
lemma width_runes (text : Bytes) : width (runes text) = text.length := width_runesAfter 0 text

/-- No code point lies behind the end of the text. -/
lemma offsetOf_le (text : Bytes) (place : Nat) : offsetOf text place ≤ text.length := by
  have split := congrArg width (List.take_append_drop place (runes text))
  rw [width_append, width_runes] at split
  exact Nat.le.intro split

/-- Behind the last code point is the end of the text. -/
lemma offsetOf_of_length_le {text place} (le : (runes text).length ≤ place) :
    offsetOf text place = text.length := by
  rw [offsetOf, List.take_of_length_le le, width_runes]

lemma one_le_width_of_mem_runesAfter {skip text rune} (mem : rune ∈ runesAfter skip text) : 1 ≤ rune.width := by
  induction text generalizing skip with
  | nil => cases mem
  | cons b rest ih =>
    cases skip with
    | succ skip => exact ih mem
    | zero =>
      rcases List.mem_cons.mp mem with rfl | later
      · exact (head_width b rest).1
      · exact ih later

/-- Runes that take a byte each at least take as many bytes as there are runes at least. -/
lemma length_le_width {runes} (wide : ∀ rune ∈ runes, 1 ≤ rune.width) :
    runes.length ≤ width runes := by
  induction runes with
  | nil => exact Nat.le_refl 0
  | cons rune rest ih =>
    obtain ⟨first, others⟩ := List.forall_mem_cons.mp wide
    have := ih others
    rw [List.length_cons, width_cons]
    omega

lemma length_le_width_runes {text runes} (part : runes ⊆ Utf8.runes text) :
    runes.length ≤ width runes :=
  length_le_width fun _ mem => one_le_width_of_mem_runesAfter (part mem)

lemma offsetOf_mono (text : Bytes) {place later} (le : place ≤ later) :
    offsetOf text place ≤ offsetOf text later := by
  obtain ⟨more, rfl⟩ := Nat.exists_eq_add_of_le le
  rw [offsetOf, offsetOf, List.take_add, width_append]
  exact Nat.le_add_right _ _

/-- Code points begin one behind the other. -/
lemma offsetOf_lt_offsetOf {text place later} (lt : place < later) (le : later ≤ (runes text).length) :
    offsetOf text place < offsetOf text later := by
  obtain ⟨more, rfl⟩ := Nat.exists_eq_add_of_lt lt
  have between := @length_le_width_runes text (((runes text).drop place).take (more + 1))
    fun _ mem => List.mem_of_mem_drop (List.mem_of_mem_take mem)
  rw [List.length_take, List.length_drop] at between
  rw [offsetOf, offsetOf, Nat.add_assoc, List.take_add, width_append]
  omega

/-- Where a text has as many code points as bytes, a code point begins at its own number: neither those
before it nor those behind it can take more than a byte each. -/
lemma offsetOf_of_narrow {text} (narrow : (runes text).length = text.length) {place}
    (le : place ≤ (runes text).length) : offsetOf text place = place := by
  have front := @length_le_width_runes text _ (List.take_subset place (runes text))
  have back := @length_le_width_runes text _ (List.drop_subset place (runes text))
  have whole := congrArg width (List.take_append_drop place (runes text))
  rw [List.length_take] at front
  rw [List.length_drop] at back
  rw [width_append, width_runes] at whole
  unfold offsetOf
  omega

/-- A place in the text has the offset of its code point. -/
lemma offsetOf?_natCast {text place} (le : place ≤ (runes text).length) :
    offsetOf? text place = some (offsetOf text place : Int) := by
  unfold offsetOf?
  split
  · rename_i narrow
    rw [offsetOf_of_narrow narrow le]
  · rw [if_pos (Int.natCast_nonneg _), Int.toNat_natCast]

end Utf8

namespace Lines

/-- The line of an offset, counted from zero: the line breaks before the offset. -/
def number (text : Bytes) (offset : Nat) : Nat := (text.take offset).count 10

/-- Where the line of an offset begins: the length of what stands before it, up to and with the last
line break. -/
def start (text : Bytes) (offset : Nat) : Nat :=
  ((text.take offset).reverse.dropWhile (· ≠ 10)).length

/-- Where the line of an offset ends: at the first line break from the offset on, or with the text. -/
def stop (text : Bytes) (offset : Nat) : Nat :=
  text.length - ((text.drop offset).dropWhile (· ≠ 10)).length

end Lines

namespace Document

/-- The offsets that are prepared are the widths of the runes before. -/
lemma getElem?_offsetsFrom (offset : Nat) (runes : List Utf8.Rune) (place : Nat) :
    (offsetsFrom offset runes)[place]? =
      if place ≤ runes.length then some (offset + Utf8.width (runes.take place)) else none := by
  induction runes generalizing offset place with
  | nil => cases place <;> simp [offsetsFrom, Utf8.width_nil]
  | cons rune rest ih =>
    cases place with
    | zero => simp [offsetsFrom, Utf8.width_nil]
    | succ place =>
      rw [offsetsFrom, List.getElem?_cons_succ, ih, List.take_succ_cons, Utf8.width_cons]
      simp only [List.length_cons, Nat.add_le_add_iff_right, Nat.add_assoc]

/-- The table of a text has the offset of each code point, and the length of the text at the end. -/
lemma getElem?_table {text place} (le : place ≤ (Utf8.runes text).length) :
    (offsetsFrom 0 (Utf8.runes text))[place]? = some (Utf8.offsetOf text place) := by
  rw [getElem?_offsetsFrom, if_pos le, Nat.zero_add, Utf8.offsetOf]

/-- A document knows where each code point of its text begins, with a table or without one. -/
lemma byteOffset_ofBytes {text place} (le : place ≤ (Utf8.runes text).length) :
    (ofBytes text).byteOffset place = Utf8.offsetOf text place := by
  unfold byteOffset ofBytes
  dsimp only
  by_cases narrow : (Utf8.runes text).length = text.length
  · rw [if_pos narrow, Utf8.offsetOf_of_narrow narrow le]
  · rw [if_neg narrow]
    dsimp only
    rw [List.getElem?_toArray, getElem?_table le, Option.getD_some]

lemma size_codes (text : Bytes) : (ofBytes text).codes.size = (Utf8.runes text).length := by
  rw [ofBytes, List.size_toArray, List.length_map]

/-- A document knows the offsets of places in its text and beside it. -/
lemma placeOffset?_ofBytes (text : Bytes) (place : Int) :
    (ofBytes text).placeOffset? place = Utf8.offsetOf? text place := by
  unfold placeOffset? byteOffset ofBytes Utf8.offsetOf?
  dsimp only
  by_cases narrow : (Utf8.runes text).length = text.length
  · rw [if_pos narrow, if_pos narrow]
  · rw [if_neg narrow, if_neg narrow]
    dsimp only
    split
    · rcases Nat.le_total place.toNat (Utf8.runes text).length with le | le
      · rw [List.getElem?_toArray, getElem?_table le, Option.getD_some]
      · rw [List.getElem?_toArray, getElem?_offsetsFrom, List.take_of_length_le le, Utf8.width_runes,
          Utf8.offsetOf_of_length_le le]
        split
        · rw [Option.getD_some, Nat.zero_add]
        · rfl
    · rfl

/-- The line breaks of two texts that follow each other. -/
lemma newlinesFrom_append (offset : Nat) (front back : Bytes) :
    newlinesFrom offset (front ++ back) =
      newlinesFrom offset front ++ newlinesFrom (offset + front.length) back := by
  induction front generalizing offset with
  | nil => rfl
  | cons b rest ih =>
    rw [List.cons_append, newlinesFrom, newlinesFrom, ih, List.length_cons, Nat.add_right_comm,
      Nat.add_assoc]
    split
    · rfl
    · rfl

/-- Line breaks lie in the text. -/
lemma bounds_of_mem_newlinesFrom {offset newline text} (mem : newline ∈ newlinesFrom offset text) :
    offset ≤ newline ∧ newline < offset + text.length := by
  induction text generalizing offset with
  | nil => cases mem
  | cons b rest ih =>
    rw [List.length_cons]
    unfold newlinesFrom at mem
    split at mem
    · rcases List.mem_cons.mp mem with rfl | mem'
      · omega
      · have := ih mem'
        omega
    · have := ih mem
      omega

/-- There are as many line breaks as bytes that break lines. -/
lemma length_newlinesFrom (offset : Nat) (text : Bytes) :
    (newlinesFrom offset text).length = text.count 10 := by
  induction text generalizing offset with
  | nil => rfl
  | cons b rest ih =>
    rw [newlinesFrom, List.count_cons]
    split
    · rename_i eq
      rw [List.length_cons, ih, if_pos (beq_iff_eq.mpr eq)]
    · rename_i ne
      rw [ih, if_neg (mt beq_iff_eq.mp ne), Nat.add_zero]

/-- The line breaks of a text divide at an offset: those of the text before it lie before it, those of
the text behind it do not. -/
lemma newlinesFrom_split (text : Bytes) (offset : Nat) :
    newlinesFrom 0 text = newlinesFrom 0 (text.take offset) ++
        newlinesFrom (text.take offset).length (text.drop offset) ∧
      (∀ newline ∈ newlinesFrom 0 (text.take offset), newline < offset) ∧
      ∀ newline ∈ newlinesFrom (text.take offset).length (text.drop offset), offset ≤ newline := by
  refine ⟨?_, ?_, ?_⟩
  · have append := newlinesFrom_append 0 (text.take offset) (text.drop offset)
    rwa [List.take_append_drop, Nat.zero_add] at append
  · intro newline mem
    have bounds := bounds_of_mem_newlinesFrom mem
    rw [List.length_take] at bounds
    omega
  · intro newline mem
    have bounds := bounds_of_mem_newlinesFrom mem
    rw [List.length_take, List.length_drop] at bounds
    omega

/-- The line breaks before an offset are those of the text before it. -/
lemma newlinesBefore_ofBytes (text : Bytes) (offset : Nat) :
    (ofBytes text).newlinesBefore offset = newlinesFrom 0 (text.take offset) := by
  obtain ⟨split, before, behind⟩ := newlinesFrom_split text offset
  rw [newlinesBefore, ofBytes, split,
    List.takeWhile_append_of_pos fun newline mem => decide_eq_true (before newline mem)]
  cases h : newlinesFrom (text.take offset).length (text.drop offset) with
  | nil => exact List.append_nil _
  | cons newline rest =>
    have le := behind newline (h ▸ List.mem_cons_self)
    rw [List.takeWhile_cons_of_neg (by simpa using le), List.append_nil]

/-- A document counts lines by their breaks. -/
lemma lineOf_ofBytes (text : Bytes) (offset : Nat) :
    (ofBytes text).lineOf offset = Lines.number text offset := by
  rw [lineOf, newlinesBefore_ofBytes, length_newlinesFrom, Lines.number]

/-- What stands behind the last line break, found from the end of the text. -/
lemma getLast?_newlinesFrom (text : Bytes) :
    (match (newlinesFrom 0 text).getLast? with
      | some newline => newline + 1
      | none => 0) = (text.reverse.dropWhile (· ≠ 10)).length := by
  induction text using List.reverseRecOn with
  | nil => rfl
  | append_singleton front b ih =>
    rw [newlinesFrom_append, List.reverse_append, List.reverse_singleton, List.singleton_append,
      List.dropWhile_cons]
    by_cases eq : b = 10
    · subst eq
      simp [newlinesFrom]
    · simp [newlinesFrom, eq, ih]

/-- A document knows where lines begin. -/
lemma lineStart_ofBytes (text : Bytes) (offset : Nat) :
    (ofBytes text).lineStart offset = Lines.start text offset := by
  rw [lineStart, newlinesBefore_ofBytes]
  exact getLast?_newlinesFrom (text.take offset)

/-- The first line break of a text stands where the bytes that break no line end. -/
lemma head?_newlinesFrom (offset : Nat) (text : Bytes) :
    (newlinesFrom offset text).head?.getD (offset + text.length) =
      offset + text.length - (text.dropWhile (· ≠ 10)).length := by
  induction text generalizing offset with
  | nil => rfl
  | cons b rest ih =>
    rw [newlinesFrom, List.dropWhile_cons, List.length_cons]
    by_cases eq : b = 10
    · subst eq
      simp
    · have := ih (offset + 1)
      simp only [eq, if_false, ne_eq, not_false_eq_true, decide_true, if_true]
      rw [show offset + (rest.length + 1) = offset + 1 + rest.length by omega]
      exact this

/-- A document knows where lines end. -/
lemma lineEnd_ofBytes (text : Bytes) (offset : Nat) :
    (ofBytes text).lineEnd offset = Lines.stop text offset := by
  obtain ⟨split, before, behind⟩ := newlinesFrom_split text offset
  have size : (text.take offset).length + (text.drop offset).length = text.length := by
    rw [← List.length_append, List.take_append_drop]
  have none : (newlinesFrom 0 (text.take offset)).find? (offset ≤ ·) = none := by
    rw [List.find?_eq_none]
    intro newline mem
    simpa using before newline mem
  have first : (newlinesFrom (text.take offset).length (text.drop offset)).find? (offset ≤ ·) =
      (newlinesFrom (text.take offset).length (text.drop offset)).head? := by
    cases h : newlinesFrom (text.take offset).length (text.drop offset) with
    | nil => rfl
    | cons newline rest =>
      have le := behind newline (h ▸ List.mem_cons_self)
      exact List.find?_cons_of_pos (by simpa using le)
  have stop := head?_newlinesFrom (text.take offset).length (text.drop offset)
  rw [size] at stop
  rw [lineEnd, ofBytes, split, List.find?_append, none, Option.none_or, first]
  exact stop

end Document

end Sift
