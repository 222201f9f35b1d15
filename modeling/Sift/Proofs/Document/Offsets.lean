import Sift.Proofs.Utf8

/-!
# Code points and the bytes they stand for

Decoding asks for no byte behind the sequence it finds, and a byte that begins no sequence begins none
either where the text ends earlier (`Utf8.head_take`). So a text that is taken apart between code points
is decoded part by part (`Utf8.runes_between`), whatever bytes it has. The offsets of a document are such
places, and they are the same with the table and without it (`Document.byteOffset_exact`).
-/

namespace Sift

namespace Utf8

/-- What is read at the front of a text does not depend on what stands behind it. -/
lemma head_take {b rest count} (le : (head b rest).width ≤ count + 1) :
    head b (rest.take count) = head b rest := by
  rcases head_cases b rest with invalid | ⟨tail, later, code, rfl, sequence⟩
  · rw [invalid, head_eq_invalidRune_of_le (List.take_prefix count rest) invalid]
  · rw [sequence.head_append] at le ⊢
    have fits : tail.length ≤ count := Nat.le_of_add_le_add_right le
    rw [List.take_append, List.take_of_length_le fits]
    exact sequence.head_append _

lemma offsetOf_zero (text : Bytes) : offsetOf text 0 = 0 := by
  rw [offsetOf, List.take_zero, width_nil]

/-- A code point that is not the first begins as far behind the first one as it does in the rest. -/
lemma offsetOf_cons_succ (b : UInt8) (rest : Bytes) (place : Nat) :
    offsetOf (b :: rest) (place + 1) =
      (head b rest).width - 1 + offsetOf (rest.drop ((head b rest).width - 1)) place + 1 := by
  have pos := (head_width b rest).1
  rw [offsetOf, runes_cons, List.take_succ_cons, width_cons, offsetOf]
  omega

/-- From a code point on, a text is decoded as it is as a whole. -/
lemma runes_drop_offsetOf (text : Bytes) (place : Nat) :
    runes (text.drop (offsetOf text place)) = (runes text).drop place := by
  induction place generalizing text with
  | zero => rw [offsetOf_zero, List.drop_zero, List.drop_zero]
  | succ place ih =>
    cases text with
    | nil => rw [List.drop_nil, runes, runesAfter, List.drop_nil]
    | cons b rest =>
      rw [offsetOf_cons_succ, List.drop_succ_cons, ← List.drop_drop, ih, runes_cons, List.drop_succ_cons]

/-- Up to a code point, a text is decoded as it is as a whole. -/
lemma runes_take_offsetOf (text : Bytes) (place : Nat) :
    runes (text.take (offsetOf text place)) = (runes text).take place := by
  induction place generalizing text with
  | zero =>
    rw [offsetOf_zero, List.take_zero, List.take_zero]
    rfl
  | succ place ih =>
    cases text with
    | nil => rw [List.take_nil, runes, runesAfter, List.take_nil]
    | cons b rest =>
      have whole : head b (rest.take ((head b rest).width - 1 +
          offsetOf (rest.drop ((head b rest).width - 1)) place)) = head b rest :=
        head_take (by omega)
      rw [offsetOf_cons_succ, List.take_succ_cons, runes_cons, whole, List.drop_take, Nat.add_sub_cancel_left,
        ih, runes_cons, List.take_succ_cons]

/-- Offsets in a rest of the text are counted from where the rest begins. -/
lemma offsetOf_drop_offsetOf (text : Bytes) (place more : Nat) :
    offsetOf (text.drop (offsetOf text place)) more =
      offsetOf text (place + more) - offsetOf text place := by
  rw [offsetOf, runes_drop_offsetOf, offsetOf, offsetOf, List.take_add, width_append, Nat.add_sub_cancel_left]

/-- What stands between two code points is decoded as the code points between them. -/
lemma runes_between {text place later} (le : place ≤ later) :
    runes ((text.drop (offsetOf text place)).take (offsetOf text later - offsetOf text place)) =
      ((runes text).drop place).take (later - place) := by
  obtain ⟨more, rfl⟩ := Nat.exists_eq_add_of_le le
  rw [← offsetOf_drop_offsetOf, runes_take_offsetOf, runes_drop_offsetOf, Nat.add_sub_cancel_left]

/-- A text can be taken apart between any two of its runes. -/
lemma exists_of_runes_eq_append {text read later} (eq : runes text = read ++ later) :
    ∃ front back, text = front ++ back ∧ runes front = read ∧ runes back = later := by
  refine ⟨_, _, (List.take_append_drop (offsetOf text read.length) text).symm, ?_, ?_⟩
  · rw [runes_take_offsetOf, eq, List.take_left]
  · rw [runes_drop_offsetOf, eq, List.drop_left]

end Utf8

namespace Document

lemma codes_ofBytes (text : Bytes) : (ofBytes text).codes.toList = Utf8.codePoints text := rfl

/-- What stands between two offsets is decoded as the code points between them. -/
lemma codePoints_slice {text place later} (le : place ≤ later) (inside : later ≤ (Utf8.runes text).length) :
    Utf8.codePoints ((ofBytes text).slice ((ofBytes text).byteOffset place)
        ((ofBytes text).byteOffset later)) =
      ((ofBytes text).codes.extract place later).toList := by
  have bytes : (ofBytes text).bytes = text := rfl
  rw [byteOffset_ofBytes inside, byteOffset_ofBytes (Nat.le_trans le inside), slice, bytes, Utf8.codePoints,
    Utf8.runes_between le, Array.toList_extract, codes_ofBytes, List.extract_eq_take_drop, Utf8.codePoints,
    List.map_take, List.map_drop]

/-- The offsets of code points ascend strictly from the front of the text to its end, and the bytes
between two of them are decoded as the code points between them. The table is left out just where there
are as many code points as bytes, and the offsets are those of the table there too. -/
theorem byteOffset_exact (text : Bytes) :
    (ofBytes text).byteOffset 0 = 0 ∧
    (ofBytes text).byteOffset (ofBytes text).codes.size = text.length ∧
    (∀ place later, place < later → later ≤ (ofBytes text).codes.size →
      (ofBytes text).byteOffset place < (ofBytes text).byteOffset later) ∧
    (∀ place later, place ≤ later → later ≤ (ofBytes text).codes.size →
      Utf8.codePoints ((ofBytes text).slice ((ofBytes text).byteOffset place)
          ((ofBytes text).byteOffset later)) =
        ((ofBytes text).codes.extract place later).toList) ∧
    ((ofBytes text).offsets = none ↔ (ofBytes text).codes.size = text.length) ∧
    ∀ place ≤ (ofBytes text).codes.size,
      (offsetsFrom 0 (Utf8.runes text))[place]? = some ((ofBytes text).byteOffset place) := by
  rw [size_codes]
  refine ⟨?_, ?_, ?_, fun _ _ => codePoints_slice, ?_, ?_⟩
  · rw [byteOffset_ofBytes (Nat.zero_le _), Utf8.offsetOf_zero]
  · rw [byteOffset_ofBytes (Nat.le_refl _), Utf8.offsetOf_of_length_le (Nat.le_refl _)]
  · intro place later lt le
    rw [byteOffset_ofBytes le, byteOffset_ofBytes (Nat.le_trans (Nat.le_of_lt lt) le)]
    exact Utf8.offsetOf_lt_offsetOf lt le
  · rw [ofBytes, ite_eq_left_iff]
    simp
  · intro place le
    rw [byteOffset_ofBytes le, getElem?_table le]

/-- Bytes that begin no character stand for one code point each: with a character of two bytes beside them
there is a table, and with no such character there is none. -/
theorem byteOffset_exact_of_invalid :
    let mixed : Bytes := [0xC3, 0xA9, 0xFF, 0x41]
    let broken : Bytes := [0xE2, 0x82, 0x41]
    (ofBytes mixed).byteOffset 1 < (ofBytes mixed).byteOffset 2 ∧ (ofBytes mixed).offsets ≠ none ∧
      Utf8.codePoints ((ofBytes mixed).slice ((ofBytes mixed).byteOffset 1) ((ofBytes mixed).byteOffset 3)) =
        [0xFFFD, 0x41] ∧
      (ofBytes broken).offsets = none ∧
      (offsetsFrom 0 (Utf8.runes broken))[2]? = some ((ofBytes broken).byteOffset 2) := by
  intro mixed broken
  obtain ⟨_, _, ascends, decodes, table, _⟩ := byteOffset_exact mixed
  obtain ⟨_, _, _, _, narrow, same⟩ := byteOffset_exact broken
  exact ⟨ascends 1 2 (by decide) (by decide), fun none => absurd (table.mp none) (by decide),
    decodes 1 3 (by decide) (by decide), narrow.mpr (by decide), same 2 (by decide)⟩

end Document

end Sift
