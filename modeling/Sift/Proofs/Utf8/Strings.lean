import Sift.Proofs.Document
import Sift.Proofs.Utf8

/-!
# Places in the bytes of a string

The bytes of a string can be taken apart only between characters where the bytes of another string stand in
them (`exists_of_ofString_eq_append`), and the byte behind some of its characters is told by their size
(`offsetOf_append`).
-/

namespace Sift.Utf8

lemma runes_ofString (s : String) :
    runes (ofString s) = s.toList.map fun c => ⟨c.toNat, (String.utf8EncodeChar c).length, true⟩ := by
  rw [ofString_eq]
  induction s.toList with
  | nil => rfl
  | cons c cs ih => rw [List.flatMap_cons, runes_encode_append, ih, List.map_cons]

lemma codes_ofString (s : String) : codePoints (ofString s) = s.toList.map Char.toNat := by
  rw [codePoints, runes_ofString, List.map_map]
  rfl

lemma toValidString_ofString (s : String) : toValidString (ofString s) = s := by
  refine ofString_inj.mp (ofString_toValidString ?_)
  rw [isValid, runes_ofString, List.all_map]
  exact List.all_eq_true.mpr fun _ _ => rfl

lemma utf8ByteSize_pos {s} (ne : s ≠ "") : 0 < s.utf8ByteSize :=
  Nat.pos_of_ne_zero (mt String.utf8ByteSize_eq_zero_iff.mp ne)

/-! ## Taking the bytes apart -/

/-- Characters are told by the bytes that they begin with. -/
lemma exists_of_flatMap_eq {cs cs' : List Char} {after}
    (eq : cs.flatMap String.utf8EncodeChar = cs'.flatMap String.utf8EncodeChar ++ after) :
    ∃ rest, cs = cs' ++ rest ∧ after = rest.flatMap String.utf8EncodeChar := by
  induction cs' generalizing cs with
  | nil => exact ⟨cs, rfl, eq.symm⟩
  | cons c' cs' ih =>
    rw [List.flatMap_cons, List.append_assoc] at eq
    cases cs with
    | nil => exact absurd (List.append_eq_nil_iff.mp eq.symm).1 (utf8EncodeChar_ne_nil c')
    | cons c cs =>
      rw [List.flatMap_cons] at eq
      have runes' := congrArg runes eq
      rw [runes_encode_append, runes_encode_append, List.cons.injEq, Rune.mk.injEq] at runes'
      obtain rfl := Char.toNat_inj.mp runes'.1.1
      obtain ⟨rest, rfl, rest'⟩ := ih (List.append_cancel_left eq)
      exact ⟨rest, rfl, rest'⟩

/-- Where the bytes of some characters stand among those of others, they begin between two of these. -/
lemma exists_of_flatMap_eq_append {cs : List Char} {c before after}
    (eq : cs.flatMap String.utf8EncodeChar = before ++ (String.utf8EncodeChar c ++ after)) :
    ∃ front back, cs = front ++ back ∧ before = front.flatMap String.utf8EncodeChar := by
  induction cs generalizing before with
  | nil =>
    rw [List.flatMap_nil, eq_comm, List.append_eq_nil_iff, List.append_eq_nil_iff] at eq
    exact absurd eq.2.1 (utf8EncodeChar_ne_nil c)
  | cons d cs ih =>
    rw [List.flatMap_cons, List.append_eq_append_iff] at eq
    rcases eq with ⟨before', rfl, eq⟩ | ⟨part, encoded, eq⟩
    · obtain ⟨front, back, rfl, rfl⟩ := ih eq
      exact ⟨d :: front, back, rfl, rfl⟩
    · -- a part of `d` stands where `c` begins: all of it, because a tail byte begins no character
      cases before with
      | nil => exact ⟨[], d :: cs, rfl, rfl⟩
      | cons b before =>
        cases part with
        | nil => exact ⟨[d], cs, rfl, by rw [List.flatMap_singleton, encoded, List.append_nil]⟩
        | cons b' part =>
          have tails := (encoded ▸ sequence_encode d).tails.2
          have tail := tails b' (by simp)
          obtain ⟨b'', bytes, encoded'⟩ := List.exists_cons_of_ne_nil (utf8EncodeChar_ne_nil c)
          have first := (encoded' ▸ sequence_encode c).tails.1
          rw [encoded', List.cons_append, List.cons_append, List.cons.injEq] at eq
          rw [eq.1, tail] at first
          cases first

/-- Where the bytes of a string stand among those of a text, the text is parted there between characters. -/
lemma exists_of_ofString_eq_append {text s} (ne : s ≠ "") {before after}
    (eq : ofString text = before ++ ofString s ++ after) :
    ∃ front back, text = front ++ s ++ back ∧ before = ofString front ∧ after = ofString back := by
  rw [ofString_eq, ofString_eq, List.append_assoc] at eq
  obtain ⟨c, cs, chars⟩ := List.exists_cons_of_ne_nil (mt String.toList_eq_nil_iff.mp ne)
  have eq' := eq
  rw [chars, List.flatMap_cons, List.append_assoc] at eq'
  obtain ⟨front, rest, parted, rfl⟩ := exists_of_flatMap_eq_append eq'
  rw [parted, List.flatMap_append] at eq
  obtain ⟨back, rfl, rfl⟩ := exists_of_flatMap_eq (List.append_cancel_left eq)
  refine ⟨.ofList front, .ofList back, ?_, ?_, ?_⟩
  · refine String.toList_inj.mp ?_
    rw [parted, String.toList_append, String.toList_append, String.toList_ofList, String.toList_ofList,
      List.append_assoc]
  · rw [ofString_eq, String.toList_ofList]
  · rw [ofString_eq, String.toList_ofList]

/-! ## Offsets -/

/-- The offset behind the characters of a string is the size of the string. -/
lemma offsetOf_append (s t : String) : offsetOf (ofString (s ++ t)) s.toList.length = s.utf8ByteSize := by
  have split : runes (ofString (s ++ t)) = runes (ofString s) ++ runes (ofString t) := by
    rw [runes_ofString, runes_ofString, runes_ofString, String.toList_append, List.map_append]
  have length : s.toList.length = (runes (ofString s)).length := by rw [runes_ofString, List.length_map]
  rw [offsetOf, split, length, List.take_left, width_runes, utf8ByteSize_eq]

end Sift.Utf8
