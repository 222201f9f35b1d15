import Mathlib.Data.List.Basic
import Sift.Proofs.Document

/-!
# Encoding and decoding

The sequences that decoding accepts (`Utf8.Sequence`) are the encodings of the characters
(`Utf8.sequence_iff`). Bytes that do not begin with a tail byte are decoded by themselves, whatever stands
before them (`Utf8.runes_append`). The code points of an encoded string are its characters
(`Utf8.codePoints_ofString`), and text that is made valid keeps its characters, with one replacement
character for each run of bytes that belong to none (`Utf8.repaired_toValidString`). It is made valid line
by line (`Utf8.toList_toValidString_append_break`), and valid text stays as it is
(`Utf8.ofString_toValidString`). Strings are ordered as their bytes are (`Utf8.ofString_lt_ofString`).
-/

namespace Sift.Utf8

/-- The well-formed byte sequences, each with its code point. The second byte is bound further where the
sequence would else be overlong, or stand for a surrogate or for a code point above the last one. -/
inductive Sequence : Bytes → Nat → Prop
  | one {b : UInt8} : b.toNat < 0x80 → Sequence [b] b.toNat
  | two {b b1 : UInt8} : 0xC2 ≤ b.toNat → b.toNat ≤ 0xDF → isTail b1 = true →
    Sequence [b, b1] ((b.toNat - 0xC0) * 64 + tailBits b1)
  | three {b b1 b2 : UInt8} : 0xE0 ≤ b.toNat → b.toNat ≤ 0xEF → isTail b1 = true → isTail b2 = true →
    (b.toNat = 0xE0 → 0xA0 ≤ b1.toNat) → (b.toNat = 0xED → b1.toNat ≤ 0x9F) →
    Sequence [b, b1, b2] ((b.toNat - 0xE0) * 4096 + tailBits b1 * 64 + tailBits b2)
  | four {b b1 b2 b3 : UInt8} : 0xF0 ≤ b.toNat → b.toNat ≤ 0xF4 → isTail b1 = true →
    isTail b2 = true → isTail b3 = true →
    (b.toNat = 0xF0 → 0x90 ≤ b1.toNat) → (b.toNat = 0xF4 → b1.toNat ≤ 0x8F) →
    Sequence [b, b1, b2, b3]
      ((b.toNat - 0xF0) * 262144 + tailBits b1 * 4096 + tailBits b2 * 64 + tailBits b3)

/-- The bytes that continue a sequence. -/
lemma isTail_iff {b} : isTail b = true ↔ 0x80 ≤ b.toNat ∧ b.toNat ≤ 0xBF := by
  rw [isTail, Bool.and_eq_true, decide_eq_true_eq, decide_eq_true_eq, UInt8.le_iff_toNat_le,
    UInt8.le_iff_toNat_le]
  exact Iff.rfl

/-- The bounds of a second byte, as decoding tests them. -/
lemma secondByte_iff {b b1 least low most high : UInt8} (le : 0x80 ≤ low.toNat)
    (le' : high.toNat ≤ 0xBF) :
    ((if b == least then low else 0x80) ≤ b1 ∧ b1 ≤ (if b == most then high else 0xBF)) ↔
      isTail b1 = true ∧ (b.toNat = least.toNat → low.toNat ≤ b1.toNat) ∧
        (b.toNat = most.toNat → b1.toNat ≤ high.toNat) := by
  simp only [isTail_iff, beq_iff_eq, ← UInt8.toNat_inj, UInt8.le_iff_toNat_le, apply_ite UInt8.toNat,
    UInt8.reduceToNat]
  split <;> split <;> omega

/-- A sequence is read whatever follows. -/
lemma Sequence.head_append {b tail code} (rest : Bytes) (sequence : Sequence (b :: tail) code) :
    head b (tail ++ rest) = ⟨code, tail.length + 1, true⟩ := by
  cases sequence with
  | one lt =>
    have lt' : b < 0x80 := UInt8.lt_iff_toNat_lt.mpr lt
    simp only [head, lt', if_true, List.length_nil]
  | two le ge tail1 =>
    simp only [head, UInt8.lt_iff_toNat_lt, UInt8.le_iff_toNat_le, UInt8.reduceToNat,
      Bool.and_eq_true, decide_eq_true_eq, List.cons_append]
    rw [if_neg (by omega), if_pos ⟨le, ge⟩, if_pos tail1]
    rfl
  | three le ge tail1 tail2 low high =>
    have second := (@secondByte_iff b _ 0xE0 0xA0 0xED 0x9F (by decide) (by decide)).mpr
      ⟨tail1, low, high⟩
    simp only [head, Bool.and_eq_true, decide_eq_true_eq, List.cons_append, second, tail2, and_self,
      if_true]
    simp only [UInt8.lt_iff_toNat_lt, UInt8.le_iff_toNat_le, UInt8.reduceToNat]
    rw [if_neg (by omega), if_neg (by omega), if_pos ⟨le, ge⟩]
    rfl
  | four le ge tail1 tail2 tail3 low high =>
    have second := (@secondByte_iff b _ 0xF0 0x90 0xF4 0x8F (by decide) (by decide)).mpr
      ⟨tail1, low, high⟩
    simp only [head, Bool.and_eq_true, decide_eq_true_eq, List.cons_append, second, tail2, tail3,
      and_self, if_true]
    simp only [UInt8.lt_iff_toNat_lt, UInt8.le_iff_toNat_le, UInt8.reduceToNat]
    rw [if_neg (by omega), if_neg (by omega), if_neg (by omega), if_pos ⟨le, ge⟩]
    rfl

/-- What begins a text is a sequence, or is invalid. -/
lemma head_cases (b : UInt8) (rest : Bytes) :
    head b rest = invalidRune ∨
      ∃ tail rest' code, rest = tail ++ rest' ∧ Sequence (b :: tail) code := by
  unfold head
  simp only [Bool.and_eq_true, decide_eq_true_eq, secondByte_iff (by decide : 0x80 ≤ (0xA0 : UInt8).toNat)
    (by decide : (0x9F : UInt8).toNat ≤ 0xBF), secondByte_iff (by decide : 0x80 ≤ (0x90 : UInt8).toNat)
    (by decide : (0x8F : UInt8).toNat ≤ 0xBF)]
  simp only [UInt8.lt_iff_toNat_lt, UInt8.le_iff_toNat_le, UInt8.reduceToNat]
  split
  case isTrue lt => exact .inr ⟨[], rest, _, rfl, .one lt⟩
  split
  case isTrue bounds =>
    match rest with
    | [] => exact .inl rfl
    | b1 :: rest =>
      dsimp only
      split
      case isTrue tail1 => exact .inr ⟨[b1], rest, _, rfl, .two bounds.1 bounds.2 tail1⟩
      case isFalse => exact .inl rfl
  split
  case isTrue bounds =>
    match rest with
    | [] => exact .inl rfl
    | [b1] => exact .inl rfl
    | b1 :: b2 :: rest =>
      dsimp only
      split
      case isTrue ok =>
        obtain ⟨⟨tail1, low, high⟩, tail2⟩ := ok
        exact .inr ⟨[b1, b2], rest, _, rfl, .three bounds.1 bounds.2 tail1 tail2 low high⟩
      case isFalse => exact .inl rfl
  split
  case isTrue bounds =>
    match rest with
    | [] => exact .inl rfl
    | [b1] => exact .inl rfl
    | [b1, b2] => exact .inl rfl
    | b1 :: b2 :: b3 :: rest =>
      dsimp only
      split
      case isTrue ok =>
        obtain ⟨⟨⟨tail1, low, high⟩, tail2⟩, tail3⟩ := ok
        exact .inr ⟨[b1, b2, b3], rest, _, rfl, .four bounds.1 bounds.2 tail1 tail2 tail3 low high⟩
      case isFalse => exact .inl rfl
  exact .inl rfl

/-- The encoding of a character is a sequence for its code point. -/
lemma sequence_encode (c : Char) : Sequence (String.utf8EncodeChar c) c.toNat := by
  have valid := c.valid
  rw [UInt32.isValidChar, Nat.isValidChar] at valid
  have byte : ∀ {n : Nat}, n < 256 → (UInt8.ofNat n).toNat = n := fun lt => by
    rw [UInt8.toNat_ofNat', Nat.mod_eq_of_lt lt]
  have tail : ∀ n : Nat, isTail (UInt8.ofNat (n % 64 + 128)) = true := fun n => by
    rw [isTail_iff, byte (by omega)]
    omega
  have bits : ∀ n : Nat, tailBits (UInt8.ofNat (n % 64 + 128)) = n % 64 := fun n => by
    have value := byte (n := n % 64 + 128) (by omega)
    unfold tailBits
    omega
  rw [Char.toNat]
  generalize code : c.val.toNat = v at valid
  simp only [String.utf8EncodeChar, code]
  split
  case isTrue le =>
    have first : (UInt8.ofNat v).toNat = v := byte (by omega)
    have one := Sequence.one (b := .ofNat v) (by omega)
    rwa [first] at one
  split
  case isTrue le =>
    have first : (UInt8.ofNat (v / 64 % 32 + 192)).toNat = v / 64 + 192 := by
      rw [byte (by omega)]
      omega
    have two := Sequence.two (by omega) (by omega) (tail v) (b := .ofNat (v / 64 % 32 + 192))
    rw [first, bits] at two
    convert two
    omega
  split
  case isTrue le =>
    have first : (UInt8.ofNat (v / 4096 % 16 + 224)).toNat = v / 4096 + 224 := by
      rw [byte (by omega)]
      omega
    have second : (UInt8.ofNat (v / 64 % 64 + 128)).toNat = v / 64 % 64 + 128 := byte (by omega)
    have three := Sequence.three (by omega) (by omega) (tail (v / 64)) (tail v) (by omega) (by omega)
      (b := .ofNat (v / 4096 % 16 + 224))
    rw [first, bits, bits] at three
    convert three
    omega
  case isFalse gt =>
    have first : (UInt8.ofNat (v / 262144 % 8 + 240)).toNat = v / 262144 + 240 := by
      rw [byte (by omega)]
      omega
    have second : (UInt8.ofNat (v / 4096 % 64 + 128)).toNat = v / 4096 % 64 + 128 := byte (by omega)
    have four := Sequence.four (by omega) (by omega) (tail (v / 4096)) (tail (v / 64)) (tail v)
      (by omega) (by omega) (b := .ofNat (v / 262144 % 8 + 240))
    rw [first, bits, bits, bits] at four
    convert four
    omega

/-- A sequence stands for a character. -/
lemma Sequence.isValidChar {bytes code} (sequence : Sequence bytes code) :
    code.isValidChar := by
  rw [Nat.isValidChar]
  cases sequence with
  | one lt => omega
  | two le ge tail1 =>
    rw [isTail_iff] at tail1
    unfold tailBits
    omega
  | three le ge tail1 tail2 low high =>
    rw [isTail_iff] at tail1 tail2
    unfold tailBits
    omega
  | four le ge tail1 tail2 tail3 low high =>
    rw [isTail_iff] at tail1 tail2 tail3
    unfold tailBits
    omega

/-- A sequence is the encoding of the character of its code point. -/
lemma Sequence.eq_encode {bytes code} (sequence : Sequence bytes code) :
    bytes = String.utf8EncodeChar (Char.ofNat code) ∧ (Char.ofNat code).toNat = code := by
  have toNat : (Char.ofNat code).toNat = code := by
    rw [Char.ofNat, dif_pos sequence.isValidChar]
    rfl
  refine ⟨?_, toNat⟩
  have byte : ∀ {n : Nat} {b : UInt8}, n = b.toNat → b = UInt8.ofNat n := fun eq => by
    rw [eq, UInt8.ofNat_toNat]
  rw [Char.toNat] at toNat
  simp only [String.utf8EncodeChar, toNat]
  cases sequence with
  | one lt => rw [if_pos (by omega), ← byte rfl]
  | two le ge tail1 =>
    rw [isTail_iff] at tail1
    unfold tailBits
    rw [if_neg (by omega), if_pos (by omega)]
    simp only [List.cons.injEq, and_true]
    exact ⟨byte (by omega), byte (by omega)⟩
  | three le ge tail1 tail2 low high =>
    rw [isTail_iff] at tail1 tail2
    unfold tailBits
    rw [if_neg (by omega), if_neg (by omega), if_pos (by omega)]
    simp only [List.cons.injEq, and_true]
    exact ⟨byte (by omega), byte (by omega), byte (by omega)⟩
  | four le ge tail1 tail2 tail3 low high =>
    rw [isTail_iff] at tail1 tail2 tail3
    unfold tailBits
    rw [if_neg (by omega), if_neg (by omega), if_neg (by omega)]
    simp only [List.cons.injEq, and_true]
    exact ⟨byte (by omega), byte (by omega), byte (by omega), byte (by omega)⟩

/-- The sequences are the encodings of characters. -/
lemma sequence_iff {bytes code} :
    Sequence bytes code ↔ ∃ c : Char, bytes = String.utf8EncodeChar c ∧ code = c.toNat := by
  constructor
  · intro sequence
    exact ⟨Char.ofNat code, sequence.eq_encode.1, sequence.eq_encode.2.symm⟩
  · rintro ⟨c, rfl, rfl⟩
    exact sequence_encode c

lemma utf8EncodeChar_ne_nil (c : Char) : String.utf8EncodeChar c ≠ [] := by
  intro nil
  have sequence := sequence_encode c
  rw [nil] at sequence
  cases sequence

/-- The encoding of a character is read as that character. -/
lemma runes_encode_append (c : Char) (rest : Bytes) :
    runes (String.utf8EncodeChar c ++ rest) =
      ⟨c.toNat, (String.utf8EncodeChar c).length, true⟩ :: runes rest := by
  have sequence := sequence_encode c
  obtain ⟨b, tail, eq⟩ := List.exists_cons_of_ne_nil (utf8EncodeChar_ne_nil c)
  rw [eq] at sequence ⊢
  rw [List.cons_append, runes_cons, sequence.head_append, Nat.add_sub_cancel, List.drop_left,
    List.length_cons]

lemma toList_loop (bytes : ByteArray) (position : Nat) (read : List UInt8) :
    ByteArray.toList.loop bytes position read =
      read.reverse ++ bytes.data.toList.drop position := by
  fun_induction ByteArray.toList.loop bytes position read with
  | case1 position read lt ih =>
    have lt' : position < bytes.data.toList.length := by simpa using lt
    rw [ih, List.drop_eq_getElem_cons lt']
    simp [ByteArray.get!, lt]
  | case2 position read ge =>
    rw [List.drop_eq_nil_of_le (by simpa using Nat.le_of_not_lt ge), List.append_nil]

/-- A string's bytes encode its characters one by one. -/
lemma toList_toUTF8 (s : String) : s.toUTF8.data.toList = s.toList.flatMap String.utf8EncodeChar := by
  conv_lhs => rw [← String.ofList_toList (s := s)]
  exact List.toList_data_toByteArray

lemma ofString_eq (s : String) : ofString s = s.toList.flatMap String.utf8EncodeChar := by
  rw [ofString, ByteArray.toList, toList_loop, List.reverse_nil, List.nil_append, List.drop_zero, toList_toUTF8]

lemma ofString_ofList (cs : List Char) : ofString (.ofList cs) = cs.flatMap String.utf8EncodeChar := by
  rw [ofString_eq, String.toList_ofList]

/-- The code points of an encoded string are its characters. -/
lemma codePoints_ofString (s : String) : (codePoints (ofString s)).map Char.ofNat = s.toList := by
  rw [ofString_eq]
  induction s.toList with
  | nil => rfl
  | cons c cs ih =>
    rw [codePoints] at ih ⊢
    rw [List.flatMap_cons, runes_encode_append, List.map_cons, List.map_cons, Char.ofNat_toNat, ih]

/-- What was encoded is decoded. -/
lemma toString_ofString (s : String) : toString (ofString s) = s := by
  rw [toString, codePoints_ofString, String.ofList_toList]

/-- Strings are encoded one after the other. -/
lemma ofString_append (s t : String) : ofString (s ++ t) = ofString s ++ ofString t := by
  rw [ofString_eq, ofString_eq, ofString_eq, String.toList_append, List.flatMap_append]

/-- Different strings have different bytes. -/
lemma ofString_inj {s t} : ofString s = ofString t ↔ s = t := by
  refine ⟨fun eq => ?_, fun eq => by rw [eq]⟩
  rw [← toString_ofString s, eq, toString_ofString]

/-- A byte of an encoding stands for its character alone, or has its highest bit set. -/
lemma Sequence.byte_cases {bytes code} (sequence : Sequence bytes code) {b} (mem : b ∈ bytes) :
    b.toNat = code ∨ 0x80 ≤ b.toNat := by
  have tail : ∀ {b : UInt8}, isTail b = true → 0x80 ≤ b.toNat := fun isTail => (isTail_iff.mp isTail).1
  cases sequence with
  | one lt => exact .inl (congrArg UInt8.toNat (List.mem_singleton.mp mem))
  | two le ge tail1 =>
    right
    rcases List.mem_pair.mp mem with rfl | rfl
    · omega
    · exact tail tail1
  | three le ge tail1 tail2 =>
    right
    simp only [List.mem_cons, List.not_mem_nil, or_false] at mem
    rcases mem with rfl | rfl | rfl
    · omega
    · exact tail tail1
    · exact tail tail2
  | four le ge tail1 tail2 tail3 =>
    right
    simp only [List.mem_cons, List.not_mem_nil, or_false] at mem
    rcases mem with rfl | rfl | rfl | rfl
    · omega
    · exact tail tail1
    · exact tail tail2
    · exact tail tail3

/-- Only the first byte of a character is not a tail byte. -/
lemma Sequence.tails {b tail code} (sequence : Sequence (b :: tail) code) :
    isTail b = false ∧ ∀ b' ∈ tail, isTail b' = true := by
  have first : ¬ (0x80 ≤ b.toNat ∧ b.toNat ≤ 0xBF) → isTail b = false := fun outside =>
    Bool.eq_false_iff.mpr (mt isTail_iff.mp outside)
  cases sequence with
  | one => exact ⟨first (by omega), by simp⟩
  | two _ _ tail => exact ⟨first (by omega), by simp [tail]⟩
  | three _ _ tail tail' => exact ⟨first (by omega), by simp [tail, tail']⟩
  | four _ _ tail tail' tail'' => exact ⟨first (by omega), by simp [tail, tail', tail'']⟩

/-- An ASCII byte is a character of the string. -/
lemma exists_of_mem_ofString {s b} (mem : b ∈ ofString s) (ascii : b.toNat < 0x80) :
    ∃ c ∈ s.toList, c.toNat = b.toNat := by
  rw [ofString_eq, List.mem_flatMap] at mem
  obtain ⟨c, mem, within⟩ := mem
  rcases (sequence_encode c).byte_cases within with eq | ge
  · exact ⟨c, mem, eq.symm⟩
  · omega

/-- A character stands at the front of the text. -/
def Begins (text : Bytes) : Prop := ∃ c : Char, String.utf8EncodeChar c <+: text

/-- What begins a text is invalid just if no sequence does. -/
lemma head_eq_invalidRune_iff {b rest} :
    head b rest = invalidRune ↔ ¬ Begins (b :: rest) := by
  constructor
  · rintro invalid ⟨c, later, eq⟩
    have read := runes_encode_append c later
    rw [eq, runes_cons, invalid, List.cons.injEq, invalidRune, Rune.mk.injEq] at read
    exact Bool.false_ne_true read.1.2.2
  · intro none
    refine (head_cases b rest).resolve_right ?_
    rintro ⟨tail, later, code, rfl, sequence⟩
    obtain ⟨c, eq, -⟩ := sequence_iff.mp sequence
    exact none ⟨c, later, by rw [← eq, List.cons_append]⟩

/-- A byte that begins no character in a text begins none either where the text ends earlier. -/
lemma head_eq_invalidRune_of_le {b front text} (part : front <+: text) (invalid : head b text = invalidRune) :
    head b front = invalidRune := by
  rw [head_eq_invalidRune_iff] at invalid ⊢
  rintro ⟨c, begins⟩
  exact invalid ⟨c, begins.trans (List.cons_prefix_cons.mpr ⟨rfl, part⟩)⟩

/-- Bytes that do not begin with a tail byte, so that they continue no sequence. -/
def Apart (back : Bytes) : Prop := ∀ b ∈ back.head?, isTail b = false

lemma apart_encode_append (c : Char) (rest : Bytes) : Apart (String.utf8EncodeChar c ++ rest) := by
  obtain ⟨b, tail, eq⟩ := List.exists_cons_of_ne_nil (utf8EncodeChar_ne_nil c)
  have first := (eq ▸ sequence_encode c).tails.1
  rw [eq]
  rintro _ ⟨⟩
  exact first

/-- What is read at the front of a text does not depend on bytes that continue no sequence. -/
lemma head_append {back} (apart : Apart back) (b : UInt8) (front : Bytes) :
    head b (front ++ back) = head b front := by
  rcases head_cases b (front ++ back) with invalid | ⟨tail, later, code, eq, sequence⟩
  · rw [invalid, head_eq_invalidRune_of_le (List.prefix_append front back) invalid]
  · have inside : ∃ more, front = tail ++ more := by
      rcases List.append_eq_append_iff.mp eq with ⟨more, rfl, eq'⟩ | ⟨more, eq', -⟩
      · cases more with
        | nil => exact ⟨[], by rw [List.append_nil, List.append_nil]⟩
        | cons b' more =>
          -- The sequence would go on with the first byte behind.
          have tail' := sequence.tails.2 b' (by simp)
          rw [apart b' (by simp [eq'])] at tail'
          cases tail'
      · exact ⟨more, eq'⟩
    obtain ⟨more, rfl⟩ := inside
    rw [List.append_assoc, sequence.head_append, sequence.head_append]

/-- Bytes that continue no sequence are read by themselves, and so is what stands before them. -/
lemma runes_append {back} (apart : Apart back) (front : Bytes) :
    runes (front ++ back) = runes front ++ runes back := by
  induction length : front.length using Nat.strongRecOn generalizing front with
  | ind size ih =>
    cases front with
    | nil => rfl
    | cons b rest =>
      obtain ⟨pos, le⟩ := head_width b rest
      have shorter : (rest.drop ((head b rest).width - 1)).length < size := by
        rw [← length, List.length_drop, List.length_cons]
        omega
      rw [List.cons_append, runes_cons, runes_cons, head_append apart, List.drop_append_of_le_length (by omega),
        ih _ shorter _ rfl, List.cons_append]

/-- Runes before and behind a line break are read by themselves. -/
lemma runes_append_break (front back : Bytes) :
    runes (front ++ 10 :: back) = runes front ++ ⟨10, 1, true⟩ :: runes back :=
  runes_append (apart_encode_append '\n' back) front

/-- The characters of a text, and one replacement character for each longest run of bytes at which no
character begins. -/
inductive Repaired : Bytes → List Char → Prop
  | nil : Repaired [] []
  | char (c : Char) {rest : Bytes} {cs : List Char} : Repaired rest cs →
    Repaired (String.utf8EncodeChar c ++ rest) (c :: cs)
  | run {run rest : Bytes} {cs : List Char} : run ≠ [] →
    (∀ k < run.length, ¬ Begins (run.drop k ++ rest)) → rest = [] ∨ Begins rest →
    Repaired rest cs → Repaired (run ++ rest) ('\uFFFD' :: cs)

/-- After an invalid byte the run it belongs to is passed over. -/
lemma mergeInvalid_true (text : Bytes) : ∃ run rest, text = run ++ rest ∧
    (∀ k < run.length, ¬ Begins (run.drop k ++ rest)) ∧ (rest = [] ∨ Begins rest) ∧
    mergeInvalid true (runes text) = mergeInvalid false (runes rest) := by
  induction text with
  | nil => exact ⟨[], [], rfl, by simp, .inl rfl, rfl⟩
  | cons b later ih =>
    by_cases begins : Begins (b :: later)
    · obtain ⟨c, rest, eq⟩ := begins
      refine ⟨[], b :: later, rfl, by simp, .inr ⟨c, rest, eq⟩, ?_⟩
      rw [← eq, runes_encode_append, mergeInvalid, mergeInvalid, if_pos rfl, if_pos rfl]
    · obtain ⟨run, rest, rfl, plain, ends, eq⟩ := ih
      refine ⟨b :: run, rest, rfl, ?_, ends, ?_⟩
      · intro k lt
        cases k with
        | zero => exact begins
        | succ k => exact plain k (Nat.lt_of_succ_lt_succ lt)
      · rw [runes_cons, head_eq_invalidRune_iff.mpr begins, mergeInvalid, ← eq]
        rfl

/-- Runs of invalid bytes become one replacement each. -/
lemma repaired_mergeInvalid (text : Bytes) :
    Repaired text ((mergeInvalid false (runes text)).map Char.ofNat) := by
  -- What is left behind a character, or behind a run, is shorter.
  induction length : text.length using Nat.strongRecOn generalizing text with
  | ind n ih =>
    subst length
    cases text with
    | nil => exact .nil
    | cons b later =>
      by_cases begins : Begins (b :: later)
      · obtain ⟨c, rest, eq⟩ := begins
        have shorter : rest.length < (b :: later).length := by
          have pos := List.length_pos_iff.mpr (utf8EncodeChar_ne_nil c)
          rw [← eq, List.length_append]
          omega
        rw [← eq, runes_encode_append, mergeInvalid, if_pos rfl, List.map_cons, Char.ofNat_toNat]
        exact .char c (ih rest.length shorter rest rfl)
      · obtain ⟨run, rest, rfl, plain, ends, eq⟩ := mergeInvalid_true later
        have shorter : rest.length < (b :: (run ++ rest)).length := by
          rw [List.length_cons, List.length_append]
          omega
        have merged : mergeInvalid false (runes (b :: (run ++ rest))) =
            replacement :: mergeInvalid false (runes rest) := by
          rw [runes_cons, head_eq_invalidRune_iff.mpr begins, ← eq]
          rfl
        rw [merged, List.map_cons, ← List.cons_append]
        refine .run (List.cons_ne_nil b run) ?_ ends (ih rest.length shorter rest rfl)
        intro k lt
        cases k with
        | zero => exact begins
        | succ k => exact plain k (Nat.lt_of_succ_lt_succ lt)

/-- Text that is made valid is the text repaired. -/
lemma repaired_toValidString (text : Bytes) : Repaired text (toValidString text).toList := by
  rw [toValidString, String.toList_ofList]
  exact repaired_mergeInvalid text

-- Two bytes that begin no character, then one letter of two bytes.
example : toValidString [97, 0xFF, 0xC3, 0xC3, 0xA9] = "a\uFFFDé" := by decide

/-- A valid rune parts what is merged. -/
lemma mergeInvalid_append_valid (afterInvalid : Bool) (front back : List Rune) {rune} (valid : rune.valid = true) :
    mergeInvalid afterInvalid (front ++ rune :: back) =
      mergeInvalid afterInvalid front ++ rune.code :: mergeInvalid false back := by
  induction front generalizing afterInvalid with
  | nil => simp only [List.nil_append, mergeInvalid, valid, if_true]
  | cons first rest ih =>
    simp only [List.cons_append, mergeInvalid, ih]
    split
    · rfl
    · split
      · rfl
      · rfl

/-- Text is made valid line by line. -/
lemma toList_toValidString_append_break (front back : Bytes) :
    (toValidString (front ++ 10 :: back)).toList =
      (toValidString front).toList ++ '\n' :: (toValidString back).toList := by
  simp only [toValidString, String.toList_ofList]
  rw [runes_append_break, mergeInvalid_append_valid _ _ _ rfl, List.map_append, List.map_cons]

/-- Repairing adds no line break. -/
lemma Repaired.break_not_mem {text cs} (repaired : Repaired text cs) (plain : 10 ∉ text) : '\n' ∉ cs := by
  induction repaired with
  | nil => exact List.not_mem_nil
  | @char c rest cs _ ih =>
    rw [List.mem_append, not_or] at plain
    rw [List.mem_cons, not_or]
    refine ⟨?_, ih plain.2⟩
    rintro rfl
    exact plain.1 (by decide)
  | @run run rest cs _ _ _ _ ih =>
    rw [List.mem_append, not_or] at plain
    rw [List.mem_cons, not_or]
    exact ⟨by decide, ih plain.2⟩

lemma break_not_mem_toValidString {line} (plain : 10 ∉ line) :
    '\n' ∉ (toValidString line).toList :=
  (repaired_toValidString line).break_not_mem plain

lemma utf8ByteSize_eq (s : String) : s.utf8ByteSize = (ofString s).length := by
  rw [ofString, ByteArray.toList, toList_loop]
  simp

/-- Where all bytes belong to characters, nothing is replaced. -/
lemma Repaired.flatMap_eq {text cs} (repaired : Repaired text cs) (valid : isValid text = true) :
    cs.flatMap String.utf8EncodeChar = text := by
  induction repaired with
  | nil => rfl
  | @char c rest cs _ ih =>
    rw [isValid, runes_encode_append, List.all_cons, Bool.true_and] at valid
    rw [List.flatMap_cons, ih valid]
  | @run run rest cs ne plain =>
    obtain ⟨b, later, rfl⟩ := List.exists_cons_of_ne_nil ne
    have invalid : ¬ Begins (b :: (later ++ rest)) := plain 0 (Nat.succ_pos _)
    rw [isValid, List.cons_append, runes_cons, head_eq_invalidRune_iff.mpr invalid] at valid
    cases valid

/-- Valid text stays as it is. -/
lemma ofString_toValidString {text} (valid : isValid text = true) :
    ofString (toValidString text) = text := by
  rw [ofString_eq]
  exact (repaired_toValidString text).flatMap_eq valid

/-- Bytes are compared from the front. -/
lemma bytes_cons_lt_iff {b b'} {rest rest' : Bytes} :
    b :: rest < b' :: rest' ↔ b.toNat < b'.toNat ∨ b.toNat = b'.toNat ∧ rest < rest' := by
  rw [List.cons_lt_cons_iff, UInt8.lt_iff_toNat_lt, UInt8.toNat_inj]

/-- Of two encoded characters, the one with the smaller code point comes first by its bytes. -/
lemma Sequence.append_lt {bytes bytes' code code'} (sequence : Sequence bytes code)
    (sequence' : Sequence bytes' code') (lt : code < code') (rest rest' : Bytes) :
    bytes ++ rest < bytes' ++ rest' := by
  cases sequence with
  | one high =>
    cases sequence' with
    | one _ => exact bytes_cons_lt_iff.mpr (.inl lt)
    | two low _ _ => exact bytes_cons_lt_iff.mpr (.inl (by omega))
    | three low => exact bytes_cons_lt_iff.mpr (.inl (by omega))
    | four low => exact bytes_cons_lt_iff.mpr (.inl (by omega))
  | @two b b1 low high tail1 =>
    rw [isTail_iff] at tail1
    cases sequence' with
    | one high' => unfold tailBits at lt; omega
    | @two b' b1' low' high' tail1' =>
      rw [isTail_iff] at tail1'
      unfold tailBits at lt
      simp only [List.cons_append, bytes_cons_lt_iff]
      omega
    | three low' => exact bytes_cons_lt_iff.mpr (.inl (by omega))
    | four low' => exact bytes_cons_lt_iff.mpr (.inl (by omega))
  | @three b b1 b2 low high tail1 tail2 least =>
    rw [isTail_iff] at tail1 tail2
    cases sequence' with
    | one high' => unfold tailBits at lt; omega
    | two low' high' tail1' =>
      rw [isTail_iff] at tail1'
      unfold tailBits at lt
      omega
    | three low' high' tail1' tail2' =>
      rw [isTail_iff] at tail1' tail2'
      unfold tailBits at lt
      simp only [List.cons_append, bytes_cons_lt_iff]
      omega
    | four low' => exact bytes_cons_lt_iff.mpr (.inl (by omega))
  | @four b b1 b2 b3 low high tail1 tail2 tail3 least =>
    rw [isTail_iff] at tail1 tail2 tail3
    cases sequence' with
    | one high' => unfold tailBits at lt; omega
    | two low' high' tail1' =>
      rw [isTail_iff] at tail1'
      unfold tailBits at lt
      omega
    | three low' high' tail1' tail2' =>
      rw [isTail_iff] at tail1' tail2'
      unfold tailBits at lt
      omega
    | four low' high' tail1' tail2' tail3' =>
      rw [isTail_iff] at tail1' tail2' tail3'
      unfold tailBits at lt
      simp only [List.cons_append, bytes_cons_lt_iff]
      omega

/-- Encoding keeps the order. -/
lemma flatMap_encode_lt {cs cs' : List Char} (lt : cs < cs') :
    cs.flatMap String.utf8EncodeChar < cs'.flatMap String.utf8EncodeChar := by
  induction cs generalizing cs' with
  | nil =>
    cases cs' with
    | nil => exact absurd lt (List.lt_irrefl _)
    | cons c rest =>
      obtain ⟨b, tail, eq⟩ := List.exists_cons_of_ne_nil (utf8EncodeChar_ne_nil c)
      rw [List.flatMap_nil, List.flatMap_cons, eq]
      exact List.nil_lt_cons _ _
  | cons c rest ih =>
    cases cs' with
    | nil => exact absurd lt (List.not_lt_nil _)
    | cons c' rest' =>
      rw [List.flatMap_cons, List.flatMap_cons]
      rcases List.cons_lt_cons_iff.mp lt with less | ⟨rfl, less⟩
      · exact (sequence_encode c).append_lt (sequence_encode c') less _ _
      · exact List.append_left_lt (ih less)

/-- Strings are ordered as their bytes are. -/
lemma ofString_lt_ofString {s t} (lt : s < t) : ofString s < ofString t := by
  rw [ofString_eq, ofString_eq]
  exact flatMap_encode_lt lt

end Sift.Utf8
