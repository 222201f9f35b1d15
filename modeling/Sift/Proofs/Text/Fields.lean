import Mathlib.Data.List.TakeWhile
import Sift.Proofs.Document.Offsets
import Sift.Proofs.Utf8.Strings
import Sift.Text.Blank

/-!
# Fields of a text

A text shows fields if it is made of them, in their order, and of white space, with a white-space character at
least between two of them (`Text.Fielded`). Every text shows one list of fields, the one that splitting gives
(`Text.fielded_iff`), whatever bytes it has: white space begins with a byte that continues no sequence, so that
what stands before it is decoded as it is by itself (`Utf8.runes_append`). The fields of two texts with white space
between them are those of the one and then those of the other (`Text.Fielded.append_gap`), and an encoded string
shows the fields of the string (`Text.fielded_ofString`).
-/

namespace Sift

namespace Utf8

/-- Where white space is read, a white-space character stands. -/
lemma exists_encode_of_isSpace {b rest} (space : Unicode.isSpace (head b rest).code = true) :
    ∃ c later, b :: rest = String.utf8EncodeChar c ++ later ∧ Text.isBlank c = true := by
  rcases head_cases b rest with invalid | ⟨tail, later, code, rfl, sequence⟩
  · rw [invalid] at space
    exact absurd space (by decide)
  · rw [sequence.head_append] at space
    obtain ⟨c, eq, rfl⟩ := sequence_iff.mp sequence
    exact ⟨c, later, by rw [← eq, List.cons_append], space⟩

end Utf8

namespace Text

open Utf8 (Rune runes codePoints ofString)

/-- All characters of the string are white space. -/
def Blank (s : String) : Prop := ∀ c ∈ s.toList, isBlank c = true

instance (s : String) : Decidable (Blank s) :=
  decidable_of_iff (s.toList.all isBlank = true) List.all_eq_true

/-- Bytes, one at least, among which no white space is read. -/
def Word (word : Bytes) : Prop := word ≠ [] ∧ ∀ code ∈ codePoints word, Unicode.isSpace code = false

/-- The text is made of the fields in their order and of white space, which stands between any two of them. -/
inductive Fielded : Bytes → List Bytes → Prop
  | nil : Fielded [] []
  | blank {c : Char} {rest : Bytes} {fields : List Bytes} : isBlank c = true → Fielded rest fields →
    Fielded (String.utf8EncodeChar c ++ rest) fields
  | last {word : Bytes} : Word word → Fielded word [word]
  | field {word : Bytes} {c : Char} {rest : Bytes} {fields : List Bytes} : Word word → isBlank c = true →
    Fielded rest fields → Fielded (word ++ (String.utf8EncodeChar c ++ rest)) (word :: fields)

/-! ## Splitting -/

/-- Runes that are no white space go to the field with their bytes. -/
lemma byteFieldsFrom_append {read word} (size : Utf8.width read = word.length)
    (black : ∀ rune ∈ read, Unicode.isSpace rune.code = false) (field : Bytes) (later : List Rune) (back : Bytes) :
    byteFieldsFrom field (read ++ later) (word ++ back) = byteFieldsFrom (word.reverse ++ field) later back := by
  induction read generalizing word field with
  | nil =>
    obtain rfl := List.eq_nil_of_length_eq_zero size.symm
    rfl
  | cons rune read ih =>
    obtain ⟨first, others⟩ := List.forall_mem_cons.mp black
    rw [Utf8.width_cons] at size
    have fits : rune.width ≤ word.length := by omega
    have size' : Utf8.width read = (word.drop rune.width).length := by
      rw [List.length_drop]
      omega
    rw [List.cons_append, byteFieldsFrom, if_neg (Bool.eq_false_iff.mp first), List.take_append_of_le_length fits,
      List.drop_append_of_le_length fits, ih size' others, ← List.append_assoc, ← List.reverse_append,
      List.take_append_drop]

lemma byteFieldsFrom_word {word} (isWord : Word word) (later : List Rune) (back : Bytes) :
    byteFieldsFrom [] (runes word ++ later) (word ++ back) = byteFieldsFrom word.reverse later back := by
  rw [byteFieldsFrom_append (Utf8.width_runes word) (List.forall_mem_map.mp isWord.2), List.append_nil]

/-- White space closes the field that is being read. -/
lemma byteFieldsFrom_blank (field : Bytes) {c} (blank : isBlank c = true) (rest : Bytes) :
    byteFieldsFrom field (runes (String.utf8EncodeChar c ++ rest)) (String.utf8EncodeChar c ++ rest) =
      if field.isEmpty then byteFields rest else field.reverse :: byteFields rest := by
  have space : Unicode.isSpace c.toNat = true := blank
  rw [Utf8.runes_encode_append, byteFieldsFrom, if_pos space, List.drop_left, byteFields]

lemma Word.isEmpty_reverse {word} (isWord : Word word) : word.reverse.isEmpty = false := by
  rw [List.isEmpty_reverse, List.isEmpty_eq_false_iff]
  exact isWord.1

/-- Splitting gives the fields that a text shows. -/
lemma Fielded.byteFields_eq {text fields} (shown : Fielded text fields) :
    byteFields text = fields := by
  induction shown with
  | nil => rfl
  | blank blank _ ih => rw [byteFields, byteFieldsFrom_blank [] blank, ih, List.isEmpty_nil, if_pos rfl]
  | @last word isWord =>
    have read := byteFieldsFrom_word isWord [] []
    rw [List.append_nil, List.append_nil] at read
    rw [byteFields, read, byteFieldsFrom, isWord.isEmpty_reverse, if_neg Bool.false_ne_true, List.reverse_reverse]
  | @field word c rest fields isWord blank _ ih =>
    rw [byteFields, Utf8.runes_append (Utf8.apart_encode_append c rest), byteFieldsFrom_word isWord,
      byteFieldsFrom_blank word.reverse blank, isWord.isEmpty_reverse, if_neg Bool.false_ne_true, ih,
      List.reverse_reverse]

/-- A text is what stands before its first white space, and then that white space if there is any. -/
lemma exists_front (text : Bytes) : ∃ front back, text = front ++ back ∧
    (∀ code ∈ codePoints front, Unicode.isSpace code = false) ∧
      (back = [] ∨ ∃ c rest, back = String.utf8EncodeChar c ++ rest ∧ isBlank c = true) := by
  let black := fun rune : Rune => !Unicode.isSpace rune.code
  obtain ⟨front, back, eq, before, behind⟩ := Utf8.exists_of_runes_eq_append
    (List.takeWhile_append_dropWhile (p := black) (l := runes text)).symm
  refine ⟨front, back, eq, ?_, ?_⟩
  · rw [codePoints, before, List.forall_mem_map]
    intro rune mem
    simpa [black] using List.mem_takeWhile_imp mem
  · cases back with
    | nil => exact .inl rfl
    | cons b rest =>
      have first := List.head?_dropWhile_not black (runes text)
      rw [← behind, Utf8.runes_cons] at first
      exact .inr (Utf8.exists_encode_of_isSpace (by simpa [black] using first))

/-- Every text shows some fields. -/
lemma exists_fielded (text : Bytes) : ∃ fields, Fielded text fields := by
  induction length : text.length using Nat.strongRecOn generalizing text with
  | ind size ih =>
    obtain ⟨front, back, rfl, black, behind⟩ := exists_front text
    rcases behind with rfl | ⟨c, rest, rfl, blank⟩
    · by_cases none : front = []
      · rw [none]
        exact ⟨[], .nil⟩
      · rw [List.append_nil]
        exact ⟨[front], .last ⟨none, black⟩⟩
    · have pos := List.length_pos_iff.mpr (Utf8.utf8EncodeChar_ne_nil c)
      rw [List.length_append, List.length_append] at length
      obtain ⟨fields, shown⟩ := ih rest.length (by omega) rest rfl
      by_cases none : front = []
      · rw [none]
        exact ⟨fields, .blank blank shown⟩
      · exact ⟨front :: fields, .field ⟨none, black⟩ blank shown⟩

/-- A text shows the fields that splitting gives, and no others. -/
lemma fielded_iff {text fields} : Fielded text fields ↔ byteFields text = fields := by
  refine ⟨Fielded.byteFields_eq, fun eq => ?_⟩
  obtain ⟨shown, isShown⟩ := exists_fielded text
  rw [← eq, isShown.byteFields_eq]
  exact isShown

/-! ## Texts with white space between them -/

namespace Fielded

variable {front back : Bytes} {fields fields' : List Bytes}

/-- White space at the front shows no field. -/
lemma blanks {gap} (blank : Blank gap) (shown : Fielded back fields) :
    Fielded (ofString gap ++ back) fields := by
  unfold Blank at blank
  rw [Utf8.ofString_eq]
  generalize gap.toList = cs at blank ⊢
  induction cs with
  | nil => exact shown
  | cons c cs ih =>
    obtain ⟨first, others⟩ := List.forall_mem_cons.mp blank
    rw [List.flatMap_cons, List.append_assoc]
    exact .blank first (ih others)

/-- A white-space character between two texts parts their fields. -/
lemma append {c} (shown : Fielded front fields) (blank : isBlank c = true) (shown' : Fielded back fields') :
    Fielded (front ++ (String.utf8EncodeChar c ++ back)) (fields ++ fields') := by
  induction shown with
  | nil => exact .blank blank shown'
  | blank first _ ih =>
    rw [List.append_assoc]
    exact .blank first ih
  | last isWord => exact .field isWord blank shown'
  | field isWord first _ ih =>
    rw [List.append_assoc, List.append_assoc]
    exact .field isWord first ih

/-- White space between two texts parts their fields. -/
lemma append_gap {gap} (ne : gap ≠ "") (blank : Blank gap) (shown : Fielded front fields)
    (shown' : Fielded back fields') : Fielded (front ++ ofString gap ++ back) (fields ++ fields') := by
  obtain ⟨c, cs, chars⟩ := List.exists_cons_of_ne_nil (mt String.toList_eq_nil_iff.mp ne)
  have parted : ofString gap = String.utf8EncodeChar c ++ ofString (.ofList cs) := by
    rw [Utf8.ofString_eq, chars, List.flatMap_cons, Utf8.ofString_ofList]
  rw [Blank, chars, List.forall_mem_cons] at blank
  have blank' : Blank (.ofList cs) := by
    rw [Blank, String.toList_ofList]
    exact blank.2
  rw [parted, List.append_assoc, List.append_assoc]
  exact shown.append blank.1 (shown'.blanks blank')

/-- White space around a text shows no field. -/
lemma pad {lead trail} (blank : Blank lead) (blank' : Blank trail) (shown : Fielded front fields) :
    Fielded (ofString lead ++ front ++ ofString trail) fields := by
  rw [List.append_assoc]
  refine blanks blank ?_
  by_cases none : trail = ""
  · have empty : ofString "" = [] := Utf8.ofString_ofList []
    rw [none, empty, List.append_nil]
    exact shown
  · have padded := append_gap none blank' shown .nil
    rw [List.append_nil, List.append_nil] at padded
    exact padded

/-- Every field is a word. -/
lemma word_of_mem {text word} (shown : Fielded text fields) (mem : word ∈ fields) : Word word := by
  induction shown with
  | nil => cases mem
  | blank _ _ ih => exact ih mem
  | last isWord => exact List.mem_singleton.mp mem ▸ isWord
  | field isWord _ _ ih => exact (List.mem_cons.mp mem).elim (fun eq => eq ▸ isWord) ih

end Fielded

/-- Words with a single blank between any two of them are the fields of what they make. -/
lemma fielded_intercalate {words} (all : ∀ word ∈ words, Word word) :
    Fielded ([32].intercalate words) words := by
  induction words with
  | nil => exact .nil
  | cons word words ih =>
    obtain ⟨first, others⟩ := List.forall_mem_cons.mp all
    cases words with
    | nil =>
      rw [List.intercalate_singleton]
      exact .last first
    | cons next words =>
      rw [List.intercalate_cons_cons, List.append_assoc]
      exact .field (c := ' ') first rfl (ih others)

/-! ## Strings -/

lemma word_flatMap {cs} (ne : cs ≠ []) (black : ∀ c ∈ cs, isBlank c = false) :
    Word (cs.flatMap String.utf8EncodeChar) := by
  obtain ⟨c, rest, eq⟩ := List.exists_cons_of_ne_nil ne
  constructor
  · rw [eq, List.flatMap_cons]
    exact List.append_ne_nil_of_left_ne_nil (Utf8.utf8EncodeChar_ne_nil c) _
  · rw [← Utf8.ofString_ofList, Utf8.codes_ofString, String.toList_ofList, List.forall_mem_map]
    exact black

/-- The field that is being read and the characters behind it show the fields that are split from them. -/
lemma fielded_fieldsFrom {field} (black : ∀ c ∈ field, isBlank c = false) (cs : List Char) :
    Fielded ((field.reverse ++ cs).flatMap String.utf8EncodeChar)
      ((fieldsFrom field cs).map (List.flatMap String.utf8EncodeChar)) := by
  induction cs generalizing field with
  | nil =>
    rw [fieldsFrom, List.append_nil]
    by_cases none : field = []
    · rw [none]
      exact .nil
    · rw [if_neg (mt List.isEmpty_iff.mp none)]
      exact .last (word_flatMap (mt List.reverse_eq_nil_iff.mp none) (by simpa using black))
  | cons c cs ih =>
    rw [fieldsFrom]
    by_cases blank : isBlank c = true
    · have later := ih (List.forall_mem_nil _)
      rw [if_pos blank, List.flatMap_append, List.flatMap_cons]
      by_cases none : field = []
      · rw [none]
        exact .blank blank later
      · rw [if_neg (mt List.isEmpty_iff.mp none)]
        exact .field (word_flatMap (mt List.reverse_eq_nil_iff.mp none) (by simpa using black)) blank later
    · have black' : ∀ d ∈ c :: field, isBlank d = false :=
        List.forall_mem_cons.mpr ⟨Bool.eq_false_iff.mpr blank, black⟩
      have later := ih black'
      rw [List.reverse_cons, List.append_assoc, List.singleton_append] at later
      rw [if_neg blank]
      exact later

/-- An encoded string shows the fields of the string. -/
lemma fielded_ofString (s : String) : Fielded (ofString s) ((fields s).map ofString) := by
  have shown := fielded_fieldsFrom (List.forall_mem_nil _) s.toList
  rw [List.reverse_nil, List.nil_append, ← Utf8.ofString_eq] at shown
  rw [fields, List.map_map]
  simpa only [Function.comp_def, Utf8.ofString_ofList] using shown

end Text

end Sift
