import Mathlib.Tactic.Lemma
import Sift.Json.Parser
import Sift.Json.Printer
import Sift.Json.Fields

/-!
# Reading written strings and numbers

The strings and the whole numbers of a JSON text are read back as they were written: a string by its
characters, each of which is read from its escape (`Json.stringFrom_escapeChar`), and a number by its
digits (`Json.number?_toString`, `Json.integer?_toString`).
-/

namespace Sift

lemma Text.toList_hex_succ (digits n : Nat) :
    (Text.hex (digits + 2) n).toList =
      (Text.hex (digits + 1) (n / 16)).toList ++ [(n % 16).digitChar] := by
  rw [hex, hex, String.toList_ofList, String.toList_ofList]
  by_cases le : 16 ≤ n
  · rw [Nat.toDigits_of_base_le (by decide) le, List.length_append, List.length_singleton,
      List.append_assoc, Nat.add_sub_add_right (digits + 1) 1]
  · rw [Nat.toDigits_of_lt_base (by omega), Nat.div_eq_of_lt (by omega), Nat.mod_eq_of_lt (by omega),
      Nat.toDigits_zero, ← List.replicate_succ']
    rfl

namespace Json

section Strings

lemma hexDigit?_digitChar {d : Nat} (lt : d < 16) : Pattern.hexDigit? d.digitChar = some d := by
  have all : ∀ d < 16, Pattern.hexDigit? (Nat.digitChar d) = some d := by decide
  exact all d lt

/-- Four hexadecimal digits are read back. -/
lemma hex4?_hex {n : Nat} (lt : n < 65536) (rest : List Char) :
    hex4? ((Text.hex 4 n).toList ++ rest) = some (n, rest) := by
  have first : (Text.hex 1 (n / 16 / 16 / 16)).toList = [(n / 16 / 16 / 16).digitChar] := by
    rw [Text.hex, Nat.toDigits_of_lt_base (by omega), String.toList_ofList]
    rfl
  have digit := fun m : Nat => hexDigit?_digitChar (d := m % 16) (Nat.mod_lt m (by decide))
  rw [Text.toList_hex_succ, Text.toList_hex_succ, Text.toList_hex_succ, first]
  simp only [List.cons_append, List.nil_append, hex4?, digit, hexDigit?_digitChar (d := n / 16 / 16 / 16)
    (by omega), Option.bind_eq_bind, Option.bind_some, Option.pure_def, Option.some.injEq, Prod.mk.injEq,
    and_true]
  omega

lemma unicodeEscape?_hex {c : Char} (lt : c.toNat < 0xD800) (rest : List Char) :
    unicodeEscape? ((Text.hex 4 c.toNat).toList ++ rest) = some (c, rest) := by
  have single : ¬ (decide (0xD800 ≤ c.toNat) && decide (c.toNat < 0xE000)) = true := by
    rw [Bool.and_eq_true, decide_eq_true_eq]
    omega
  rw [unicodeEscape?, hex4?_hex (by omega)]
  simp only [Option.bind_eq_bind, Option.bind_some, if_neg single, Char.ofNat_toNat, Option.pure_def]

lemma stringFrom_cons (fuel : Nat) (read rest : List Char) {c : Char} (quote : c ≠ '"')
    (backslash : c ≠ '\\') (control : ¬ c.toNat < 32) :
    stringFrom (fuel + 1) read (c :: rest) = stringFrom fuel (c :: read) rest := by
  rw [stringFrom.eq_def]
  split
  case h_1 eq => cases eq
  case h_2 eq =>
    cases eq
    split
    case h_1 eq => cases eq
    case h_2 eq => cases eq; exact absurd rfl quote
    case h_3 eq => cases eq; exact absurd rfl backslash
    case h_4 eq => cases eq; exact absurd rfl backslash
    case h_5 eq => cases eq; rw [if_neg control]

/-- A character is read from what is written for it. -/
lemma stringFrom_escapeChar (fuel : Nat) (read rest : List Char) (c : Char) :
    stringFrom (fuel + 1) read (escapeChar c ++ rest) = stringFrom fuel (c :: read) rest := by
  have eq_of_toNat : ∀ {d : Char}, c.toNat = d.toNat → d = c := fun eq => Char.toNat_inj.mp eq.symm
  unfold escapeChar
  split
  case isTrue eq => subst eq; rfl
  split
  case isTrue eq => subst eq; rfl
  split
  case isTrue eq => rw [← @eq_of_toNat (Char.ofNat 8) eq]; rfl
  split
  case isTrue eq => rw [← @eq_of_toNat (Char.ofNat 12) eq]; rfl
  split
  case isTrue eq => rw [← @eq_of_toNat '\n' eq]; rfl
  split
  case isTrue eq => rw [← @eq_of_toNat '\r' eq]; rfl
  split
  case isTrue eq => rw [← @eq_of_toNat '\t' eq]; rfl
  split
  case isTrue special =>
    have lt : c.toNat < 0xD800 := by
      simp only [Bool.or_eq_true, decide_eq_true_eq, or_assoc] at special
      rcases special with lt | rfl | rfl | rfl | eq | eq
      · omega
      · decide
      · decide
      · decide
      · omega
      · omega
    rw [List.cons_append, List.cons_append, stringFrom, unicodeEscape?_hex lt]
    rfl
  case isFalse plain =>
    simp only [Bool.or_eq_true, decide_eq_true_eq, not_or] at plain
    exact stringFrom_cons fuel read rest ‹_› ‹_› plain.1.1.1.1.1

/-- Escaped characters are read back. -/
lemma stringFrom_flatMap_escapeChar (cs read rest : List Char) {fuel : Nat} (lt : cs.length < fuel) :
    stringFrom fuel read (cs.flatMap escapeChar ++ '"' :: rest) =
      some (String.ofList (read.reverse ++ cs), rest) := by
  induction cs generalizing read fuel with
  | nil =>
    obtain ⟨fuel, rfl⟩ := Nat.exists_eq_add_one_of_ne_zero (Nat.ne_zero_of_lt lt)
    rw [List.append_nil]
    rfl
  | cons c cs ih =>
    obtain ⟨fuel, rfl⟩ := Nat.exists_eq_add_one_of_ne_zero (Nat.ne_zero_of_lt lt)
    rw [List.flatMap_cons, List.append_assoc, stringFrom_escapeChar,
      ih _ (Nat.lt_of_succ_lt_succ lt), List.reverse_cons, List.append_assoc, List.singleton_append]

lemma escapeChar_length_pos (c : Char) : 0 < (escapeChar c).length := by
  unfold escapeChar
  repeat' split
  all_goals exact Nat.succ_pos _

lemma length_le_flatMap_escapeChar (cs : List Char) : cs.length ≤ (cs.flatMap escapeChar).length := by
  induction cs with
  | nil => exact Nat.le_refl 0
  | cons c cs ih =>
    have pos := escapeChar_length_pos c
    rw [List.flatMap_cons, List.length_append, List.length_cons]
    omega

/-- The characters of a written string behind its first quote. -/
def quotedTail (s : String) (rest : List Char) : List Char :=
  s.toList.flatMap escapeChar ++ '"' :: rest

lemma quoteChars_append (s : String) (rest : List Char) :
    quoteChars s ++ rest = '"' :: quotedTail s rest := by
  rw [quoteChars, quotedTail, List.cons_append, List.append_assoc, List.singleton_append]

/-- A string is read from what is written for it. -/
lemma stringFrom_quotedTail (s : String) (rest : List Char) :
    stringFrom ((quotedTail s rest).length + 1) [] (quotedTail s rest) = some (s, rest) := by
  have le := length_le_flatMap_escapeChar s.toList
  have lt : s.toList.length < (quotedTail s rest).length + 1 := by
    rw [quotedTail, List.length_append]
    omega
  have read := stringFrom_flatMap_escapeChar s.toList [] rest lt
  rwa [List.reverse_nil, List.nil_append, String.ofList_toList] at read

end Strings

section Numbers

lemma isDigit_eq (c : Char) : Pattern.isDigit c = c.isDigit := by
  rw [Bool.eq_iff_iff, Pattern.isDigit, Char.isDigit]
  simp only [Bool.and_eq_true, decide_eq_true_eq, Char.le_def]

lemma isDigit_of_mem_toDigits {n : Nat} {c : Char} (mem : c ∈ Nat.toDigits 10 n) :
    Pattern.isDigit c = true := by
  rw [isDigit_eq]
  exact Nat.isDigit_of_mem_toDigits (by decide) (by decide) mem

/-- Only nought is written with a nought in front. -/
lemma head?_toDigits_ne_zero {n : Nat} (pos : 0 < n) : (Nat.toDigits 10 n).head? ≠ some '0' := by
  induction n using Nat.strongRecOn with
  | ind n ih =>
    by_cases le : 10 ≤ n
    · have front := ih (n / 10) (by omega) (by omega)
      obtain ⟨c, cs, eq⟩ := List.exists_cons_of_ne_nil (@Nat.toDigits_ne_nil (n / 10) 10)
      rw [Nat.toDigits_of_base_le (by decide) le, eq]
      rwa [eq] at front
    · rw [Nat.toDigits_of_lt_base (by omega), List.head?_cons, ne_eq, Option.some.injEq,
        Nat.digitChar_eq_zero]
      omega

/-- The digits of a number give it back. -/
lemma foldl_toDigits (n : Nat) :
    (Nat.toDigits 10 n).foldl (fun n c => n * 10 + (c.toNat - '0'.toNat)) 0 = n := by
  induction n using Nat.strongRecOn with
  | ind n ih =>
    have digit : ∀ {d : Nat}, d < 10 → d.digitChar.toNat - '0'.toNat = d :=
      Nat.toNat_digitChar_sub_48_of_lt_ten
    by_cases le : 10 ≤ n
    · rw [Nat.toDigits_of_base_le (by decide) le, List.foldl_append, ih (n / 10) (by omega),
        List.foldl_cons, List.foldl_nil, digit (Nat.mod_lt n (by decide))]
      omega
    · rw [Nat.toDigits_of_lt_base (by omega), List.foldl_cons, List.foldl_nil, digit (by omega),
        Nat.zero_mul, Nat.zero_add]

/-- The text does not go on with a number that ends before it. -/
def Closes (rest : List Char) : Prop :=
  ∀ c ∈ rest.head?, Pattern.isDigit c = false ∧ c ≠ '.' ∧ c ≠ 'e' ∧ c ≠ 'E'

/-- Digits are read up to what closes them. -/
lemma digits?_append {digits rest : List Char} (all : ∀ c ∈ digits, Pattern.isDigit c = true)
    (ne : digits ≠ []) (closes : Closes rest) : digits? (digits ++ rest) = some (digits, rest) := by
  have take : (digits ++ rest).takeWhile Pattern.isDigit = digits := by
    rw [List.takeWhile_append_of_pos all]
    cases rest with
    | nil => exact List.append_nil _
    | cons c rest =>
      rw [List.takeWhile_cons_of_neg (by simpa using (closes c rfl).1), List.append_nil]
  have drop : (digits ++ rest).dropWhile Pattern.isDigit = rest := by
    rw [List.dropWhile_append_of_pos all]
    cases rest with
    | nil => rfl
    | cons c rest => rw [List.dropWhile_cons_of_neg (by simpa using (closes c rfl).1)]
  rw [digits?, take, drop]
  split
  case h_1 => exact absurd rfl ne
  case h_2 => rfl

/-- A whole number is read back. -/
lemma wholePart?_toDigits (n : Nat) {rest : List Char} (closes : Closes rest) :
    wholePart? (Nat.toDigits 10 n ++ rest) = some (Nat.toDigits 10 n, rest) := by
  rcases Nat.eq_zero_or_pos n with rfl | pos
  · rfl
  · obtain ⟨c, cs, eq⟩ := List.exists_cons_of_ne_nil (@Nat.toDigits_ne_nil n 10)
    have ne := head?_toDigits_ne_zero pos
    have read := digits?_append (fun _ mem => isDigit_of_mem_toDigits mem) (@Nat.toDigits_ne_nil n 10)
      closes
    rw [eq] at ne read ⊢
    rw [wholePart?.eq_def]
    split
    case h_1 eq => cases eq; exact absurd rfl ne
    case h_2 => exact read

lemma fraction?_of_closes {rest : List Char} (closes : Closes rest) :
    fraction? rest = some ([], rest) := by
  rw [fraction?.eq_def]
  split
  case h_1 => exact absurd rfl (closes '.' rfl).2.1
  case h_2 => rfl

lemma exponent?_of_closes {rest : List Char} (closes : Closes rest) :
    exponent? rest = some ([], rest) := by
  cases rest with
  | nil => rfl
  | cons c rest =>
    obtain ⟨-, -, lower, upper⟩ := closes c rfl
    rw [exponent?.eq_def]
    exact if_neg (by simp [lower, upper])

lemma toList_toString_ofNat (n : Nat) : (toString (Int.ofNat n)).toList = Nat.toDigits 10 n :=
  Nat.toList_repr

lemma toList_toString_negSucc (n : Nat) :
    (toString (Int.negSucc n)).toList = '-' :: Nat.toDigits 10 (n + 1) := by
  change ("-" ++ (n + 1).repr).toList = _
  rw [String.toList_append, Nat.toList_repr]
  rfl

/-- What begins with a digit has no sign. -/
lemma toDigits_append_ne_minus (n : Nat) (rest rest' : List Char) :
    Nat.toDigits 10 n ++ rest ≠ '-' :: rest' := by
  intro signed
  obtain ⟨c, cs, eq⟩ := List.exists_cons_of_ne_nil (@Nat.toDigits_ne_nil n 10)
  have digit := isDigit_of_mem_toDigits (eq ▸ List.mem_cons_self : c ∈ Nat.toDigits 10 n)
  rw [eq, List.cons_append, List.cons.injEq] at signed
  rw [signed.1] at digit
  cases digit

/-- A whole number is read from what is written for it. -/
lemma number?_toString (n : Int) {rest : List Char} (closes : Closes rest) :
    number? ((toString n).toList ++ rest) = some (toString n, rest) := by
  have parts := fun m : Nat => wholePart?_toDigits m closes
  cases n with
  | ofNat n =>
    rw [← String.ofList_toList (s := toString (Int.ofNat n)), toList_toString_ofNat,
      String.toList_ofList, number?]
    · simp only [parts, fraction?_of_closes closes, exponent?_of_closes closes, Option.bind_eq_bind,
        Option.bind_some, Option.pure_def, List.nil_append, List.append_nil]
    · exact toDigits_append_ne_minus n rest
  | negSucc n =>
    rw [← String.ofList_toList (s := toString (Int.negSucc n)), toList_toString_negSucc,
      String.toList_ofList, List.cons_append, number?]
    simp only [parts, fraction?_of_closes closes, exponent?_of_closes closes, Option.bind_eq_bind,
      Option.bind_some, Option.pure_def, List.append_nil, List.singleton_append]

/-- A machine integer is read from what is written for it. -/
lemma integer?_toString (n : Int64) : integer? (toString n.toInt) = some n.toInt := by
  have low := n.le_toInt
  have high := n.toInt_lt
  have digits : ∀ m : Nat,
      (!(Nat.toDigits 10 m).isEmpty && (Nat.toDigits 10 m).all Char.isDigit) = true := by
    intro m
    rw [Bool.and_eq_true, Bool.not_eq_true', List.all_eq_true, List.isEmpty_eq_false_iff]
    exact ⟨Nat.toDigits_ne_nil, fun c mem => by rw [← isDigit_eq, isDigit_of_mem_toDigits mem]⟩
  generalize n.toInt = m at low high
  cases m with
  | ofNat n =>
    have unsigned : ∀ rest, Nat.toDigits 10 n ≠ '-' :: rest := by
      intro rest
      have ne := toDigits_append_ne_minus n [] rest
      rwa [List.append_nil] at ne
    rw [integer?, toList_toString_ofNat]
    split
    rename_i negative cs eq
    split at eq
    case h_1 signed => exact absurd signed (unsigned _)
    case h_2 =>
      cases eq
      rw [if_pos (digits n), foldl_toDigits]
      have fits : n < 1 <<< 63 := Int.ofNat_lt.mp high
      rw [if_neg Bool.false_ne_true, if_pos fits]
      rfl
  | negSucc n =>
    rw [integer?, toList_toString_negSucc]
    simp only [digits, if_true, foldl_toDigits]
    have fits : n + 1 ≤ 1 <<< 63 := by
      rw [Int.negSucc_eq] at low
      simp only [Nat.reduceShiftLeft]
      omega
    rw [if_pos fits]
    rfl

end Numbers

end Json

end Sift
