import Mathlib.Data.List.Basic
import Sift.Proofs.Url
import Sift.Url.Reference

/-!
# Reading references

Decoding is a relation between bytes (`Url.Decodes`): a percent sign and two digits become one byte, every other
byte stays. A reference is cut at its first `#`, and what stands before it is divided as a URL is
(`Reference.readMain_append`).
-/

namespace Sift

namespace Url

/-- What the bytes of a path or a fragment stand for. -/
inductive Decodes : Bytes → Bytes → Prop where
  | nil : Decodes [] []
  | plain {b : UInt8} {rest out : Bytes} (ne : b ≠ 37) (more : Decodes rest out) : Decodes (b :: rest) (b :: out)
  | escape {high low byte : UInt8} {rest out : Bytes} (digits : escapedByte? high low = some byte)
      (more : Decodes rest out) : Decodes (37 :: high :: low :: rest) (byte :: out)

/-- What is unescaped is decoded. -/
lemma decodes_of_unescape {text out} (read : unescape .path text = .ok out) : Decodes text out := by
  induction length : text.length using Nat.strongRecOn generalizing text out with
  | ind n ih =>
    subst length
    cases text with
    | nil =>
      cases read
      exact .nil
    | cons b rest =>
      unfold unescape at read
      split at read
      case isTrue percent =>
        subst percent
        split at read
        · rename_i high low rest
          split at read
          · cases read
          · rename_i byte digits
            have allowed : escapeAllowed .path byte = true := rfl
            rw [if_pos allowed] at read
            cases more : unescape .path rest with
            | error fault =>
              rw [more] at read
              cases read
            | ok out =>
              rw [more] at read
              cases read
              exact .escape digits (ih _ (by simp only [List.length_cons]; omega) more rfl)
        · cases read
      case isFalse ne =>
        have kept : ((Part.path = Part.host || Part.path = Part.zone) && b < 0x80 && !plainInHost b) = false := rfl
        rw [kept, if_neg Bool.false_ne_true] at read
        cases more : unescape .path rest with
        | error fault =>
          rw [more] at read
          cases read
        | ok out =>
          rw [more] at read
          cases read
          exact .plain ne (ih _ (Nat.lt_succ_self _) more rfl)

/-- What decodes can be unescaped. -/
lemma unescape_of_decodes {text out} (decodes : Decodes text out) : unescape .path text = .ok out := by
  induction decodes with
  | nil => rfl
  | plain ne _ ih =>
    unfold unescape
    rw [if_neg ne, ih]
    rfl
  | escape digits _ ih =>
    unfold unescape
    rw [if_pos rfl]
    simp only [digits, ih]
    rfl

namespace Decodes

variable {text front back out : Bytes}

lemma length_le (decodes : Decodes text out) : out.length ≤ text.length := by
  induction decodes with
  | nil => exact Nat.le_refl _
  | plain _ _ ih => exact Nat.succ_le_succ ih
  | escape _ _ ih =>
    simp only [List.length_cons]
    omega

/-- Where nothing gets shorter there is no percent sign. -/
lemma eq_of_length_le (decodes : Decodes text out) (length : text.length ≤ out.length) : 37 ∉ text ∧ out = text := by
  induction decodes with
  | nil => exact ⟨List.not_mem_nil, rfl⟩
  | plain ne _ ih =>
    obtain ⟨free, rfl⟩ := ih (Nat.le_of_succ_le_succ length)
    exact ⟨fun mem => (List.mem_cons.mp mem).elim (fun eq => ne eq.symm) free, rfl⟩
  | escape _ more _ =>
    have shorter := more.length_le
    simp only [List.length_cons] at length
    omega

lemma of_cons {b} (ne : b ≠ 37) (decodes : Decodes (b :: text) out) :
    ∃ rest, out = b :: rest ∧ Decodes text rest := by
  cases decodes with
  | plain _ more => exact ⟨_, rfl, more⟩
  | escape => exact absurd rfl ne

/-- A beginning without a percent sign stays. -/
lemma exists_of_append (plain : 37 ∉ front) (decodes : Decodes (front ++ back) out) :
    ∃ rest, out = front ++ rest ∧ Decodes back rest := by
  induction front generalizing out with
  | nil => exact ⟨out, rfl, decodes⟩
  | cons b front ih =>
    rw [List.mem_cons, not_or] at plain
    obtain ⟨out, rfl, more⟩ := decodes.of_cons (Ne.symm plain.1)
    obtain ⟨rest, rfl, later⟩ := ih plain.2 more
    exact ⟨rest, rfl, later⟩

lemma append (plain : 37 ∉ front) (decodes : Decodes back out) : Decodes (front ++ back) (front ++ out) := by
  induction front with
  | nil => exact decodes
  | cons b front ih =>
    rw [List.mem_cons, not_or] at plain
    exact .plain (Ne.symm plain.1) (ih plain.2)

lemma self (plain : 37 ∉ text) : Decodes text text := by
  have decodes := append plain .nil
  rwa [List.append_nil] at decodes

lemma eq_of_not_mem (plain : 37 ∉ text) (decodes : Decodes text out) : out = text := by
  rw [← List.append_nil text] at decodes
  obtain ⟨rest, rfl, left⟩ := decodes.exists_of_append plain
  cases left
  exact List.append_nil text

/-- A byte that is no digit of an escape stays. -/
lemma mem_of_mem {b} (ne : b ≠ 37) (noDigit : Pattern.hexDigit? (Char.ofNat b.toNat) = none)
    (decodes : Decodes text out) (mem : b ∈ text) : b ∈ out := by
  induction decodes with
  | nil => exact mem
  | plain _ _ ih =>
    exact (List.mem_cons.mp mem).elim (fun eq => eq ▸ List.mem_cons_self) fun mem => List.mem_cons_of_mem _ (ih mem)
  | @escape high low byte rest out digits _ ih =>
    have apart : b ≠ high ∧ b ≠ low := by
      constructor
      · rintro rfl
        rw [escapedByte?, noDigit] at digits
        cases digits
      · rintro rfl
        rw [escapedByte?, noDigit] at digits
        cases first : Pattern.hexDigit? (Char.ofNat high.toNat) with
        | none =>
          rw [first] at digits
          cases digits
        | some digit =>
          rw [first] at digits
          cases digits
    simp only [List.mem_cons, ne, apart, false_or] at mem
    exact List.mem_cons_of_mem _ (ih mem)

/-- A text whose escapes are resolved does not come out behind a piece of itself: the piece would stand in front
of what is left again and again. `turn` leaves the piece alone, and what follows the text begins with none
of its bytes. -/
lemma ne_append {piece behind turn} (some : piece ≠ []) (plain : ∀ b ∈ piece, b ≠ 37 ∧ turn b = b)
    (stop : ∀ b ∈ behind.head?, b ∉ piece) (decodes : Decodes text out) : text ++ behind ≠ piece ++ out.map turn := by
  have free : 37 ∉ piece := fun mem => (plain 37 mem).1 rfl
  have turned : piece.map turn = piece := List.map_congr_left (fun b mem => (plain b mem).2) |>.trans (List.map_id _)
  induction length : text.length using Nat.strongRecOn generalizing text out with
  | ind n ih =>
    subst length
    intro eq
    have begins : ∃ rest, text = piece ++ rest := by
      rcases List.append_eq_append_iff.mp eq with ⟨more, longer, left⟩ | ⟨rest, shorter, _⟩
      · cases more with
        | nil => exact ⟨[], by rw [longer, List.append_nil, List.append_nil]⟩
        | cons b more =>
          have within : b ∈ piece := longer ▸ List.mem_append_right _ List.mem_cons_self
          exact absurd within (stop b (by rw [left]; rfl))
      · exact ⟨rest, shorter⟩
    obtain ⟨rest, rfl⟩ := begins
    obtain ⟨out, rfl, later⟩ := exists_of_append free decodes
    rw [List.append_assoc, List.map_append, turned] at eq
    have shorter : rest.length < (piece ++ rest).length := by
      have := List.length_pos_iff.mpr some
      rw [List.length_append]
      omega
    exact ih _ shorter later rfl (List.append_cancel_left eq)

end Decodes

namespace Reference

lemma decode_eq_ok_iff {cs out} :
    decode cs = .ok out ↔ Decodes (Utf8.ofString (String.ofList cs)) out :=
  ⟨decodes_of_unescape, unescape_of_decodes⟩

variable {main fragment authority rest : List Char} {scheme host : String} {reference : Reference}

lemma isClear_of_readMain (read : readMain main = .ok reference) : ∀ c ∈ main, IsClear c := by
  by_contra control
  have control : main.any (fun c => c.toNat < 32 || c.toNat = 127) = true := by
    push Not at control
    obtain ⟨c, mem, control⟩ := control
    refine List.any_eq_true.mpr ⟨c, mem, ?_⟩
    simp only [Bool.or_eq_true, decide_eq_true_eq]
    unfold IsClear at control
    omega
  unfold readMain at read
  simp only [control, if_true] at read
  cases read

/-- The path of a reference ends at the first question mark. -/
lemma readMain_append (divided : Divided main scheme host authority rest)
    (clear : ∀ c ∈ authority ++ '/' :: rest, IsClear c) :
    readMain main = (decode ('/' :: rest.takeWhile (· ≠ '?'))).map
      fun path => { scheme, authority := host, path } := by
  have control : main.any (fun c => c.toNat < 32 || c.toNat = 127) = false :=
    any_control_eq_false (divided.isClear clear)
  unfold readMain
  simp only [control, divided.ne_star, if_false, Bool.false_eq_true, divided.splitScheme_eq, bind, Except.bind,
    toLower_scheme divided.known, divided.takeWhile_query, divided.takeWhile_slash, divided.dropWhile_slash,
    divided.read, divided.scheme_ne, decide_false, Bool.false_and]
  rfl

/-- A reference is cut at its first `#`. -/
lemma parse_eq_ok_iff {text} (chars : text.toList = main ++ '#' :: fragment) (first : '#' ∉ main) :
    parse text = .ok reference ↔ ∃ front bytes, readMain main = .ok front ∧
      Decodes (Utf8.ofString (String.ofList fragment)) bytes ∧ reference = { front with fragment := bytes } := by
  rw [parse, chars, Text.cutChars_append first]
  simp only [Option.getD_some, bind, Except.bind]
  cases readMain main with
  | error fault => simp
  | ok front =>
    cases read : decode fragment with
    | error fault =>
      simp only [← decode_eq_ok_iff, read]
      simp
    | ok bytes =>
      simp only [← decode_eq_ok_iff, read]
      simp [pure, Except.pure, eq_comm]

end Reference

end Url

end Sift
