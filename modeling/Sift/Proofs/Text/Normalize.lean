import Mathlib.Data.List.DropRight
import Sift.Proofs.Unicode.Case
import Sift.Text.Blank

/-!
# Names trimmed and in lower case

The lower-case form of a code point has itself as its lower-case form (`Unicode.toLower_toLower`), and it is
white space just if the code point is (`Unicode.isSpace_toLower`): both are read off the table. So it makes no
difference whether a name is trimmed before it is lowered or after, and neither the white space around a name
nor the case of its letters matters to its normal form, which is normal itself
(`Text.normalize_pad`, `Text.normalize_of_lowerString_eq`, `Text.normalize_normalize`).
-/

namespace Sift

namespace Unicode

/-- The ranges of white space. -/
def blankRanges : List (Nat × Nat) :=
  [(9, 13), (0x20, 0x20), (0x85, 0x85), (0xA0, 0xA0), (0x1680, 0x1680), (0x2000, 0x200A), (0x2028, 0x2029),
    (0x202F, 0x202F), (0x205F, 0x205F), (0x3000, 0x3000)]

lemma isSpace_iff {c} : isSpace c = true ↔ ∃ range ∈ blankRanges, range.1 ≤ c ∧ c ≤ range.2 := by
  simp only [isSpace, blankRanges, Bool.or_eq_true, Bool.and_eq_true, decide_eq_true_eq, beq_iff_eq,
    List.exists_mem_cons_iff, List.not_mem_nil, false_and, exists_false, or_false]
  omega

namespace CaseSpan

/-- Whether a code point is in a span. -/
def covers (span : CaseSpan) (c : Nat) : Bool :=
  span.first ≤ c && c ≤ span.last && (c - span.first) % span.step == 0

/-- The code point that a span leads to from another one. -/
def image (span : CaseSpan) (c : Nat) : Nat := ((c : Int) + span.offset).toNat

/-- Whether a span covers none of the code points from `low` on that are `step` apart, up to `high`. -/
def misses (low high step : Nat) (span : CaseSpan) : Bool :=
  Nat.blt high span.first || (Nat.blt span.last low ||
    ((low == high || step % span.step == 0) && (low - span.first) % span.step != 0 && Nat.ble span.first low))

/-- Whether a span leads to no capital of ASCII, and to nothing that one of some spans covers. -/
def isFinal (spans : List CaseSpan) (span : CaseSpan) : Bool :=
  Nat.blt 90 (span.image span.first) &&
    spans.all (misses (span.image span.first) (span.image span.last) span.step)

/-- Whether a span neither covers white space nor leads to it. -/
def isBlack (span : CaseSpan) : Bool :=
  blankRanges.all fun range =>
    (Nat.blt span.last range.1 || Nat.blt range.2 span.first) &&
      (Nat.blt (span.image span.last) range.1 || Nat.blt range.2 (span.image span.first))

end CaseSpan

set_option maxRecDepth 100000 in
lemma all_isFinal : lowercaseSpans.all (fun span => span.isFinal lowercaseSpans && span.isBlack) = true := by
  unfold lowercaseSpans lowercaseTable
  simp only [List.flatMap_cons, List.flatMap_nil]
  repeat rw [String.toList_ofList]
  decide +kernel

/-- A code point is its own lower-case form unless a span covers it. -/
lemma toLower_cases (c : Nat) :
    (c < 128 ∧ toLower c = if 65 ≤ c ∧ c ≤ 90 then c + 32 else c) ∨
      (∃ span ∈ lowercaseSpans, span.covers c = true ∧ toLower c = span.image c) ∨
      (∀ span ∈ lowercaseSpans, span.covers c = false) ∧ toLower c = c := by
  rw [toLower_eq_lowered, lowered]
  by_cases ascii : c < 128
  · exact .inl ⟨ascii, if_pos ascii⟩
  · rw [if_neg ascii]
    cases found : lowercaseSpans.find? fun span =>
        span.first ≤ c && c ≤ span.last && (c - span.first) % span.step == 0 with
    | some span =>
      have covered := List.find?_some found
      exact .inr (.inl ⟨span, List.mem_of_find?_eq_some found, covered, rfl⟩)
    | none =>
      refine .inr (.inr ⟨fun span mem => ?_, rfl⟩)
      exact Bool.eq_false_iff.mpr (List.find?_eq_none.mp found span mem)

/-- What a span covers lies as far behind its first code point as the images of the two lie apart. -/
lemma CaseSpan.exists_of_covers {span : CaseSpan} {c} (pos : 0 < span.image span.first)
    (covers : span.covers c = true) :
    ∃ more, span.step ∣ more ∧ c = span.first + more ∧ span.image c = span.image span.first + more ∧
      c ≤ span.last ∧ span.image c ≤ span.image span.last := by
  simp only [CaseSpan.covers, Bool.and_eq_true, decide_eq_true_eq, beq_iff_eq] at covers
  obtain ⟨⟨ge, le⟩, step⟩ := covers
  unfold image at pos ⊢
  exact ⟨c - span.first, Nat.dvd_of_mod_eq_zero step, by omega, by omega, le, by omega⟩

lemma CaseSpan.not_covers_of_misses {low high step more} {span : CaseSpan}
    (misses : span.misses low high step = true) (multiple : step ∣ more) (le : low + more ≤ high) :
    span.covers (low + more) = false := by
  refine Bool.eq_false_iff.mpr fun covers => ?_
  simp only [CaseSpan.covers, CaseSpan.misses, Bool.and_eq_true, Bool.or_eq_true, decide_eq_true_eq, beq_iff_eq,
    bne_iff_ne, Nat.blt_eq, Nat.ble_eq] at covers misses
  obtain ⟨⟨ge, within⟩, mod⟩ := covers
  rcases misses with before | behind | ⟨⟨apart, off⟩, first_le⟩
  · omega
  · omega
  · -- The two are as far apart as before, modulo the step of the span.
    have dvd : span.step ∣ more := by
      rcases apart with single | steps
      · rw [show more = 0 by omega]
        exact Nat.dvd_zero _
      · exact Nat.dvd_trans (Nat.dvd_of_mod_eq_zero steps) multiple
    rw [show low + more - span.first = low - span.first + more by omega] at mod
    exact off (Nat.mod_eq_zero_of_dvd ((Nat.dvd_add_left dvd).mp (Nat.dvd_of_mod_eq_zero mod)))

/-- What the table says of one of its spans. -/
lemma final_of_mem {span} (mem : span ∈ lowercaseSpans) :
    90 < span.image span.first ∧
      (∀ other ∈ lowercaseSpans,
        other.misses (span.image span.first) (span.image span.last) span.step = true) ∧
      ∀ range ∈ blankRanges, (span.last < range.1 ∨ range.2 < span.first) ∧
        (span.image span.last < range.1 ∨ range.2 < span.image span.first) := by
  have final := List.all_eq_true.mp all_isFinal span mem
  simpa only [CaseSpan.isFinal, CaseSpan.isBlack, Bool.and_eq_true, Bool.or_eq_true, Nat.blt_eq,
    List.all_eq_true, and_assoc] using final

/-- A lower-case form is its own lower-case form. -/
lemma toLower_toLower (c : Nat) : toLower (toLower c) = toLower c := by
  rcases toLower_cases c with ⟨ascii, eq⟩ | ⟨span, mem, covers, eq⟩ | ⟨_, eq⟩
  · have small : toLower c < 128 ∧ ¬ (65 ≤ toLower c ∧ toLower c ≤ 90) := by
      rw [eq]
      split <;> omega
    generalize toLower c = d at small
    rw [toLower, if_pos small.1, if_neg small.2]
  · obtain ⟨capitals, misses, _⟩ := final_of_mem mem
    obtain ⟨more, multiple, _, image, _, le⟩ := CaseSpan.exists_of_covers (by omega) covers
    rw [eq]
    rcases toLower_cases (span.image c) with ⟨_, eq'⟩ | ⟨other, mem', covers', _⟩ | ⟨_, eq'⟩
    · rw [eq', if_neg (by omega)]
    · rw [image] at le covers'
      rw [CaseSpan.not_covers_of_misses (misses other mem') multiple le] at covers'
      cases covers'
    · exact eq'
  · rw [eq, eq]

/-- Lower-case forms are white space where the code points are. -/
lemma isSpace_toLower (c : Nat) : isSpace (toLower c) = isSpace c := by
  rcases toLower_cases c with ⟨ascii, eq⟩ | ⟨span, mem, covers, eq⟩ | ⟨_, eq⟩
  · have all : ∀ c < 128, isSpace (if 65 ≤ c ∧ c ≤ 90 then c + 32 else c) = isSpace c := by decide
    rw [eq, all c ascii]
  · obtain ⟨capitals, _, black⟩ := final_of_mem mem
    obtain ⟨more, _, here, image, le, le'⟩ := CaseSpan.exists_of_covers (by omega) covers
    rw [eq, Bool.eq_iff_iff, isSpace_iff, isSpace_iff]
    constructor
    · rintro ⟨range, listed, bounds⟩
      have := (black range listed).2
      omega
    · rintro ⟨range, listed, bounds⟩
      have := (black range listed).1
      omega
  · rw [eq]

/-- The code point of a lower-case form, unless there is no such character. -/
lemma toNat_lowerChar_cases (c : Char) :
    (lowerChar c).toNat = toLower c.toNat ∨ (lowerChar c).toNat = 0 ∧ ¬ (toLower c.toNat).isValidChar := by
  by_cases valid : (toLower c.toNat).isValidChar
  · refine .inl ?_
    rw [lowerChar, Char.ofNat, dif_pos valid]
    rfl
  · refine .inr ⟨?_, valid⟩
    rw [lowerChar, Char.ofNat, dif_neg valid]
    rfl

/-- Lower case stays. -/
lemma lowerChar_lowerChar (c : Char) : lowerChar (lowerChar c) = lowerChar c := by
  rcases toNat_lowerChar_cases c with eq | ⟨eq, _⟩
  · rw [lowerChar, eq, toLower_toLower, lowerChar]
  · rw [show lowerChar c = '\x00' from Char.toNat_inj.mp eq]
    decide

end Unicode

namespace Text

/-- Lower case keeps blanks. -/
lemma isBlank_lowerChar (c : Char) : isBlank (Unicode.lowerChar c) = isBlank c := by
  rw [isBlank, isBlank]
  rcases Unicode.toNat_lowerChar_cases c with eq | ⟨eq, invalid⟩
  · rw [eq, Unicode.isSpace_toLower]
  · -- White space has no code point that stands for no character.
    have bounded : ∀ range ∈ Unicode.blankRanges, range.2 < 0xD800 := by decide
    rw [eq, ← Unicode.isSpace_toLower c.toNat]
    refine Eq.symm (Bool.eq_false_iff.mpr fun space => ?_)
    obtain ⟨range, listed, _, le⟩ := Unicode.isSpace_iff.mp space
    exact invalid (.inl (Nat.lt_of_le_of_lt le (bounded range listed)))

lemma trimFront_map {f} (same : ∀ c, isBlank (f c) = isBlank c) (cs : List Char) :
    trimFront (cs.map f) = (trimFront cs).map f := by
  have comp : isBlank ∘ f = isBlank := funext same
  rw [trimFront, List.dropWhile_map, comp, trimFront]

lemma trimFront_append {front} (blank : ∀ c ∈ front, isBlank c = true) (cs : List Char) :
    trimFront (front ++ cs) = trimFront cs := List.dropWhile_append_of_pos blank

/-- White space in front is not looked at, and neither is white space behind. -/
lemma trimChars_append {front back} (blank : ∀ c ∈ front, isBlank c = true) (blank' : ∀ c ∈ back, isBlank c = true)
    (cs : List Char) :
    trimChars (front ++ cs ++ back) = trimChars cs := by
  rw [trimChars, List.append_assoc, trimFront_append blank, trimChars]
  by_cases none : trimFront cs = []
  · have all : trimFront (cs ++ back) = [] := by
      rw [trimFront, List.dropWhile_eq_nil_iff] at none ⊢
      intro c mem
      exact (List.mem_append.mp mem).elim (none c) (blank' c)
    rw [all, none]
  · have some : ¬ (cs.dropWhile isBlank).isEmpty = true := mt List.isEmpty_iff.mp none
    have behind : trimFront (cs ++ back) = trimFront cs ++ back := by
      rw [trimFront, List.dropWhile_append, if_neg some, trimFront]
    rw [behind, List.reverse_append, trimFront_append fun c mem => blank' c (List.mem_reverse.mp mem)]

/-- What is trimmed away is white space. -/
lemma exists_trimChars (cs : List Char) : ∃ front back, cs = front ++ trimChars cs ++ back ∧
    (∀ c ∈ front, isBlank c = true) ∧ ∀ c ∈ back, isBlank c = true := by
  refine ⟨cs.takeWhile isBlank, ((trimFront cs).reverse.takeWhile isBlank).reverse, ?_, ?_, ?_⟩
  · have behind := congrArg List.reverse
      (List.takeWhile_append_dropWhile (p := isBlank) (l := (trimFront cs).reverse))
    rw [List.reverse_append, List.reverse_reverse] at behind
    rw [List.append_assoc, trimChars, trimFront, behind, trimFront, List.takeWhile_append_dropWhile]
  · exact fun c mem => List.mem_takeWhile_imp mem
  · exact fun c mem => List.mem_takeWhile_imp (List.mem_reverse.mp mem)

/-- Blanks around a string are trimmed. -/
lemma trim_pad {front back} (blank : ∀ c ∈ front.toList, isBlank c = true)
    (blank' : ∀ c ∈ back.toList, isBlank c = true) (s : String) : trim (front ++ s ++ back) = trim s := by
  rw [trim, String.toList_append, String.toList_append, trimChars_append blank blank', trim]

lemma trim_trim (s : String) : trim (trim s) = trim s := by
  obtain ⟨front, back, eq, blank, blank'⟩ := exists_trimChars s.toList
  have padded := trimChars_append blank blank' (trimChars s.toList)
  rw [← eq] at padded
  rw [trim, trim, String.toList_ofList, ← padded]

/-- A name may be trimmed before or after it is lowered. -/
lemma trim_lowerString (s : String) : trim (Unicode.lowerString s) = Unicode.lowerString (trim s) := by
  refine String.toList_inj.mp ?_
  rw [trim, trim, Unicode.lowerString, Unicode.lowerString, String.toList_map, String.toList_map,
    String.toList_ofList, String.toList_ofList, trimChars, trimFront_map isBlank_lowerChar, ← List.map_reverse,
    trimFront_map isBlank_lowerChar, ← List.map_reverse, trimChars]

lemma lowerString_lowerString (s : String) :
    Unicode.lowerString (Unicode.lowerString s) = Unicode.lowerString s := by
  refine String.toList_inj.mp ?_
  rw [Unicode.lowerString, Unicode.lowerString, String.toList_map, String.toList_map, List.map_map]
  exact List.map_congr_left fun c _ => Unicode.lowerChar_lowerChar c

/-- A normal form is normal. -/
lemma normalize_normalize (s : String) : normalize (normalize s) = normalize s := by
  rw [normalize, normalize, trim_lowerString, trim_trim, lowerString_lowerString]

/-- Names that are the same in lower case have the same normal form. -/
lemma normalize_of_lowerString_eq {s t} (eq : Unicode.lowerString s = Unicode.lowerString t) :
    normalize s = normalize t := by
  rw [normalize, normalize, ← trim_lowerString, eq, trim_lowerString]

/-- White space around a name does not matter to its normal form. -/
lemma normalize_pad {front back} (blank : ∀ c ∈ front.toList, isBlank c = true)
    (blank' : ∀ c ∈ back.toList, isBlank c = true) (s : String) : normalize (front ++ s ++ back) = normalize s := by
  rw [normalize, trim_pad blank blank', normalize]

end Text

end Sift
