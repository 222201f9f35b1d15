import Sift.Baseline.Fingerprint
import Sift.Proofs.Text.Fields

/-!
# Digests and the layout of a text

The fields of a text are still those of the text once it is collapsed (`fielded_collapse`), because a single
blank between two fields parts them as well as any other white space. So the collapsed text tells the fields and
nothing else, and the digest does not depend on the layout (`matchDigest_canonical`). A digest has sixty-four
digits (`Digest.length_sha256`), so that only a text without fields has an empty one.
-/

namespace Sift

lemma Text.length_hex {digits n} (pos : 0 < digits) (lt : n < Nat.pow 16 digits) :
    (Text.hex digits n).length = digits := by
  have fits : (Nat.toDigits 16 n).length ≤ digits := (Nat.length_toDigits_le_iff (by decide) pos).mpr lt
  rw [hex, String.length_ofList, List.length_append, List.length_replicate]
  omega

/-- Every digest has sixty-four digits. -/
lemma Digest.length_sha256 (text : Bytes) : (sha256 text).length = 64 := by
  have word (word : UInt32) : (Text.hex 8 word.toNat).length = 8 := Text.length_hex (by decide) word.toNat_lt
  rw [sha256, String.length_join, List.map_map, State.words]
  simp only [List.map_cons, List.map_nil, Function.comp_apply, word]
  rfl

namespace Baseline

open Text (Blank Fielded)
open Utf8 (ofString)

variable {a b : Bytes} {fields : List Bytes}

/-- A collapsed text is its fields with a single blank between any two of them. -/
lemma collapse_eq (shown : Fielded a fields) : collapse a = [32].intercalate fields := by
  rw [collapse, shown.byteFields_eq]

/-- A collapsed text shows the fields of the text. -/
lemma fielded_collapse (shown : Fielded a fields) : Fielded (collapse a) fields := by
  rw [collapse_eq shown]
  exact Text.fielded_intercalate fun _ mem => shown.word_of_mem mem

/-- Texts that show the same fields have the same digest. -/
lemma matchDigest_congr (shown : Fielded a fields) (shown' : Fielded b fields) : matchDigest a = matchDigest b := by
  rw [matchDigest, matchDigest, collapse_eq shown, collapse_eq shown']

lemma collapse_eq_nil_iff (shown : Fielded a fields) : collapse a = [] ↔ fields = [] := by
  constructor
  · intro none
    have same := (fielded_collapse shown).byteFields_eq
    rw [none] at same
    exact same.symm
  · intro none
    rw [collapse_eq shown, none]
    rfl

/-- The digest of a text is that of the collapsed text, if there is a field at all. -/
lemma matchDigest_eq (shown : Fielded a fields) :
    matchDigest a = if fields = [] then "" else Digest.sha256 (collapse a) := by
  simp only [matchDigest, List.isEmpty_iff, collapse_eq_nil_iff shown]

lemma matchDigest_eq_empty_iff (shown : Fielded a fields) : matchDigest a = "" ↔ fields = [] := by
  rw [matchDigest_eq shown]
  constructor
  · intro empty
    by_contra some
    have length := Digest.length_sha256 (collapse a)
    rw [if_neg some] at empty
    rw [empty] at length
    cases length
  · intro none
    exact if_pos none

/-- A text has one list of fields. What is digested is these fields with a single blank between any two of them,
unless there is none, in which case the digest is empty, and in no other. So two texts are digested as the same
text just if they have the same fields. White space between two parts of a text may be replaced by other white
space and put around a text, and the digest stays. -/
theorem matchDigest_canonical (a b : Bytes) :
    (∃! fields, Fielded a fields) ∧
      (∀ fields, Fielded a fields → collapse a = [32].intercalate fields ∧
        matchDigest a = if fields = [] then "" else Digest.sha256 (collapse a)) ∧
      (collapse a = collapse b ↔ ∃ fields, Fielded a fields ∧ Fielded b fields) ∧
      (matchDigest a = "" ↔ Fielded a []) ∧
      (∀ fields, Fielded a fields → Fielded b fields → matchDigest a = matchDigest b) ∧
      (∀ gap gap' : String, gap ≠ "" → gap' ≠ "" → Blank gap → Blank gap' →
        matchDigest (a ++ ofString gap ++ b) = matchDigest (a ++ ofString gap' ++ b)) ∧
      ∀ lead trail : String, Blank lead → Blank trail →
        matchDigest (ofString lead ++ a ++ ofString trail) = matchDigest a := by
  have shown : Fielded a (Text.byteFields a) := Text.fielded_iff.mpr rfl
  have shown' : Fielded b (Text.byteFields b) := Text.fielded_iff.mpr rfl
  refine ⟨⟨_, shown, ?_⟩, ?_, ?_, ?_, ?_, ?_, ?_⟩
  · exact fun _ others => (Text.fielded_iff.mp others).symm
  · exact fun _ others => ⟨collapse_eq others, matchDigest_eq others⟩
  · constructor
    · intro same
      -- The fields of both are read back from the one collapsed text.
      have back := fielded_collapse shown'
      rw [← same, Text.fielded_iff, (fielded_collapse shown).byteFields_eq] at back
      exact ⟨_, back ▸ shown, shown'⟩
    · rintro ⟨others, first, second⟩
      rw [collapse_eq first, collapse_eq second]
  · rw [matchDigest_eq_empty_iff shown, Text.fielded_iff]
  · exact fun _ => matchDigest_congr
  · intro gap gap' ne ne' blank blank'
    exact matchDigest_congr (shown.append_gap ne blank shown') (shown.append_gap ne' blank' shown')
  · intro lead trail blank blank'
    exact matchDigest_congr (shown.pad blank blank') shown

/-- The spaces may be Unicode's, and a text that ends within a sequence keeps its digest too. -/
theorem matchDigest_canonical_respaced :
    collapse (ofString "\u3000eval(\u00A0 input )\n") = collapse (ofString "eval( input )") ∧
      matchDigest (ofString "\u3000eval(\u00A0 input )\n") = matchDigest (ofString "eval( input )") ∧
      collapse (ofString "eval( input )") = ofString "eval( input )" ∧
      matchDigest ([0xE2, 0x80] ++ ofString "\u2003" ++ [0x80]) =
        matchDigest ([0xE2, 0x80] ++ ofString "\r\n\t" ++ [0x80]) ∧
      matchDigest (ofString "\u0085\t" ++ [0xE2, 0x80] ++ ofString " ") = matchDigest [0xE2, 0x80] := by
  have shown := Text.fielded_ofString "\u3000eval(\u00A0 input )\n"
  have shown' := Text.fielded_ofString "eval( input )"
  have same : Text.fields "\u3000eval(\u00A0 input )\n" = Text.fields "eval( input )" := by decide
  have three : Text.fields "eval( input )" = ["eval(", "input", ")"] := by decide
  rw [same] at shown
  obtain ⟨-, -, collapsed, -, digest, -⟩ := matchDigest_canonical (ofString "\u3000eval(\u00A0 input )\n")
    (ofString "eval( input )")
  obtain ⟨-, joined, -⟩ := matchDigest_canonical (ofString "eval( input )") []
  obtain ⟨-, -, -, -, -, respaced, padded⟩ := matchDigest_canonical [0xE2, 0x80] [0x80]
  refine ⟨collapsed.mpr ⟨_, shown, shown'⟩, digest _ shown shown', ?_, ?_, ?_⟩
  · rw [(joined _ shown').1, three]
    decide +kernel
  · exact respaced "\u2003" "\r\n\t" (by decide) (by decide) (by decide) (by decide)
  · exact padded "\u0085\t" " " (by decide) (by decide)

end Baseline

end Sift
