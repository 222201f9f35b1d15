import Sift.Config.Validation
import Sift.Report
import Sift.Proofs.Unicode.Case

/-!
# Names of formats

The name of a format is checked by folding its case, and a report is made in the format that the name is
in lower case. The two differ on letters outside ASCII: a long s folds to an s but has no other lower-case
form, and the lower-case form of the dotted capital I is an i, to which it does not fold. So the names that
pass the check are those that a report can be made for just as far as such letters are not in them
(`Report.Format.checked_iff_known_iff`).
-/

namespace Sift

open Unicode (IsSmall Spells longS dottedI kelvin)

namespace Config

lemma isSmall_of_mem_formats {word} (mem : word ∈ formats) : ∀ l ∈ word.toList, IsSmall l := by
  have all : formats.all (fun word => word.toList.all fun l => decide (IsSmall l)) = true := by decide
  intro l letter
  exact of_decide_eq_true (List.all_eq_true.mp (List.all_eq_true.mp all word mem) l letter)

/-- No name of a format has a k, so that the Kelvin sign does not stand in one. -/
lemma spells_format_iff {word} (mem : word ∈ formats) (standIn : Char × Char) (name : String) :
    Spells [standIn, (kelvin, 'k')] name word ↔ Spells [standIn] name word := by
  have all : formats.all (fun word => !word.toList.contains 'k') = true := by decide
  have lacks : 'k' ∉ word.toList := by
    have lacks := List.all_eq_true.mp all word mem
    rwa [Bool.not_eq_true', List.contains_eq_mem, decide_eq_false_iff_not] at lacks
  refine ⟨fun spells => spells.of_standIns ?_, fun spells => spells.of_standIns ?_⟩
  · intro pair used _ letter
    rcases List.mem_cons.mp used with rfl | used
    · exact List.mem_cons_self
    · rw [List.mem_singleton.mp used] at letter
      exact absurd letter lacks
  · intro pair used _ _
    rw [List.mem_singleton.mp used]
    exact List.mem_cons_self

/-- A name passes the check just when it is empty or spells the name of a format, maybe with a long s. -/
lemma checkFormat_iff_spells (name : String) :
    checkFormat name = .ok () ↔ name = "" ∨ ∃ word ∈ formats, Spells [(longS, 's')] name word := by
  have listed : formats.any (Unicode.equalFold name ·) = true ↔
      ∃ word ∈ formats, Spells [(longS, 's')] name word := by
    rw [List.any_eq_true]
    refine exists_congr fun word => and_congr_right fun mem => ?_
    rw [Unicode.equalFold_iff_spells (isSmall_of_mem_formats mem)]
    exact spells_format_iff mem _ name
  simp only [checkFormat, Bool.or_eq_true, decide_eq_true_eq, listed]
  split
  case isTrue passes => exact iff_of_true rfl passes
  case isFalse fails => exact iff_of_false (by rintro ⟨⟩) fails

end Config

namespace Report.Format

open Config (formats checkFormat)

/-- A name has a format just when it is empty or spells the name of one, maybe with a dotted capital I. -/
lemma isSome_ofName?_iff_spells (name : String) :
    (ofName? name).isSome = true ↔ name = "" ∨ ∃ word ∈ formats, Spells [(dottedI, 'i')] name word := by
  have lower : (ofName? name).isSome = true ↔
      Unicode.lowerString name = "" ∨ ∃ word ∈ formats, Unicode.lowerString name = word := by
    unfold ofName?
    split <;> simp_all [formats]
  rw [lower, Unicode.lowerString_eq_iff_spells (List.forall_mem_nil _), Spells.empty_iff]
  refine or_congr_right (exists_congr fun word => and_congr_right fun mem => ?_)
  rw [Unicode.lowerString_eq_iff_spells (Config.isSmall_of_mem_formats mem)]
  exact Config.spells_format_iff mem _ name

/-- Where the name of a format may be spelt with one stand-in, it can be spelt with another just when the
first is not used. -/
lemma spells_other_iff {c c'} (ne : c ≠ c') (foreign : 128 ≤ c.toNat) {l l' name}
    (spells : name = "" ∨ ∃ word ∈ formats, Spells [(c, l)] name word) :
    (name = "" ∨ ∃ word ∈ formats, Spells [(c', l')] name word) ↔ c ∉ name.toList := by
  constructor
  · rintro (rfl | ⟨word, mem, spells'⟩)
    · exact List.not_mem_nil
    · intro member
      obtain ⟨k, letter, stands⟩ := spells'.exists_stands member
      have standIn := stands.mem_of_foreign (Config.isSmall_of_mem_formats mem k letter) foreign
      exact ne (congrArg Prod.fst (List.mem_singleton.mp standIn))
  · intro unused
    refine spells.imp_right ?_
    rintro ⟨word, mem, spells⟩
    refine ⟨word, mem, spells.of_standIns ?_⟩
    intro pair used member _
    rw [List.mem_singleton.mp used] at member
    exact absurd member unused

/-- A name passes the check just when it is empty or spells the name of a format in small letters and
capitals, with long s for some s; and a report can be made for it just when it is empty or spells such a
name with dotted capital I for some i. So the two agree on a name unless it passes the check and has a long
s, or a report can be made for it and it has a dotted capital I. -/
theorem checked_iff_known_iff (name : String) :
    (checkFormat name = .ok () ↔ name = "" ∨ ∃ word ∈ formats, Spells [(longS, 's')] name word) ∧
    ((ofName? name).isSome = true ↔ name = "" ∨ ∃ word ∈ formats, Spells [(dottedI, 'i')] name word) ∧
    ((checkFormat name = .ok () ↔ (ofName? name).isSome = true) ↔
      (checkFormat name = .ok () → longS ∉ name.toList) ∧
        ((ofName? name).isSome = true → dottedI ∉ name.toList)) := by
  refine ⟨Config.checkFormat_iff_spells name, isSome_ofName?_iff_spells name, ?_⟩
  rw [Config.checkFormat_iff_spells, isSome_ofName?_iff_spells]
  constructor
  · intro agree
    exact ⟨fun checked => (spells_other_iff (by decide) (by decide) checked).mp (agree.mp checked),
      fun known => (spells_other_iff (by decide) (by decide) known).mp (agree.mpr known)⟩
  · rintro ⟨plain, plain'⟩
    exact ⟨fun checked => (spells_other_iff (by decide) (by decide) checked).mpr (plain checked),
      fun known => (spells_other_iff (by decide) (by decide) known).mpr (plain' known)⟩

/-- With a long s the name of a format passes the check but has no format, and with a dotted capital I it is
the other way round. -/
theorem checked_apart_from_known :
    checkFormat "j\u017Fon" = .ok () ∧ ofName? "j\u017Fon" = none ∧
      checkFormat "sar\u0130f" ≠ .ok () ∧ ofName? "sar\u0130f" = some .sarif := by
  have lower : Unicode.lowerString "sar\u0130f" = "sarif" :=
    (Unicode.lowerString_eq_iff_spells (Config.isSmall_of_mem_formats (by decide)) _).mpr (by decide)
  refine ⟨(Config.checkFormat_iff_spells _).mpr (.inr ⟨"json", by decide⟩), ?_, ?_, ?_⟩
  · rw [← Option.not_isSome_iff_eq_none, isSome_ofName?_iff_spells]
    decide
  · rw [ne_eq, Config.checkFormat_iff_spells]
    decide
  · rw [ofName?, lower]
    rfl

end Report.Format

end Sift
