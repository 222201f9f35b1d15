import Sift.Proofs.Language
import Sift.Proofs.Text.Normalize
import Sift.Proofs.Utf8

/-!
# The normal form of a list of languages

A list of languages is told by its normal form up to order, repeats, letter case and white space: lists whose
names are the same but for these have one normal form, which is its own normal form (`normalize_canonical`).
-/

namespace Sift.Language

/-- The one name is the other one but for letter case and white space around it. -/
def Respells (spelt name : String) : Prop :=
  ∃ front inner back, spelt = front ++ inner ++ back ∧ (∀ c ∈ front.toList, Text.isBlank c = true) ∧
    (∀ c ∈ back.toList, Text.isBlank c = true) ∧ Unicode.lowerString inner = Unicode.lowerString name

lemma Respells.normalize_eq {spelt name} (respells : Respells spelt name) :
    Text.normalize spelt = Text.normalize name := by
  obtain ⟨front, inner, back, rfl, blank, blank', lower⟩ := respells
  rw [Text.normalize_pad blank blank', Text.normalize_of_lowerString_eq lower]

/-- Lists have the same normal form if the normal forms of their names are the same but for order and
repeats. -/
lemma normalize_congr {names others}
    (found : ∀ other ∈ others, ∃ name ∈ names, Text.normalize other = Text.normalize name)
    (found' : ∀ name ∈ names, ∃ other ∈ others, Text.normalize other = Text.normalize name) :
    normalize others = normalize names := by
  refine (normalize_pairwise others).eq_of_mem_iff (normalize_pairwise names) fun language => ?_
  rw [mem_normalize, mem_normalize]
  refine and_congr_right fun _ => ⟨?_, ?_⟩
  · rintro ⟨other, mem, rfl⟩
    obtain ⟨name, mem', eq⟩ := found other mem
    exact ⟨name, mem', eq.symm⟩
  · rintro ⟨name, mem, rfl⟩
    exact found' name mem

lemma normalize_idem (names : List String) : normalize (normalize names) = normalize names := by
  refine normalize_eq_self (normalize_pairwise names) fun language mem => ?_
  obtain ⟨ne, name, _, rfl⟩ := mem_normalize.mp mem
  exact ⟨ne, Text.normalize_normalize name⟩

/-- Normalized languages ascend strictly, byte by byte, and they are the trimmed names in lower case that are
not empty. Two lists have the same normal form if each name of the one is a name of the other but for letter
case and white space around it, in whatever order and however often names occur; and a normal form is normal. -/
theorem normalize_canonical (names : List String) :
    ((normalize names).Pairwise fun a b => Utf8.ofString a < Utf8.ofString b) ∧
    (∀ language, language ∈ normalize names ↔
      language ≠ "" ∧ ∃ name ∈ names, Unicode.lowerString (Text.trim name) = language) ∧
    (∀ others, (∀ spelt ∈ others, ∃ name ∈ names, Respells spelt name) →
      (∀ name ∈ names, ∃ spelt ∈ others, Respells spelt name) → normalize others = normalize names) ∧
    normalize (normalize names) = normalize names := by
  refine ⟨?_, fun language => mem_normalize, ?_, normalize_idem names⟩
  · exact (normalize_pairwise names).imp Utf8.ofString_lt_ofString
  · intro others found found'
    refine normalize_congr (fun spelt mem => ?_) fun name mem => ?_
    · obtain ⟨name, mem', respells⟩ := found spelt mem
      exact ⟨name, mem', respells.normalize_eq⟩
    · obtain ⟨spelt, mem', respells⟩ := found' name mem
      exact ⟨spelt, mem', respells.normalize_eq⟩

/-- White space and capitals do not matter, and neither do repeats and order. -/
theorem normalize_canonical_respelt :
    (∀ spelt ∈ ["\tGO ", "c", "go", "C"], ∃ name ∈ ["c", "go"], Respells spelt name) ∧
      (∀ name ∈ ["c", "go"], ∃ spelt ∈ ["\tGO ", "c", "go", "C"], Respells spelt name) ∧
      normalize ["\tGO ", "c", "go", "C"] = ["c", "go"] := by
  have tab : ∀ c ∈ "\t".toList, Text.isBlank c = true := List.all_eq_true.mp (by decide)
  have space : ∀ c ∈ " ".toList, Text.isBlank c = true := List.all_eq_true.mp (by decide)
  have none : ∀ c ∈ "".toList, Text.isBlank c = true := by simp
  have lower : Unicode.lowerString "GO" = "go" ∧ Unicode.lowerString "go" = "go" ∧
      Unicode.lowerString "C" = "c" ∧ Unicode.lowerString "c" = "c" := by decide +kernel
  have go : Respells "\tGO " "go" := ⟨"\t", "GO", " ", rfl, tab, space, lower.1.trans lower.2.1.symm⟩
  have capital : Respells "C" "c" := ⟨"", "C", "", by simp, none, none, lower.2.2.1.trans lower.2.2.2.symm⟩
  have same : ∀ name, Respells name name := fun name => ⟨"", name, "", by simp, none, none, rfl⟩
  have found : ∀ spelt ∈ ["\tGO ", "c", "go", "C"], ∃ name ∈ ["c", "go"], Respells spelt name := by
    simp [go, capital, same]
  have found' : ∀ name ∈ ["c", "go"], ∃ spelt ∈ ["\tGO ", "c", "go", "C"], Respells spelt name := by
    simp [same]
  have normal : normalize ["c", "go"] = ["c", "go"] :=
    normalize_eq_self (by decide +kernel) (by decide +kernel)
  have respelt := (normalize_canonical ["c", "go"]).2.2.1 _ found found'
  exact ⟨found, found', respelt.trans normal⟩

end Sift.Language
