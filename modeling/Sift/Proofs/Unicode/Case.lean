import Mathlib.Data.List.Forall2
import Mathlib.Tactic.Lemma
import Sift.Unicode.Folding

/-!
# Letters of ASCII in either case

Both mappings of case lead into ASCII from few places outside it: the long s and the Kelvin sign fold to
letters of ASCII, and the dotted capital I and the Kelvin sign have one as their lower-case form. So a
name is the same as a word of small letters but for case (`equalFold_iff_spells`), or becomes the word in
lower case (`lowerString_eq_iff_spells`), just when it spells the word, each with stand-ins of its own.
-/

namespace Sift.Unicode

/-- The mapping that lowers the capitals of ASCII and follows spans outside it. -/
def lowered (spans : List CaseSpan) (c : Nat) : Nat :=
  if c < 128 then if 65 ≤ c ∧ c ≤ 90 then c + 32 else c
  else
    ((spans.find? fun span => span.first ≤ c && c ≤ span.last && (c - span.first) % span.step == 0).map
      fun span => ((c : Int) + span.offset).toNat).getD c

lemma fold_eq_lowered (c : Nat) : fold c = lowered foldingSpans c := by
  unfold fold lowered
  generalize foldingSpans = spans
  cases spans.find? _ <;> rfl

lemma toLower_eq_lowered (c : Nat) : toLower c = lowered lowercaseSpans c := by
  unfold toLower lowered
  generalize lowercaseSpans = spans
  cases spans.find? _ <;> rfl

/-- Whether a span leads into ASCII from none but the given code points outside it. -/
def CaseSpan.staysOut (foreign : List Nat) (span : CaseSpan) : Bool :=
  span.last < 128 || 128 ≤ (span.first : Int) + span.offset ||
    (span.first == span.last && foreign.contains span.first)

lemma mem_of_lowered_lt {spans foreign} (out : spans.all (·.staysOut foreign) = true) {c} (le : 128 ≤ c)
    (lt : lowered spans c < 128) :
    c ∈ foreign := by
  rw [lowered, if_neg (by omega)] at lt
  cases found : spans.find? fun span =>
      span.first ≤ c && c ≤ span.last && (c - span.first) % span.step == 0 with
  | none =>
    rw [found, Option.map_none, Option.getD_none] at lt
    omega
  | some span =>
    rw [found, Option.map_some, Option.getD_some] at lt
    have within := List.find?_some found
    have stays := List.all_eq_true.mp out span (List.mem_of_find?_eq_some found)
    simp only [CaseSpan.staysOut, Bool.and_eq_true, Bool.or_eq_true, decide_eq_true_eq, beq_iff_eq,
      List.contains_iff_mem] at within stays
    rcases stays with (low | high) | ⟨single, mem⟩
    · omega
    · omega
    · have same : c = span.first := by omega
      exact same ▸ mem

/-- The long s. -/
def longS : Char := '\u017F'

/-- The dotted capital I. -/
def dottedI : Char := '\u0130'

/-- The Kelvin sign. -/
def kelvin : Char := '\u212A'

/-- The letters outside ASCII that fold to one of ASCII. -/
def foldStandIns : List (Char × Char) := [(longS, 's'), (kelvin, 'k')]

/-- The letters outside ASCII with a lower-case form in ASCII. -/
def lowerStandIns : List (Char × Char) := [(dottedI, 'i'), (kelvin, 'k')]

/-- Spans that lead into ASCII from the stand-ins only. -/
structure Leads (spans : List CaseSpan) (standIns : List (Char × Char)) : Prop where
  out : spans.all (·.staysOut (standIns.map (·.1.toNat))) = true
  image : ∀ pair ∈ standIns, 128 ≤ pair.1.toNat ∧ lowered spans pair.1.toNat = pair.2.toNat

-- The characters of a table's line are taken from the literal before the table is evaluated: it takes
-- long to decode its bytes.
set_option maxRecDepth 100000 in
lemma leads_foldingSpans : Leads foldingSpans foldStandIns := by
  constructor
  all_goals
    unfold foldingSpans foldingTable
    simp only [List.flatMap_cons, List.flatMap_nil]
    repeat rw [String.toList_ofList]
    decide +kernel

set_option maxRecDepth 100000 in
lemma leads_lowercaseSpans : Leads lowercaseSpans lowerStandIns := by
  constructor
  all_goals
    unfold lowercaseSpans lowercaseTable
    simp only [List.flatMap_cons, List.flatMap_nil]
    repeat rw [String.toList_ofList]
    decide +kernel

/-- A small letter of ASCII. -/
def IsSmall (l : Char) : Prop := 97 ≤ l.toNat ∧ l.toNat ≤ 122

instance (l : Char) : Decidable (IsSmall l) := inferInstanceAs (Decidable (_ ∧ _))

/-- A character that stands for a small letter: the letter, its capital or a stand-in. -/
def Stands (standIns : List (Char × Char)) (c l : Char) : Prop :=
  c = l ∨ c = l.toUpper ∨ (c, l) ∈ standIns

instance (standIns : List (Char × Char)) (c l : Char) : Decidable (Stands standIns c l) :=
  inferInstanceAs (Decidable (_ ∨ _))

lemma eq_toUpper_iff {c l} (small : IsSmall l) : c = l.toUpper ↔ c.toNat + 32 = l.toNat := by
  have all : ∀ n < 123, 97 ≤ n → (Char.ofNat n).toUpper.toNat + 32 = n := by decide
  have capital := all l.toNat (by have := small.2; omega) small.1
  rw [Char.ofNat_toNat] at capital
  constructor
  · rintro rfl
    exact capital
  · intro eq
    exact Char.toNat_inj.mp (by omega)

/-- Outside ASCII only stand-ins stand for a letter. -/
lemma Stands.mem_of_foreign {standIns c l} (stands : Stands standIns c l) (small : IsSmall l)
    (foreign : 128 ≤ c.toNat) : (c, l) ∈ standIns := by
  have bounds := small
  unfold IsSmall at bounds
  rw [Stands, eq_toUpper_iff small] at stands
  rcases stands with rfl | capital | standIn
  · omega
  · omega
  · exact standIn

/-- The mapping gives a small letter just for what stands for it. -/
lemma Leads.lowered_eq_iff {spans standIns} (leads : Leads spans standIns) {c l} (small : IsSmall l) :
    lowered spans c.toNat = l.toNat ↔ Stands standIns c l := by
  have bounds := small
  unfold IsSmall at bounds
  rw [Stands, eq_toUpper_iff small, ← Char.toNat_inj]
  by_cases lt : c.toNat < 128
  · have ascii : (c, l) ∉ standIns := fun mem => Nat.not_le.mpr lt (leads.image _ mem).1
    rw [lowered, if_pos lt, or_iff_left ascii]
    split <;> omega
  · constructor
    · intro eq
      obtain ⟨pair, mem, same⟩ :=
        List.mem_map.mp (mem_of_lowered_lt leads.out (Nat.le_of_not_lt lt) (by omega))
      obtain ⟨d, k⟩ := pair
      obtain rfl := Char.toNat_inj.mp same
      obtain rfl : k = l := Char.toNat_inj.mp ((leads.image _ mem).2.symm.trans eq)
      exact .inr (.inr mem)
    · rintro (eq | eq | mem)
      · omega
      · omega
      · exact (leads.image _ mem).2

/-- A character folds to a small letter if it stands for it. -/
lemma fold_eq_iff_stands {c l} (small : IsSmall l) :
    fold c.toNat = fold l.toNat ↔ Stands foldStandIns c l := by
  have self : fold l.toNat = l.toNat := by
    have bounds := small
    unfold IsSmall at bounds
    rw [fold_eq_lowered, lowered, if_pos (by omega), if_neg (by omega)]
  rw [self, fold_eq_lowered, leads_foldingSpans.lowered_eq_iff small]

lemma ofNat_eq_iff {n c} (pos : 0 < c.toNat) : Char.ofNat n = c ↔ n = c.toNat := by
  constructor
  · rintro rfl
    by_cases valid : n.isValidChar
    · rw [Char.ofNat, dif_pos valid]
      rfl
    · rw [Char.ofNat, dif_neg valid] at pos
      cases pos
  · rintro rfl
    exact Char.ofNat_toNat c

/-- The same for lower case. -/
lemma lowerChar_eq_iff_stands {c l} (small : IsSmall l) :
    lowerChar c = l ↔ Stands lowerStandIns c l := by
  have pos : 0 < l.toNat := Nat.lt_of_lt_of_le (by decide) small.1
  rw [lowerChar, ofNat_eq_iff pos, toLower_eq_lowered, leads_lowercaseSpans.lowered_eq_iff small]

/-- A name that spells a word of small letters, with stand-ins for some of them. -/
def Spells (standIns : List (Char × Char)) (name word : String) : Prop :=
  List.Forall₂ (Stands standIns) name.toList word.toList

instance (standIns : List (Char × Char)) (name word : String) : Decidable (Spells standIns name word) :=
  inferInstanceAs (Decidable (List.Forall₂ _ _ _))

lemma forall₂_imp_of_mem {α β : Type} {r s} {as : List α} {bs : List β} (all : List.Forall₂ r as bs)
    (imp : ∀ a ∈ as, ∀ b ∈ bs, r a b → s a b) : List.Forall₂ s as bs := by
  obtain ⟨length, all⟩ := List.forall₂_iff_zip.mp all
  refine List.forall₂_iff_zip.mpr ⟨length, fun mem => ?_⟩
  obtain ⟨left, right⟩ := List.of_mem_zip mem
  exact imp _ left _ right (all mem)

lemma spells_iff_forall₂ {standIns r name word} (same : ∀ c, ∀ l ∈ word.toList, r c l ↔ Stands standIns c l) :
    Spells standIns name word ↔ List.Forall₂ r name.toList word.toList :=
  ⟨fun spells => forall₂_imp_of_mem spells fun c _ l mem => (same c l mem).mpr,
    fun all => forall₂_imp_of_mem all fun c _ l mem => (same c l mem).mp⟩

/-- A name with the same characters as a word of small letters but for case spells it. -/
lemma equalFold_iff_spells {word} (small : ∀ l ∈ word.toList, IsSmall l) (name : String) :
    equalFold name word = true ↔ Spells foldStandIns name word := by
  rw [spells_iff_forall₂ fun c l mem => fold_eq_iff_stands (c := c) (small l mem), equalFold, beq_iff_eq,
    ← List.forall₂_eq_eq_eq, List.forall₂_map_left_iff, List.forall₂_map_right_iff]

/-- A name that is a word of small letters in lower case spells it. -/
lemma lowerString_eq_iff_spells {word} (small : ∀ l ∈ word.toList, IsSmall l) (name : String) :
    lowerString name = word ↔ Spells lowerStandIns name word := by
  rw [spells_iff_forall₂ fun c l mem => lowerChar_eq_iff_stands (c := c) (small l mem), lowerString,
    ← String.toList_inj, String.toList_map, ← List.forall₂_eq_eq_eq, List.forall₂_map_left_iff]

namespace Spells

variable {standIns standIns' : List (Char × Char)} {name word : String}

/-- Each character of the name stands for a letter of the word. -/
lemma exists_stands (spells : Spells standIns name word) {c} (mem : c ∈ name.toList) :
    ∃ l ∈ word.toList, Stands standIns c l := by
  obtain ⟨i, lt, rfl⟩ := List.getElem_of_mem mem
  have lt' : i < word.toList.length := spells.length_eq ▸ lt
  exact ⟨_, List.getElem_mem lt', spells.get lt lt'⟩

/-- A name spells a word with other stand-ins if these have all that are used. -/
lemma of_standIns (spells : Spells standIns name word)
    (used : ∀ pair ∈ standIns, pair.1 ∈ name.toList → pair.2 ∈ word.toList → pair ∈ standIns') :
    Spells standIns' name word := by
  refine forall₂_imp_of_mem spells fun c memName l memWord stands => ?_
  rcases stands with same | capital | standIn
  · exact .inl same
  · exact .inr (.inl capital)
  · exact .inr (.inr (used _ standIn memName memWord))

lemma empty_iff : Spells standIns name "" ↔ name = "" := by
  rw [Spells, String.toList_empty, List.forall₂_nil_right_iff, String.toList_eq_nil_iff]

end Spells

end Sift.Unicode
