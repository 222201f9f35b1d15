import Sift.Proofs.Baseline.Correlation

/-!
# What a correlation leaves over

Two fingerprints are `Comparable` if some stage can hold them to be alike (`exists_alike_iff`). Alike
positions do not both stay without a link: if they are not linked with each other, a stage before has
linked one of them (`Linked.exists_of_alike`). So nothing that is new can be compared with anything that
is fixed, while all that can be compared with nothing is left over (`leftover_incomparable`).
-/

namespace Sift.Baseline

/-- The fingerprints are of one rule, and of one at all, in one file, and they begin on the same line or
have the same digest, and one at all. -/
def Fingerprint.Comparable (old cur : Fingerprint) : Prop :=
  cur.rule ≠ "" ∧ old.rule = cur.rule ∧ old.path = cur.path ∧
    (old.first = cur.first ∨ old.digest ≠ "" ∧ old.digest = cur.digest)

instance (old cur : Fingerprint) : Decidable (old.Comparable cur) :=
  inferInstanceAs (Decidable (_ ∧ _))

/-- One of two alike positions is linked, at this stage or before. -/
lemma Linked.exists_of_alike {alike s i k} (holds : alike s i k) :
    ∃ t, (∃ l, Linked alike t i l) ∨ ∃ j, Linked alike t j k := by
  by_contra none
  simp only [not_exists, not_or] at none
  refine (none s).1 k ?_
  rw [Linked]
  exact ⟨holds, fun t _ other => ⟨(none t).1 other, (none t).2 other⟩⟩

section

variable {current known : List Fingerprint} {i k : Nat} {cur old : Fingerprint}

/-- Two fingerprints can be compared just when a stage holds them to be alike. The loosest two stages
suffice, since each of the others asks for more than one of these. -/
lemma exists_alike_iff (at_i : current[i]? = some cur) (at_k : known[k]? = some old) :
    (∃ s, Alike current known s i k) ↔ old.Comparable cur := by
  constructor
  · rintro ⟨s, likeness, cur', old', at_s, at_i', at_k', named, rule, path, holds⟩
    obtain rfl := Option.some.inj (at_i.symm.trans at_i')
    obtain rfl := Option.some.inj (at_k.symm.trans at_k')
    refine ⟨named, rule, path, ?_⟩
    have mem := List.mem_of_getElem? at_s
    simp only [stages, List.mem_cons, List.not_mem_nil, or_false] at mem
    obtain rfl | rfl | rfl | rfl := mem
    · exact .inr (by simpa [Fingerprint.sameDigest] using (Bool.and_eq_true_iff.mp holds).1)
    · exact .inr (by simpa [Fingerprint.sameDigest] using holds)
    · exact .inl (eq_of_beq (Bool.and_eq_true_iff.mp holds).1)
    · exact .inl (eq_of_beq holds)
  · rintro ⟨named, rule, path, line | ⟨some, digest⟩⟩
    · exact ⟨3, _, cur, old, rfl, at_i, at_k, named, rule, path, beq_iff_eq.mpr line⟩
    · refine ⟨1, _, cur, old, rfl, at_i, at_k, named, rule, path, ?_⟩
      simp [Fingerprint.sameDigest, digest ▸ some, digest]

/-- A current fingerprint is left over if it stands at a position without a link. -/
lemma mem_unmatched : cur ∈ unmatched current known ↔
    ∃ i, current[i]? = some cur ∧ ∀ s k, ¬ Linked (Alike current known) s i k := by
  simp only [unmatched, List.mem_map, List.mem_filter, List.mem_zipIdx_iff_getElem?,
    Bool.not_eq_true', Bool.eq_false_iff, ne_eq, isKnown_iff, not_exists]
  constructor
  · rintro ⟨⟨_, i⟩, ⟨at_i, free⟩, rfl⟩
    exact ⟨i, at_i, free⟩
  · rintro ⟨i, at_i, free⟩
    exact ⟨(cur, i), ⟨at_i, free⟩, rfl⟩

/-- A known fingerprint is left over if it stands at a position without a link. -/
lemma mem_fixed : old ∈ fixed current known ↔
    ∃ k, known[k]? = some old ∧ ∀ s i, ¬ Linked (Alike current known) s i k := by
  simp only [fixed, List.mem_map, List.mem_filter, List.mem_zipIdx_iff_getElem?, List.isEmpty_iff,
    List.eq_nil_iff_forall_not_mem, mem_knownToCurrent, not_exists]
  constructor
  · rintro ⟨⟨_, k⟩, ⟨at_k, free⟩, rfl⟩
    exact ⟨k, at_k, fun s i => free i s⟩
  · rintro ⟨k, at_k, free⟩
    exact ⟨(old, k), ⟨at_k, fun i s => free s i⟩, rfl⟩

end

/-- Nothing that is new can be compared with anything that is fixed. And all that can be compared with
nothing on the other side is new, or fixed. -/
theorem leftover_incomparable (current known : List Fingerprint) :
    (∀ cur ∈ unmatched current known, ∀ old ∈ fixed current known, ¬ old.Comparable cur) ∧
    (∀ cur ∈ current, (∀ old ∈ known, ¬ old.Comparable cur) → cur ∈ unmatched current known) ∧
    (∀ old ∈ known, (∀ cur ∈ current, ¬ old.Comparable cur) → old ∈ fixed current known) := by
  refine ⟨?_, ?_, ?_⟩
  · intro cur new old gone comparable
    obtain ⟨i, at_i, free⟩ := mem_unmatched.mp new
    obtain ⟨k, at_k, free'⟩ := mem_fixed.mp gone
    obtain ⟨s, alike⟩ := (exists_alike_iff at_i at_k).mpr comparable
    obtain ⟨t, ⟨l, linked⟩ | ⟨j, linked⟩⟩ := Linked.exists_of_alike alike
    · exact free t l linked
    · exact free' t j linked
  · intro cur mem alone
    obtain ⟨i, at_i⟩ := List.mem_iff_getElem?.mp mem
    refine mem_unmatched.mpr ⟨i, at_i, fun s k linked => ?_⟩
    obtain ⟨_, _, old, _, _, at_k, _⟩ := linked.to_alike
    exact alone old (List.mem_of_getElem? at_k) ((exists_alike_iff at_i at_k).mp ⟨s, linked.to_alike⟩)
  · intro old mem alone
    obtain ⟨k, at_k⟩ := List.mem_iff_getElem?.mp mem
    refine mem_fixed.mpr ⟨k, at_k, fun s i linked => ?_⟩
    obtain ⟨_, cur, _, _, at_i, _⟩ := linked.to_alike
    exact alone cur (List.mem_of_getElem? at_i) ((exists_alike_iff at_i at_k).mp ⟨s, linked.to_alike⟩)

/-- An issue that has moved, beside one that is new and one that is fixed. -/
theorem leftover_of_moved :
    let moved : Fingerprint := ⟨"R", "a.go", 3, 3, "x"⟩
    let new : Fingerprint := ⟨"R", "a.go", 5, 5, "y"⟩
    let gone : Fingerprint := ⟨"R", "a.go", 9, 9, "z"⟩
    let current := [{ moved with first := 1, last := 1 }, new]
    let known := [moved, gone]
    (∀ old ∈ known, ¬ old.Comparable new) ∧ (∀ cur ∈ current, ¬ gone.Comparable cur) ∧
      new ∈ unmatched current known ∧ gone ∈ fixed current known ∧ ¬ gone.Comparable new := by
  intro moved new gone current known
  have newAlone : ∀ old ∈ known, ¬ old.Comparable new := by decide
  have goneAlone : ∀ cur ∈ current, ¬ gone.Comparable cur := by decide
  obtain ⟨apart, left, left'⟩ := leftover_incomparable current known
  have isNew := left new (by decide) newAlone
  have isGone := left' gone (by decide) goneAlone
  exact ⟨newAlone, goneAlone, isNew, isGone, apart new isNew gone isGone⟩

end Sift.Baseline
