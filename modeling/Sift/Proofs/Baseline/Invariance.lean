import Mathlib.Data.List.OfFn
import Mathlib.Logic.Equiv.Defs
import Sift.Proofs.Baseline.Correlation

/-!
# What a correlation depends on

Stages compare fingerprints, not positions, and only those of one rule and one file. So whether two
positions are linked is decided by the fingerprints that stand there and by which fingerprints of their
rule and file the two lists hold (`Linked.of_same`). Neither the order of the lists nor what they hold of
other rules and files has a part in it (`isKnown_invariant`).
-/

namespace Sift.Baseline

/-- The lists hold the same fingerprints of a rule and file, in whatever order and however often. -/
def SameIn (key : String × String) (list list' : List Fingerprint) : Prop :=
  ∀ fingerprint : Fingerprint, fingerprint.group = key → (fingerprint ∈ list ↔ fingerprint ∈ list')

section

variable {key : String × String} {current current' known known' : List Fingerprint}
  {s i i' k k' : Nat} {cur old : Fingerprint}

lemma SameIn.symm (same : SameIn key current current') : SameIn key current' current :=
  fun fingerprint group => (same fingerprint group).symm

/-- A fingerprint of the rule and file at a position of one list stands at a position of the other. -/
lemma SameIn.exists_position (same : SameIn key current current') (group : cur.group = key)
    (at_i : current[i]? = some cur) : ∃ j : Nat, current'[j]? = some cur :=
  List.mem_iff_getElem?.mp ((same cur group).mp (List.mem_of_getElem? at_i))

lemma SameIn.of_filter_eq
    (eq : current.filter (·.group = key) = current'.filter (·.group = key)) :
    SameIn key current current' := by
  intro fingerprint group
  have mem : fingerprint ∈ current.filter (·.group = key) ↔
      fingerprint ∈ current'.filter (·.group = key) := by rw [eq]
  simpa [group] using mem

/-- Whether positions are alike is decided by the fingerprints that stand there. -/
lemma Alike.of_same (alike : Alike current known s i k) (at_i : current[i]? = some cur)
    (at_k : known[k]? = some old) (at_i' : current'[i']? = some cur) (at_k' : known'[k']? = some old) :
    Alike current' known' s i' k' := by
  obtain ⟨likeness, cur', old', at_s, at_cur, at_old, holds⟩ := alike
  obtain rfl := Option.some.inj (at_i.symm.trans at_cur)
  obtain rfl := Option.some.inj (at_k.symm.trans at_old)
  exact ⟨likeness, cur, old, at_s, at_i', at_k', holds⟩

/-- Alike fingerprints are of one rule and file. -/
lemma Alike.exists_group_eq (alike : Alike current known s i k) : ∃ cur old, current[i]? = some cur ∧
    known[k]? = some old ∧ old.group = cur.group := by
  obtain ⟨_, cur, old, _, at_i, at_k, _, rule, path, _⟩ := alike
  exact ⟨cur, old, at_i, at_k, Prod.ext rule path⟩

/-- What is linked in one run is linked in another one, at the same stage, if the other holds the same
fingerprints of the rule and file. -/
lemma Linked.of_same (sameCurrent : SameIn key current current') (sameKnown : SameIn key known known')
    (group : cur.group = key) (at_i : current[i]? = some cur) (at_i' : current'[i']? = some cur)
    (at_k : known[k]? = some old) (at_k' : known'[k']? = some old)
    (linked : Linked (Alike current known) s i k) : Linked (Alike current' known') s i' k' := by
  -- What blocks a link of the other run blocks it in this run: for that the two runs are exchanged.
  induction s using Nat.strongRecOn generalizing current current' known known' i i' k k' cur old with
  | _ s ih =>
    have alike := linked.to_alike
    have group' : old.group = key := by
      obtain ⟨cur', old', at_cur, at_old, eq⟩ := alike.exists_group_eq
      obtain rfl := Option.some.inj (at_i.symm.trans at_cur)
      obtain rfl := Option.some.inj (at_k.symm.trans at_old)
      exact eq.trans group
    rw [Linked] at linked ⊢
    refine ⟨alike.of_same at_i at_k at_i' at_k', fun t lt other => ⟨fun taken => ?_, fun taken => ?_⟩⟩
    · obtain ⟨cur', old', at_cur, at_other, eq⟩ := taken.to_alike.exists_group_eq
      obtain rfl := Option.some.inj (at_i'.symm.trans at_cur)
      obtain ⟨l, at_l⟩ := sameKnown.symm.exists_position (eq.trans group) at_other
      exact (linked.2 t lt l).1
        (ih t lt sameCurrent.symm sameKnown.symm group at_i' at_i at_other at_l taken)
    · obtain ⟨cur', old', at_other, at_old, eq⟩ := taken.to_alike.exists_group_eq
      obtain rfl := Option.some.inj (at_k'.symm.trans at_old)
      have group_other : cur'.group = key := eq.symm.trans group'
      obtain ⟨j, at_j⟩ := sameCurrent.symm.exists_position group_other at_other
      exact (linked.2 t lt j).2
        (ih t lt sameCurrent.symm sameKnown.symm group_other at_other at_j at_k' at_k taken)

/-- What is known depends on its group only. -/
lemma isKnown_of_same (sameCurrent : SameIn cur.group current current')
    (sameKnown : SameIn cur.group known known') (at_i : current[i]? = some cur)
    (at_i' : current'[i']? = some cur) (isKnown_old : isKnown (correlate current known) i = true) :
    isKnown (correlate current' known') i' = true := by
  obtain ⟨s, k, linked⟩ := isKnown_iff.mp isKnown_old
  obtain ⟨cur', old, at_cur, at_k, eq⟩ := linked.to_alike.exists_group_eq
  obtain rfl := Option.some.inj (at_i.symm.trans at_cur)
  obtain ⟨k', at_k'⟩ := sameKnown.exists_position eq at_k
  exact isKnown_iff.mpr ⟨s, k', linked.of_same sameCurrent sameKnown rfl at_i at_i' at_k at_k'⟩

/-- A fingerprint is known in one run just when it is known in another one that holds the same
fingerprints of its rule and file. -/
lemma isKnown_eq_of_same (sameCurrent : SameIn cur.group current current')
    (sameKnown : SameIn cur.group known known') (at_i : current[i]? = some cur)
    (at_i' : current'[i']? = some cur) :
    isKnown (correlate current known) i = isKnown (correlate current' known') i' :=
  Bool.eq_iff_iff.mpr ⟨isKnown_of_same sameCurrent sameKnown at_i at_i',
    isKnown_of_same sameCurrent.symm sameKnown.symm at_i' at_i⟩

end

/-- A list in the order that a permutation of its positions gives. -/
def rearranged (list : List Fingerprint) (order : Equiv.Perm (Fin list.length)) : List Fingerprint :=
  List.ofFn fun position => list.get (order position)

section

variable {current known : List Fingerprint} (order : Equiv.Perm (Fin current.length))
  (order' : Equiv.Perm (Fin known.length))

/-- A position of the rearranged list holds what stood where the permutation leads. -/
lemma getElem?_rearranged (i : Fin current.length) :
    (rearranged current order)[i.val]? = some (current.get (order i)) := by
  rw [rearranged, List.getElem?_ofFn, dif_pos i.isLt]

lemma sameIn_rearranged (key : String × String) : SameIn key (rearranged current order) current := by
  intro fingerprint _
  rw [rearranged, List.mem_ofFn, List.mem_iff_get]
  constructor
  · rintro ⟨i, rfl⟩
    exact ⟨order i, rfl⟩
  · rintro ⟨i, rfl⟩
    exact ⟨order.symm i, by rw [Equiv.apply_symm_apply]⟩

/-- Positions of rearranged lists are linked if those are from which their fingerprints come. -/
lemma linked_rearranged_iff (s : Nat) (i : Fin current.length) (k : Fin known.length) :
    Linked (Alike (rearranged current order) (rearranged known order')) s i k ↔
      Linked (Alike current known) s (order i) (order' k) := by
  have at_i := getElem?_rearranged order i
  have at_k := getElem?_rearranged order' k
  have from_i := List.getElem?_eq_getElem (order i).isLt
  have from_k := List.getElem?_eq_getElem (order' k).isLt
  have sameCurrent := sameIn_rearranged order (current.get (order i)).group
  have sameKnown := sameIn_rearranged order' (current.get (order i)).group
  constructor
  · intro linked
    exact linked.of_same sameCurrent sameKnown rfl at_i from_i at_k from_k
  · intro linked
    exact linked.of_same sameCurrent.symm sameKnown.symm rfl from_i at_i from_k at_k

end

/-- Links move along when the two lists are rearranged, so that each occurrence of a fingerprint is known
just when it was. And a fingerprint is known just when it is in a run with the same fingerprints of its
rule and file, whatever else is added to the two lists or removed from them. -/
theorem isKnown_invariant (current known : List Fingerprint) :
    (∀ (order : Equiv.Perm (Fin current.length)) (order' : Equiv.Perm (Fin known.length)),
      let moved := correlate (rearranged current order) (rearranged known order')
      ∀ i : Fin current.length,
        isKnown moved i = isKnown (correlate current known) (order i) ∧
        ∀ k : Fin known.length, k.val ∈ moved.currentToKnown.under i ↔
          (order' k).val ∈ (correlate current known).currentToKnown.under (order i)) ∧
    ∀ (current' known' : List Fingerprint) (i i' : Nat) (cur : Fingerprint),
      current[i]? = some cur → current'[i']? = some cur →
      current.filter (·.group = cur.group) = current'.filter (·.group = cur.group) →
      known.filter (·.group = cur.group) = known'.filter (·.group = cur.group) →
      isKnown (correlate current known) i = isKnown (correlate current' known') i' := by
  refine ⟨fun order order' => ?_, ?_⟩
  · intro moved i
    refine ⟨?_, fun k => ?_⟩
    · exact isKnown_eq_of_same (sameIn_rearranged order _) (sameIn_rearranged order' _)
        (getElem?_rearranged order i) (List.getElem?_eq_getElem (order i).isLt)
    · rw [mem_currentToKnown, mem_currentToKnown]
      exact exists_congr fun s => linked_rearranged_iff order order' s i k
  · intro current' known' i i' cur at_i at_i' eq eq'
    exact isKnown_eq_of_same (.of_filter_eq eq) (.of_filter_eq eq') at_i at_i'

/-- An issue that has moved stays known when issues of another file and of another rule come between, on
both sides, although they have its lines and its digest. -/
theorem isKnown_among_others :
    let moved : Fingerprint := ⟨"R", "a.go", 7, 7, "x"⟩
    let twin : Fingerprint := ⟨"R", "a.go", 3, 3, "y"⟩
    let elsewhere : Fingerprint := { moved with path := "b.go" }
    let other : Fingerprint := { moved with rule := "S" }
    let current := [moved, twin]
    let current' := [elsewhere, moved, other, twin]
    let known := [{ moved with first := 3, last := 3 }]
    let known' := [other, { moved with first := 3, last := 3 }, elsewhere]
    current[0]? = some moved ∧ current'[1]? = some moved ∧
      current.filter (·.group = moved.group) = current'.filter (·.group = moved.group) ∧
      known.filter (·.group = moved.group) = known'.filter (·.group = moved.group) ∧
      isKnown (correlate current known) 0 = true ∧ isKnown (correlate current' known') 1 = true := by
  intro moved twin elsewhere other current current' known known'
  have same : current.filter (·.group = moved.group) = current'.filter (·.group = moved.group) := by
    decide
  have same' : known.filter (·.group = moved.group) = known'.filter (·.group = moved.group) := by
    decide
  have isKnown_old : isKnown (correlate current known) 0 = true := by decide
  have eq := (isKnown_invariant current known).2 current' known' 0 1 moved rfl rfl same same'
  exact ⟨rfl, rfl, same, same', isKnown_old, eq.symm.trans isKnown_old⟩

end Sift.Baseline
