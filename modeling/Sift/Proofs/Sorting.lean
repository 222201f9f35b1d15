import Mathlib.Data.List.Pairwise
import Mathlib.Order.Lattice

/-!
# Sorting

Sorting is stable: choosing from what is sorted is sorting what is chosen (`filter_mergeSort`), and what the
order cannot tell apart stays as it was (`pairwise_mergeSort_of_ties`). By keys that are all different,
the result ascends strictly (`pairwise_mergeSort_of_nodup`). So two lists are the same once they are sorted by
keys if they hold the same under every key, in the same order (`mergeSort_eq_iff`).
-/

namespace Sift

section StableSort

variable {α : Type} {le : α → α → Bool}

/-- A list is parted in one way only into elements that `a` is not below and elements that it is. -/
lemma append_inj_of_le {a} {front back front' back' : List α} (above : ∀ b ∈ front, (!le a b) = true)
    (below : ∀ b ∈ back, le a b = true) (above' : ∀ b ∈ front', (!le a b) = true)
    (below' : ∀ b ∈ back', le a b = true) (eq : front ++ back = front' ++ back') : front = front' ∧ back = back' := by
  have all : ∀ {l : List α}, (∀ b ∈ l, (!le a b) = true) → l.countP (! le a ·) = l.length :=
    fun h => List.countP_eq_length.mpr h
  have none : ∀ {l : List α}, (∀ b ∈ l, le a b = true) → l.countP (! le a ·) = 0 :=
    fun h => List.countP_eq_zero.mpr fun b mem => by simp [h b mem]
  have length := congrArg (List.countP (! le a ·)) eq
  rw [List.countP_append, List.countP_append, all above, all above', none below, none below'] at length
  exact List.append_inj eq length

variable (trans : ∀ a b c, le a b = true → le b c = true → le a c = true)
  (total : ∀ a b, (le a b || le b a) = true)
include trans total

/-- A first element is sorted in behind those that it is not below and before the others, which keep
their order. -/
lemma exists_mergeSort_cons (a : α) (l : List α) :
    ∃ front back, (a :: l).mergeSort le = front ++ a :: back ∧ l.mergeSort le = front ++ back ∧
      (∀ b ∈ front, (!le a b) = true) ∧ ∀ b ∈ back, le a b = true := by
  obtain ⟨front, back, sorted, others, above⟩ := List.mergeSort_cons trans total a l
  have pairwise := List.pairwise_mergeSort trans total (a :: l)
  rw [sorted, List.pairwise_append, List.pairwise_cons] at pairwise
  exact ⟨front, back, sorted, others, above, pairwise.2.1.1⟩

/-- Choosing from what is sorted is sorting what is chosen. -/
lemma filter_mergeSort (p : α → Bool) (l : List α) :
    (l.mergeSort le).filter p = (l.filter p).mergeSort le := by
  induction l with
  | nil => simp
  | cons a rest ih =>
    obtain ⟨front, back, sorted, others, above, below⟩ := exists_mergeSort_cons trans total a rest
    rw [others, List.filter_append] at ih
    rw [sorted, List.filter_append]
    cases chosen : p a with
    | false => simpa [chosen] using ih
    | true =>
      obtain ⟨front', back', sorted', others', above', below'⟩ :=
        exists_mergeSort_cons trans total a (rest.filter p)
      rw [List.filter_cons_of_pos chosen, List.filter_cons_of_pos chosen, sorted']
      -- The chosen others are parted by `a` as all others are.
      obtain ⟨rfl, rfl⟩ := append_inj_of_le
        (fun b mem => above b (List.mem_filter.mp mem).1)
        (fun b mem => below b (List.mem_filter.mp mem).1) above' below' (ih.trans others')
      rfl

/-- What a stable sort cannot tell apart keeps its order. -/
lemma pairwise_mergeSort_of_ties {r : α → α → Prop} {l : List α}
    (ties : l.Pairwise fun a b => le a b = true → le b a = true → r a b) :
    (l.mergeSort le).Pairwise fun a b => le a b = true ∧ (le b a = true → r a b) := by
  induction ties with
  | nil => simp
  | @cons a l first _ ih =>
    obtain ⟨front, back, sorted, others, above, below⟩ := exists_mergeSort_cons trans total a l
    rw [others, List.pairwise_append] at ih
    obtain ⟨fronts, backs, cross⟩ := ih
    have mem : ∀ b ∈ back, b ∈ l := by
      intro b mem_back
      have mem : b ∈ l.mergeSort le := by
        rw [others]
        exact List.mem_append_right front mem_back
      exact List.mem_mergeSort.mp mem
    rw [sorted, List.pairwise_append, List.pairwise_cons]
    refine ⟨fronts, ⟨?_, backs⟩, ?_⟩
    · intro b mem_back
      exact ⟨below b mem_back, first b (mem b mem_back) (below b mem_back)⟩
    intro b mem_front c mem_back
    rcases List.mem_cons.mp mem_back with rfl | mem_back
    · have not_le := above b mem_front
      have either := total b c
      rw [Bool.not_eq_true'] at not_le
      rw [not_le, Bool.or_false] at either
      exact ⟨either, fun le => absurd (not_le.symm.trans le) Bool.false_ne_true⟩
    · exact cross b mem_front c mem_back

end StableSort

lemma pairwise_mergeSort_of_nodup {α β : Type} [LinearOrder β] {le? : ∀ a b : β, Decidable (a ≤ b)}
    (key : α → β) {l : List α} (distinct : (l.map key).Nodup) :
    (l.mergeSort fun a b => @decide (key a ≤ key b) (le? _ _)).Pairwise fun a b => key a < key b := by
  have perm := List.mergeSort_perm l fun a b => @decide (key a ≤ key b) (le? _ _)
  have different := List.pairwise_map.mp ((perm.map key).nodup_iff.mpr distinct)
  have sorted := @List.pairwise_mergeSort α (fun a b => @decide (key a ≤ key b) (le? _ _)) ?_ ?_ l
  · refine (sorted.and different).imp ?_
    rintro a b ⟨le, ne⟩
    exact lt_of_le_of_ne (of_decide_eq_true le) ne
  · intro a b c ab bc
    exact decide_eq_true (le_trans (of_decide_eq_true ab) (of_decide_eq_true bc))
  · intro a b
    rw [Bool.or_eq_true]
    exact (le_total (key a) (key b)).imp decide_eq_true decide_eq_true

/-- A list that holds one element only, however often, is told by its length. -/
lemma eq_of_perm_of_alike {α : Type} {l l' : List α} (perm : l.Perm l') (alike : ∀ a ∈ l, ∀ b ∈ l, a = b) :
    l = l' := by
  cases l with
  | nil => exact perm.nil_eq
  | cons a rest =>
    have same : a :: rest = List.replicate (rest.length + 1) a :=
      List.eq_replicate_of_mem fun b mem => alike b mem a List.mem_cons_self
    rw [same] at perm ⊢
    exact List.replicate_perm.mp perm

section Keys

variable {α : Type} (key : α → String)

lemma key_le_trans (a b c : α) (ab : decide (key a ≤ key b) = true) (bc : decide (key b ≤ key c) = true) :
    decide (key a ≤ key c) = true :=
  decide_eq_true (String.le_trans (of_decide_eq_true ab) (of_decide_eq_true bc))

lemma key_le_total (a b : α) : (decide (key a ≤ key b) || decide (key b ≤ key a)) = true := by
  rw [Bool.or_eq_true]
  exact (String.le_total (key a) (key b)).imp decide_eq_true decide_eq_true

lemma eq_of_filter_key_eq {l l' : List α} (asc : l.Pairwise fun a b => key a ≤ key b)
    (asc' : l'.Pairwise fun a b => key a ≤ key b)
    (same : ∀ k, l.filter (fun a => key a = k) = l'.filter fun a => key a = k) : l = l' := by
  have mem : ∀ {l l' : List α}, (∀ k, l.filter (fun a => key a = k) = l'.filter fun a => key a = k) →
      ∀ a ∈ l, a ∈ l' := by
    intro l l' same a mem
    have mem : a ∈ l.filter fun b => key b = key a := List.mem_filter.mpr ⟨mem, by simp⟩
    rw [same] at mem
    exact (List.mem_filter.mp mem).1
  induction l generalizing l' with
  | nil =>
    refine (List.eq_nil_iff_forall_not_mem.mpr fun a mem' => ?_).symm
    cases mem (fun k => (same k).symm) a mem'
  | cons a rest ih =>
    cases l' with
    | nil => cases mem same a List.mem_cons_self
    | cons b rest' =>
      have le : ∀ {a b : α} {rest : List α}, (a :: rest).Pairwise (fun a b => key a ≤ key b) → b ∈ a :: rest →
          key a ≤ key b := by
        intro a b rest asc mem
        rcases List.mem_cons.mp mem with rfl | mem
        · exact String.le_refl _
        · exact (List.pairwise_cons.mp asc).1 b mem
      -- Each of the first elements is somewhere in the other list, so that their keys are the same.
      have eq : key a = key b := String.le_antisymm
        (le asc (mem (fun k => (same k).symm) b List.mem_cons_self)) (le asc' (mem same a List.mem_cons_self))
      have first := same (key a)
      rw [List.filter_cons_of_pos (by simp), List.filter_cons_of_pos (by simp [eq])] at first
      obtain ⟨rfl, -⟩ := List.cons.inj first
      refine congrArg (a :: ·) (ih asc.of_cons asc'.of_cons fun k => ?_)
      have others := same k
      by_cases here : key a = k
      · rw [List.filter_cons_of_pos (by simpa using here), List.filter_cons_of_pos (by simpa using here)] at others
        exact (List.cons.inj others).2
      · rwa [List.filter_cons_of_neg (by simpa using here), List.filter_cons_of_neg (by simpa using here)] at others

/-- Sorting leaves what is under one key as it is. -/
lemma filter_key_mergeSort (l : List α) (k : String) :
    (l.mergeSort fun a b => key a ≤ key b).filter (fun a => key a = k) = l.filter fun a => key a = k := by
  rw [filter_mergeSort (key_le_trans key) (key_le_total key)]
  refine List.mergeSort_of_pairwise (List.pairwise_of_forall_mem_list fun a mem b mem' => ?_)
  simp only [List.mem_filter, decide_eq_true_eq] at mem mem'
  exact decide_eq_true ((mem.2.trans mem'.2.symm) ▸ String.le_refl (key a))

lemma mergeSort_eq_iff {l l' : List α} :
    (l.mergeSort fun a b => key a ≤ key b) = (l'.mergeSort fun a b => key a ≤ key b) ↔
      ∀ k, l.filter (fun a => key a = k) = l'.filter fun a => key a = k := by
  constructor
  · intro eq k
    rw [← filter_key_mergeSort, eq, filter_key_mergeSort]
  · intro same
    have asc : ∀ l : List α, (l.mergeSort fun a b => key a ≤ key b).Pairwise fun a b => key a ≤ key b :=
      fun l => (List.pairwise_mergeSort (key_le_trans key) (key_le_total key) l).imp of_decide_eq_true
    refine eq_of_filter_key_eq key (asc l) (asc l') fun k => ?_
    rw [filter_key_mergeSort, filter_key_mergeSort, same]

end Keys

end Sift
