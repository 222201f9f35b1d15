import Mathlib.Data.List.Nodup
import Sift.Baseline.Correlation

/-!
# What a correlator links

Two positions are `Alike` at a stage if their fingerprints are of one rule and one file and the stage
holds them to be alike. They are `Linked` at a stage if they are alike there and neither of them is
linked at a stage before, with whatever partner. This says nothing of groups, tables or marks. After
`n` stages the tables of a correlator hold just what is linked at the stages before the `n`-th
(`Tally`): one stage adds what is linked at it (`mem_linksOf`, `Tally.stage`), hence so does a run
(`tally_upTo`).

Two laws follow. The tables agree with each other and with the stages (`correlate_staged`). And what
is linked can be compared between two runs (`Linked.exists_of_narrower`): with fewer current and more
known fingerprints, a current one that was linked still is, and a known one that was not linked still
is not. So a longer baseline hides no less, and a longer run does not help to hide (`isKnown_append`).
-/

namespace Sift.Baseline

/-- The fingerprints at two positions are of one rule, and of one at all, in one file, and the stage
holds them to be alike. -/
def Alike (current known : List Fingerprint) (s i k : Nat) : Prop :=
  ∃ likeness cur old, stages[s]? = some likeness ∧ current[i]? = some cur ∧ known[k]? = some old ∧
    cur.rule ≠ "" ∧ old.rule = cur.rule ∧ old.path = cur.path ∧ likeness old cur = true

/-- Two positions are alike at a stage, and neither is linked at a stage before. -/
def Linked (alike : Nat → Nat → Nat → Prop) (s i k : Nat) : Prop :=
  alike s i k ∧ ∀ t, t < s → ∀ other, ¬ Linked alike t i other ∧ ¬ Linked alike t other k
termination_by s

section Linked

variable {alike alike' : Nat → Nat → Nat → Prop} {s t i j k l : Nat}

/-- What is linked is alike. -/
lemma Linked.to_alike (linked : Linked alike s i k) : alike s i k := by
  rw [Linked] at linked
  exact linked.1

/-- All partners of a current position are linked at one stage. -/
lemma Linked.stage_eq_of_current (linked : Linked alike s i k) (linked' : Linked alike t i l) :
    s = t := by
  rcases Nat.lt_trichotomy s t with lt | eq | lt
  · rw [Linked] at linked'
    exact absurd linked (linked'.2 s lt k).1
  · exact eq
  · rw [Linked] at linked
    exact absurd linked' (linked.2 t lt l).1

/-- All partners of a known position are linked at one stage. -/
lemma Linked.stage_eq_of_known (linked : Linked alike s i k) (linked' : Linked alike t j k) :
    s = t := by
  rcases Nat.lt_trichotomy s t with lt | eq | lt
  · rw [Linked] at linked'
    exact absurd linked (linked'.2 s lt i).2
  · exact eq
  · rw [Linked] at linked
    exact absurd linked' (linked.2 t lt j).2

/-- With fewer current positions, those in `C`, and with other known ones than those in `K`, each
position that remains on the current side is linked no later than before, and each known position of
before is linked no earlier. -/
lemma Linked.exists_of_narrower {C K : Nat → Prop}
    (same : ∀ s i k, C i → K k → (alike s i k ↔ alike' s i k))
    (known : ∀ s i k, alike s i k → K k) (current : ∀ s i k, alike' s i k → C i) :
    ∀ s, (∀ i k, C i → Linked alike s i k → ∃ t ≤ s, ∃ l, Linked alike' t i l) ∧
      (∀ i k, K k → Linked alike' s i k → ∃ t ≤ s, ∃ j, Linked alike t j k) := by
  intro s
  induction s using Nat.strongRecOn with
  | _ s ih =>
    refine ⟨?_, ?_⟩
    · intro i k inC linked
      have inK := known s i k linked.to_alike
      have alike_new := (same s i k inC inK).mp linked.to_alike
      by_cases free : ∀ t, t < s → ∀ l, ¬ Linked alike' t i l
      · -- The known side is free too: otherwise it was linked before, by what holds at stages before.
        refine ⟨s, Nat.le_refl s, k, ?_⟩
        rw [Linked]
        refine ⟨alike_new, fun t lt other => ⟨free t lt other, fun taken => ?_⟩⟩
        obtain ⟨u, le, j, linked'⟩ := (ih t lt).2 other k inK taken
        have eq := linked.stage_eq_of_known linked'
        omega
      · simp only [not_forall, not_not] at free
        obtain ⟨t, lt, l, linked'⟩ := free
        exact ⟨t, Nat.le_of_lt lt, l, linked'⟩
    · intro i k inK linked
      have inC := current s i k linked.to_alike
      have alike_old := (same s i k inC inK).mpr linked.to_alike
      by_cases free : ∀ t, t < s → ∀ j, ¬ Linked alike t j k
      · refine ⟨s, Nat.le_refl s, i, ?_⟩
        rw [Linked]
        refine ⟨alike_old, fun t lt other => ⟨fun taken => ?_, free t lt other⟩⟩
        obtain ⟨u, le, l, linked'⟩ := (ih t lt).1 i other inC taken
        have eq := linked.stage_eq_of_current linked'
        omega
      · simp only [not_forall, not_not] at free
        obtain ⟨t, lt, j, linked'⟩ := free
        exact ⟨t, Nat.le_of_lt lt, j, linked'⟩

end Linked

namespace Correlator

/-- A group holds the known positions with its rule and its file, if the rule has a name. -/
lemma mem_groups {correlator : Correlator} {key k} :
    k ∈ correlator.groups.under key ↔
      ∃ old, correlator.known[k]? = some old ∧ old.rule ≠ "" ∧ old.group = key := by
  rw [groups, Positions.under_addAll]
  simp only [Positions.under, List.lookup_nil, Option.getD_none, List.nil_append, List.mem_map,
    List.mem_filter, List.mem_zipIdx_iff_getElem?, decide_eq_true_eq]
  constructor
  · rintro ⟨_, ⟨⟨⟨old, position⟩, ⟨at_k, named⟩, rfl⟩, eq⟩, rfl⟩
    exact ⟨old, at_k, named, eq⟩
  · rintro ⟨old, at_k, named, eq⟩
    exact ⟨(old.group, k), ⟨⟨(old, k), ⟨at_k, named⟩, rfl⟩, eq⟩, rfl⟩

/-- No position stands in a group twice. -/
lemma groups_nodup (correlator : Correlator) (key : String × String) :
    (correlator.groups.under key).Nodup := by
  have positions : (correlator.known.zipIdx.map (·.2)).Nodup := by
    rw [List.zipIdx_map_snd]
    exact List.nodup_range'
  rw [groups, Positions.under_addAll, List.filter_map, List.map_map]
  exact positions.sublist ((List.filter_sublist.trans List.filter_sublist).map _)

/-- A stage pairs a current fingerprint with those it holds to be alike, where nothing is marked. -/
lemma mem_partners {correlator : Correlator} {matched likeness cur i k} :
    k ∈ correlator.partners correlator.groups matched likeness cur i ↔
      (∃ old, correlator.known[k]? = some old ∧ cur.rule ≠ "" ∧ old.rule = cur.rule ∧
        old.path = cur.path ∧ likeness old cur = true) ∧
      i ∉ matched.current ∧ k ∉ matched.known := by
  rw [partners]
  split
  · rename_i closed
    simp only [List.contains_eq_mem, Bool.or_eq_true, decide_eq_true_eq] at closed
    constructor
    · intro mem
      cases mem
    · rintro ⟨⟨_, _, named, _⟩, free, _⟩
      exact absurd closed (not_or.mpr ⟨free, named⟩)
  · rename_i open_
    simp only [List.contains_eq_mem, Bool.or_eq_true, decide_eq_true_eq, not_or] at open_
    rw [List.mem_filter, mem_groups]
    constructor
    · rintro ⟨⟨old, at_k, _, same⟩, alike⟩
      obtain ⟨rule, path⟩ := Prod.mk.inj same
      simp only [at_k, Option.any_some, Bool.and_eq_true, Bool.not_eq_true', List.contains_eq_mem,
        decide_eq_false_iff_not] at alike
      exact ⟨⟨old, at_k, open_.2, rule, path, alike.2⟩, open_.1, alike.1⟩
    · rintro ⟨⟨old, at_k, named, rule, path, alike⟩, _, free⟩
      refine ⟨⟨old, at_k, rule ▸ named, Prod.ext rule path⟩, ?_⟩
      simpa [at_k, alike] using free

/-- A stage links what it holds to be alike, where nothing is marked. -/
lemma mem_linksOf {correlator : Correlator} {matched likeness link} :
    link ∈ correlator.linksOf matched likeness ↔
      (∃ cur old, correlator.current[link.current]? = some cur ∧
        correlator.known[link.known]? = some old ∧ cur.rule ≠ "" ∧ old.rule = cur.rule ∧
        old.path = cur.path ∧ likeness old cur = true) ∧
      link.current ∉ matched.current ∧ link.known ∉ matched.known := by
  simp only [linksOf, List.mem_flatMap, List.mem_zipIdx_iff_getElem?, List.mem_map]
  constructor
  · rintro ⟨⟨cur, i⟩, at_i, k, mem, rfl⟩
    obtain ⟨⟨old, at_k, alike⟩, free⟩ := mem_partners.mp mem
    exact ⟨⟨cur, old, at_i, at_k, alike⟩, free⟩
  · rintro ⟨⟨cur, old, at_i, at_k, alike⟩, free⟩
    exact ⟨(cur, link.current), at_i, link.known, mem_partners.mpr ⟨⟨old, at_k, alike⟩, free⟩, rfl⟩

/-- A stage makes no link twice. -/
lemma linksOf_nodup (correlator : Correlator) (matched : Matched) (likeness : Likeness) :
    (correlator.linksOf matched likeness).Nodup := by
  rw [linksOf]
  refine List.nodup_flatMap.mpr ⟨?_, ?_⟩
  · rintro ⟨cur, i⟩ _
    have inj : Function.Injective (Link.mk i) := fun _ _ eq => (Link.mk.inj eq).2
    refine List.Nodup.map inj ?_
    rw [partners]
    split
    · exact List.nodup_nil
    · exact (groups_nodup correlator cur.group).filter _
  · -- Links of different positions differ in their current end.
    have positions : correlator.current.zipIdx.Pairwise fun a b => a.2 ≠ b.2 := by
      refine List.pairwise_map.mp ?_
      rw [List.zipIdx_map_snd]
      exact List.nodup_range'
    refine positions.imp fun {a b} ne link mem mem' => ne ?_
    obtain ⟨_, _, rfl⟩ := List.mem_map.mp mem
    obtain ⟨_, _, eq⟩ := List.mem_map.mp mem'
    exact (congrArg Link.current eq).symm

/-- One side of the links has come to a stage: its table and its marks hold what is linked at the
stages before. -/
structure Side (linked : Nat → Nat → Nat → Prop) (n : Nat) (table : Positions Nat)
    (marks : List Nat) : Prop where
  mem_under : ∀ a b, b ∈ table.under a ↔ ∃ s < n, linked s a b
  nodup : ∀ a, (table.under a).Nodup
  mem_marks : ∀ a, a ∈ marks ↔ ∃ s < n, ∃ b, linked s a b

section Side

variable {linked : Nat → Nat → Nat → Prop} {n : Nat} {table : Positions Nat} {marks : List Nat}

/-- Nothing is recorded before the first stage. -/
lemma Side.empty : Side linked 0 [] [] where
  mem_under := by simp [Positions.under]
  nodup := by simp [Positions.under]
  mem_marks := by simp

/-- A stage that links nothing leaves its side as it was. -/
lemma Side.skip (side : Side linked n table marks) (none : ∀ a b, ¬ linked n a b) :
    Side linked (n + 1) table marks where
  mem_under a b := by simp only [side.mem_under, Nat.exists_lt_succ_right, none, or_false]
  nodup := side.nodup
  mem_marks a := by simp only [side.mem_marks, Nat.exists_lt_succ_right, none, exists_false, or_false]

/-- Recording what a stage links takes a side to the next stage. -/
lemma Side.extend (side : Side linked n table marks) {entries} (nodup : entries.Nodup)
    (new : ∀ a b, (a, b) ∈ entries ↔ linked n a b) (apart : ∀ s a b, s < n → linked s a b → ¬ linked n a b) :
    Side linked (n + 1) (table.addAll entries) (marks ++ entries.map (·.1)) := by
  have mem_new : ∀ a b, b ∈ (entries.filter (·.1 = a)).map (·.2) ↔ linked n a b := by
    intro a b
    rw [← new]
    simp
  refine ⟨?_, ?_, ?_⟩
  · intro a b
    rw [Positions.under_addAll, List.mem_append, side.mem_under, mem_new, Nat.exists_lt_succ_right]
  · intro a
    rw [Positions.under_addAll]
    refine List.nodup_append.mpr ⟨side.nodup a, ?_, ?_⟩
    · refine List.Nodup.map_on ?_ (nodup.filter _)
      intro x mem y mem' eq
      have at_x := of_decide_eq_true (List.mem_filter.mp mem).2
      have at_y := of_decide_eq_true (List.mem_filter.mp mem').2
      exact Prod.ext (at_x.trans at_y.symm) eq
    · rintro b mem _ mem' rfl
      obtain ⟨s, lt, before⟩ := (side.mem_under a b).mp mem
      exact apart s a b lt before ((mem_new a b).mp mem')
  · intro a
    rw [List.mem_append, side.mem_marks, Nat.exists_lt_succ_right]
    refine or_congr_right ?_
    simp only [← new, List.mem_map, Prod.exists, exists_and_right, exists_eq_right]

end Side

/-- A run has come to a stage: both sides hold what is linked at the stages before. -/
structure Tally (current known : List Fingerprint) (n : Nat) (run : Correlator × Matched) : Prop where
  current_eq : run.1.current = current
  known_eq : run.1.known = known
  currentSide : Side (Linked (Alike current known)) n run.1.currentToKnown run.2.current
  knownSide : Side (fun s k i => Linked (Alike current known) s i k) n run.1.knownToCurrent run.2.known

section Tally

variable {current known : List Fingerprint} {n : Nat} {run : Correlator × Matched}

/-- The links that the next stage makes are those of that stage. -/
lemma Tally.mem_linksOf (tally : Tally current known n run) {likeness} (at_n : stages[n]? = some likeness) {link} :
    link ∈ run.1.linksOf run.2 likeness ↔
      Linked (Alike current known) n link.current link.known := by
  rw [Correlator.mem_linksOf, tally.currentSide.mem_marks, tally.knownSide.mem_marks,
    tally.current_eq, tally.known_eq, Linked]
  constructor
  · rintro ⟨⟨cur, old, alike⟩, free_i, free_k⟩
    refine ⟨⟨likeness, cur, old, at_n, alike⟩, fun t lt other => ⟨fun linked => ?_, fun linked => ?_⟩⟩
    · exact free_i ⟨t, lt, other, linked⟩
    · exact free_k ⟨t, lt, other, linked⟩
  · rintro ⟨⟨likeness', cur, old, at_n', alike⟩, free⟩
    obtain rfl : likeness = likeness' := Option.some.inj (at_n.symm.trans at_n')
    refine ⟨⟨cur, old, alike⟩, ?_, ?_⟩
    · rintro ⟨t, lt, other, linked⟩
      exact (free t lt other).1 linked
    · rintro ⟨t, lt, other, linked⟩
      exact (free t lt other).2 linked

/-- A stage takes a run to the next stage. -/
lemma Tally.stage (tally : Tally current known n run) {likeness} (at_n : stages[n]? = some likeness) :
    Tally current known (n + 1) (Correlator.stage run likeness) := by
  have nodup := run.1.linksOf_nodup run.2 likeness
  have inj : Function.Injective fun link : Link => (link.current, link.known) :=
    fun ⟨_, _⟩ ⟨_, _⟩ eq => by simpa using eq
  have inj' : Function.Injective fun link : Link => (link.known, link.current) :=
    fun ⟨_, _⟩ ⟨_, _⟩ eq => by simpa [and_comm] using eq
  -- What is linked at this stage has no partner of a stage before.
  have apart : ∀ s i k, s < n → Linked (Alike current known) s i k →
      ¬ Linked (Alike current known) n i k := by
    intro s i k lt linked linked'
    exact absurd (linked.stage_eq_of_current linked') (Nat.ne_of_lt lt)
  have currentSide := tally.currentSide.extend (nodup.map inj)
    (fun i k => (List.mem_map_of_injective inj (a := ⟨i, k⟩)).trans (tally.mem_linksOf at_n)) apart
  have knownSide := tally.knownSide.extend (nodup.map inj')
    (fun k i => (List.mem_map_of_injective inj' (a := ⟨i, k⟩)).trans (tally.mem_linksOf at_n))
    (fun s k i => apart s i k)
  rw [List.map_map] at currentSide knownSide
  exact ⟨tally.current_eq, tally.known_eq, currentSide, knownSide⟩

/-- A run over the first stages has come to the stage behind them. -/
lemma tally_run (correlator : Correlator) (n : Nat) :
    Tally correlator.current correlator.known n (correlator.run (stages.take n)) := by
  induction n with
  | zero => exact ⟨rfl, rfl, .empty, .empty⟩
  | succ n ih =>
    rw [Correlator.run, List.take_add_one, List.foldl_append]
    cases at_n : stages[n]? with
    | some likeness => exact ih.stage at_n
    | none =>
      -- There are no more stages, and nothing is alike at a stage that does not exist.
      have none : ∀ i k, ¬ Linked (Alike correlator.current correlator.known) n i k := by
        intro i k linked
        obtain ⟨_, _, _, at_n', _⟩ := linked.to_alike
        exact absurd (at_n.symm.trans at_n') nofun
      exact ⟨ih.current_eq, ih.known_eq, ih.currentSide.skip none,
        ih.knownSide.skip fun k i => none i k⟩

end Tally

end Correlator

/-- The correlator of two lists after the first `n` stages. -/
def upTo (current known : List Fingerprint) (n : Nat) : Correlator :=
  ((Correlator.mk current known [] [] false).run (stages.take n)).1

/-- What the first stages record under a current position is what is linked there. -/
lemma mem_currentToKnown_upTo {current known n i k} :
    k ∈ (upTo current known n).currentToKnown.under i ↔
      ∃ s < n, Linked (Alike current known) s i k :=
  (Correlator.tally_run ⟨current, known, [], [], false⟩ n).currentSide.mem_under i k

/-- What the first stages record under a known position is what is linked there. -/
lemma mem_knownToCurrent_upTo {current known n i k} :
    i ∈ (upTo current known n).knownToCurrent.under k ↔
      ∃ s < n, Linked (Alike current known) s i k :=
  (Correlator.tally_run ⟨current, known, [], [], false⟩ n).knownSide.mem_under k i

/-- A correlator has come to the end of the stages. -/
lemma correlate_eq (current known : List Fingerprint) :
    correlate current known = { upTo current known stages.length with processed := true } := by
  rw [upTo, List.take_length]
  rfl

/-- Computing the links again changes nothing. -/
lemma process_correlate (current known : List Fingerprint) :
    (correlate current known).process = correlate current known := by
  rw [Correlator.process, if_pos]
  rw [correlate_eq]

/-- Nothing is linked at a stage that does not exist. -/
lemma Linked.lt_length {current known s i k} (linked : Linked (Alike current known) s i k) : s < stages.length := by
  obtain ⟨_, _, _, at_s, _⟩ := linked.to_alike
  exact (List.getElem?_eq_some_iff.mp at_s).1

/-- A correlator records under a current position what is linked there at any stage. -/
lemma mem_currentToKnown {current known i k} :
    k ∈ (correlate current known).currentToKnown.under i ↔
      ∃ s, Linked (Alike current known) s i k := by
  rw [correlate_eq]
  refine mem_currentToKnown_upTo.trans ⟨?_, ?_⟩
  · rintro ⟨s, _, linked⟩
    exact ⟨s, linked⟩
  · rintro ⟨s, linked⟩
    exact ⟨s, linked.lt_length, linked⟩

/-- A correlator records under a known position what is linked there at any stage. -/
lemma mem_knownToCurrent {current known i k} :
    i ∈ (correlate current known).knownToCurrent.under k ↔
      ∃ s, Linked (Alike current known) s i k := by
  rw [correlate_eq]
  refine mem_knownToCurrent_upTo.trans ⟨?_, ?_⟩
  · rintro ⟨s, _, linked⟩
    exact ⟨s, linked⟩
  · rintro ⟨s, linked⟩
    exact ⟨s, linked.lt_length, linked⟩

/-- Positions are linked at a stage just when they are alike there and the stages before have recorded
nothing under either. -/
lemma linked_iff_upTo {current known s i k} :
    Linked (Alike current known) s i k ↔ Alike current known s i k ∧
      (upTo current known s).currentToKnown.under i = [] ∧
      (upTo current known s).knownToCurrent.under k = [] := by
  rw [Linked, List.eq_nil_iff_forall_not_mem, List.eq_nil_iff_forall_not_mem]
  simp only [mem_currentToKnown_upTo, mem_knownToCurrent_upTo, not_exists, not_and]
  refine and_congr_right fun _ => ⟨?_, ?_⟩
  · intro free
    exact ⟨fun l t lt => (free t lt l).1, fun j t lt => (free t lt j).2⟩
  · rintro ⟨free, free'⟩ t lt other
    exact ⟨free other t lt, free' other t lt⟩

/-- The links of two lists, as the stages make them. -/
structure Staged (current known : List Fingerprint) (correlator : Correlator) : Prop where
  /-- The two tables hold the same links. -/
  tables : ∀ i k, k ∈ correlator.currentToKnown.under i ↔ i ∈ correlator.knownToCurrent.under k
  /-- No link is held twice. -/
  known_nodup : ∀ i, (correlator.currentToKnown.under i).Nodup
  current_nodup : ∀ k, (correlator.knownToCurrent.under k).Nodup
  /-- Two positions are linked just when they are alike at a stage before which neither has a
  partner. -/
  mem_iff : ∀ i k, k ∈ correlator.currentToKnown.under i ↔ ∃ s, Alike current known s i k ∧
    (upTo current known s).currentToKnown.under i = [] ∧
    (upTo current known s).knownToCurrent.under k = []
  /-- All partners of a position come from one stage. -/
  current_stage : ∀ i, ∃ s, (upTo current known s).currentToKnown.under i = [] ∧
    ∀ k ∈ correlator.currentToKnown.under i, k ∈ (upTo current known (s + 1)).currentToKnown.under i
  known_stage : ∀ k, ∃ s, (upTo current known s).knownToCurrent.under k = [] ∧
    ∀ i ∈ correlator.knownToCurrent.under k, i ∈ (upTo current known (s + 1)).knownToCurrent.under k
  /-- Computing the links again changes nothing. -/
  process_eq : correlator.process = correlator

/-- The links that a correlator computes are those that the stages make. -/
theorem correlate_staged (current known : List Fingerprint) :
    Staged current known (correlate current known) := by
  have tally := Correlator.tally_run ⟨current, known, [], [], false⟩ stages.length
  refine {
    tables := fun i k => mem_currentToKnown.trans mem_knownToCurrent.symm
    known_nodup := fun i => ?_
    current_nodup := fun k => ?_
    mem_iff := fun i k => ?_
    current_stage := fun i => ?_
    known_stage := fun k => ?_
    process_eq := process_correlate current known }
  · rw [correlate_eq]
    exact tally.currentSide.nodup i
  · rw [correlate_eq]
    exact tally.knownSide.nodup k
  · simp only [mem_currentToKnown, linked_iff_upTo]
  · by_cases some : ∃ s k, Linked (Alike current known) s i k
    · obtain ⟨s, k, linked⟩ := some
      refine ⟨s, (linked_iff_upTo.mp linked).2.1, fun l mem => ?_⟩
      obtain ⟨t, linked'⟩ := mem_currentToKnown.mp mem
      obtain rfl := linked.stage_eq_of_current linked'
      exact mem_currentToKnown_upTo.mpr ⟨s, Nat.lt_succ_self s, linked'⟩
    · refine ⟨0, rfl, fun k mem => ?_⟩
      obtain ⟨s, linked⟩ := mem_currentToKnown.mp mem
      exact absurd ⟨s, k, linked⟩ some
  · by_cases some : ∃ s i, Linked (Alike current known) s i k
    · obtain ⟨s, i, linked⟩ := some
      refine ⟨s, (linked_iff_upTo.mp linked).2.2, fun j mem => ?_⟩
      obtain ⟨t, linked'⟩ := mem_knownToCurrent.mp mem
      obtain rfl := linked.stage_eq_of_known linked'
      exact mem_knownToCurrent_upTo.mpr ⟨s, Nat.lt_succ_self s, linked'⟩
    · refine ⟨0, rfl, fun i mem => ?_⟩
      obtain ⟨s, linked⟩ := mem_knownToCurrent.mp mem
      exact absurd ⟨s, i, linked⟩ some

/-- A current position is known if it is linked. -/
lemma isKnown_iff {current known i} :
    isKnown (correlate current known) i = true ↔ ∃ s k, Linked (Alike current known) s i k := by
  rw [isKnown, process_correlate, Bool.not_eq_true', List.isEmpty_eq_false_iff_exists_mem,
    exists_comm]
  simp only [mem_currentToKnown]

/-- What is known in a longer run by a shorter baseline is known in the shorter run by the longer
baseline. -/
lemma isKnown_of_narrower {current known} (moreCurrent moreKnown : List Fingerprint) {i} (lt : i < current.length)
    (isKnown_old : isKnown (correlate (current ++ moreCurrent) known) i = true) :
    isKnown (correlate current (known ++ moreKnown)) i = true := by
  have same : ∀ s i k, i < current.length → k < known.length →
      (Alike (current ++ moreCurrent) known s i k ↔ Alike current (known ++ moreKnown) s i k) := by
    intro s i k lt lt'
    rw [Alike, Alike, List.getElem?_append_left lt, List.getElem?_append_left lt']
  have inKnown : ∀ s i k, Alike (current ++ moreCurrent) known s i k → k < known.length := by
    rintro s i k ⟨_, _, _, _, _, at_k, _⟩
    exact (List.getElem?_eq_some_iff.mp at_k).1
  have inCurrent : ∀ s i k, Alike current (known ++ moreKnown) s i k → i < current.length := by
    rintro s i k ⟨_, _, _, _, at_i, _⟩
    exact (List.getElem?_eq_some_iff.mp at_i).1
  obtain ⟨s, k, linked⟩ := isKnown_iff.mp isKnown_old
  have narrower := Linked.exists_of_narrower same inKnown inCurrent s
  obtain ⟨t, _, l, linked'⟩ := narrower.1 i k lt linked
  exact isKnown_iff.mpr ⟨t, l, linked'⟩

/-- A longer baseline knows no less, and a longer run makes none of its first issues known. So an
issue that a baseline hides does not come back when the baseline grows. -/
theorem isKnown_append (current known extra : List Fingerprint) :
    (∀ i, isKnown (correlate current known) i = true →
      isKnown (correlate current (known ++ extra)) i = true) ∧
    (∀ i < current.length, isKnown (correlate current known) i = false →
      isKnown (correlate (current ++ extra) known) i = false) ∧
    (unmatched current (known ++ extra)).Sublist (unmatched current known) := by
  have grow : ∀ i, isKnown (correlate current known) i = true →
      isKnown (correlate current (known ++ extra)) i = true := by
    intro i isKnown_old
    obtain ⟨_, _, linked⟩ := isKnown_iff.mp isKnown_old
    obtain ⟨_, _, _, _, at_i, _⟩ := linked.to_alike
    have lt := (List.getElem?_eq_some_iff.mp at_i).1
    exact isKnown_of_narrower [] extra lt ((List.append_nil current).symm ▸ isKnown_old)
  refine ⟨grow, ?_, ?_⟩
  · intro i lt isUnknown
    rw [Bool.eq_false_iff] at isUnknown ⊢
    intro isKnown_new
    have isKnown_old := isKnown_of_narrower extra [] lt isKnown_new
    rw [List.append_nil] at isKnown_old
    exact isUnknown isKnown_old
  · rw [unmatched, unmatched]
    refine (List.monotone_filter_right _ ?_).map _
    rintro ⟨_, i⟩ isUnknown
    rw [Bool.not_eq_true', Bool.eq_false_iff] at isUnknown ⊢
    exact fun isKnown_old => isUnknown (grow i isKnown_old)

end Sift.Baseline
