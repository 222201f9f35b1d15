import Sift.Baseline
import Sift.Proofs.Baseline.Correlation

/-!
# What a baseline takes out

A fingerprint that is in the baseline cannot lose its partner. With a digest it is linked at the first
stage; without one, neither it nor its like in the baseline takes part before the stage that compares
lines (`exists_linked_of_eq`). So a baseline that holds every fingerprint of a result, in whatever order
and whatever else it holds, takes out every issue (`filter_eq_of_forall_mem`).
-/

namespace Sift.Baseline

/-- The first two stages compare digests. -/
lemma Alike.digest_eq {current known s i k cur old} (alike : Alike current known s i k) (early : s < 2)
    (at_i : current[i]? = some cur) (at_k : known[k]? = some old) : old.digest ≠ "" ∧ old.digest = cur.digest := by
  obtain ⟨likeness, cur', old', at_s, at_i', at_k', _, _, _, holds⟩ := alike
  obtain rfl := Option.some.inj (at_i.symm.trans at_i')
  obtain rfl := Option.some.inj (at_k.symm.trans at_k')
  have same : old.sameDigest cur = true := by
    match s, early with
    | 0, _ =>
      cases at_s
      exact (Bool.and_eq_true_iff.mp holds).1
    | 1, _ =>
      cases at_s
      exact holds
  simpa [Fingerprint.sameDigest] using same

lemma exists_linked_of_eq {current known i k fingerprint} (at_i : current[i]? = some fingerprint)
    (at_k : known[k]? = some fingerprint) (named : fingerprint.rule ≠ "") :
    ∃ s, Linked (Alike current known) s i k := by
  by_cases blank : fingerprint.digest = ""
  · -- Neither side has a digest, so that both are free when lines are compared.
    refine ⟨2, ?_⟩
    rw [Linked]
    refine ⟨⟨_, fingerprint, fingerprint, rfl, at_i, at_k, named, rfl, rfl, ?_⟩, ?_⟩
    · simp [Fingerprint.sameLines]
    · intro t early other
      refine ⟨fun linked => ?_, fun linked => ?_⟩
      · obtain ⟨_, _, old, _, _, at_other, _⟩ := linked.to_alike
        obtain ⟨ne, eq⟩ := linked.to_alike.digest_eq early at_i at_other
        exact ne (eq.trans blank)
      · obtain ⟨_, cur, _, _, at_other, _⟩ := linked.to_alike
        obtain ⟨ne, _⟩ := linked.to_alike.digest_eq early at_other at_k
        exact ne blank
  · refine ⟨0, ?_⟩
    rw [Linked]
    refine ⟨⟨_, fingerprint, fingerprint, rfl, at_i, at_k, named, rfl, rfl, ?_⟩, ?_⟩
    · simp [Fingerprint.sameDigest, Fingerprint.sameLines, blank]
    · intro t before
      exact absurd before (Nat.not_lt_zero t)

lemma isKnown_of_mem {current known i fingerprint} (at_i : current[i]? = some fingerprint)
    (named : fingerprint.rule ≠ "") (mem : fingerprint ∈ known) : isKnown (correlate current known) i = true := by
  obtain ⟨k, at_k⟩ := List.mem_iff_getElem?.mp mem
  obtain ⟨s, linked⟩ := exists_linked_of_eq at_i at_k named
  exact isKnown_iff.mpr ⟨s, k, linked⟩

lemma keepUnknown_of_isKnown {correlator position issues}
    (known : ∀ i, position ≤ i → i < position + issues.length → isKnown correlator i = true) :
    keepUnknown correlator position issues = [] := by
  rw [keepUnknown, List.map_eq_nil_iff, List.filter_eq_nil_iff]
  rintro ⟨issue, i⟩ mem
  obtain ⟨le, lt, _⟩ := List.mem_zipIdx mem
  simp [known i le lt]

lemma countKnown_of_isKnown {correlator position issues}
    (known : ∀ i, position ≤ i → i < position + issues.length → isKnown correlator i = true) :
    countKnown correlator position issues = issues.length := by
  rw [countKnown, ← List.length_zipIdx (i := position), List.countP_eq_length]
  rintro ⟨issue, i⟩ mem
  obtain ⟨le, lt, _⟩ := List.mem_zipIdx mem
  exact known i le lt

/-- Files whose issues are all known lose all of them, and nothing else. -/
lemma filterFiles_of_isKnown {correlator position files}
    (known : ∀ i, position ≤ i → i < position + (files.flatMap (·.issues)).length →
      isKnown correlator i = true) :
    filterFiles correlator position files =
      (files.map fun file => { file with issues := [] }, (files.flatMap (·.issues)).length) := by
  induction files generalizing position with
  | nil => rfl
  | cons file rest ih =>
    rw [List.flatMap_cons, List.length_append] at known ⊢
    have here : ∀ i, position ≤ i → i < position + file.issues.length → isKnown correlator i = true := by
      intro i le lt
      exact known i le (by omega)
    have later : filterFiles correlator (position + file.issues.length) rest = _ :=
      ih fun i le lt => known i (by omega) (by omega)
    rw [filterFiles, later, keepUnknown_of_isKnown here, countKnown_of_isKnown here]
    rfl

lemma length_fingerprints (reportPath : String → String) (analysis : Analysis) :
    (fingerprints reportPath analysis).length = (analysis.files.flatMap (·.issues)).length := by
  simp only [fingerprints, List.length_flatMap, List.length_map]

/-- A baseline that holds the fingerprint of every issue takes out every issue, whatever else it holds,
whether or not the issues have digests, and however many of them are alike. -/
theorem filter_eq_of_forall_mem (analysis : Analysis) (known : List Fingerprint)
    (reportPath : String → String)
    (named : ∀ file ∈ analysis.files, ∀ issue ∈ file.issues, issue.rule.id ≠ "")
    (held : ∀ file ∈ analysis.files, ∀ issue ∈ file.issues,
      Fingerprint.ofIssue (reportPath file.path) issue ∈ known) :
    filter analysis known reportPath =
      (⟨analysis.files.map fun file => { file with issues := [] }⟩, analysis.issues.length) := by
  have all : ∀ i, i < (analysis.files.flatMap (·.issues)).length →
      isKnown (correlate (fingerprints reportPath analysis) known) i = true := by
    intro i lt
    rw [← length_fingerprints reportPath] at lt
    have at_i := List.getElem?_eq_getElem lt
    obtain ⟨file, mem_file, mem_map⟩ := List.mem_flatMap.mp (List.getElem_mem lt)
    obtain ⟨issue, mem_issue, eq⟩ := List.mem_map.mp mem_map
    rw [← eq] at at_i
    exact isKnown_of_mem at_i (named file mem_file issue mem_issue) (held file mem_file issue mem_issue)
  rw [filter]
  split
  · -- An empty baseline holds the fingerprints of a result without issues only.
    rename_i empty
    obtain rfl := List.isEmpty_iff.mp empty
    have none : ∀ file ∈ analysis.files, file.issues = [] := by
      intro file mem_file
      refine List.eq_nil_iff_forall_not_mem.mpr fun issue mem_issue => ?_
      exact List.not_mem_nil (held file mem_file issue mem_issue)
    have same : analysis.files.map (fun file => { file with issues := [] }) = analysis.files := by
      refine (List.map_congr_left fun file mem_file => ?_).trans (List.map_id _)
      rw [← none file mem_file]
      rfl
    rw [same, Analysis.issues, List.flatMap_eq_nil_iff.mpr none]
    rfl
  · have files : filterFiles (correlate (fingerprints reportPath analysis) known) 0 analysis.files = _ :=
      filterFiles_of_isKnown fun i _ lt => all i (by omega)
    dsimp only
    rw [files]
    rfl

/-- Two blank issues on one line are taken out by one entry, although the baseline also holds an issue
with a digest on their lines. -/
theorem filter_blank_issues :
    let rule : Rule := {
      id := "R", name := "", description := "", recommendation := "", tags := none
      severity := .critical, appliesTo := [], patterns := [], exclusions := [], disabled := false
      source := "test" }
    let blank : Issue := ⟨rule, 4, 1, ⟨10, 2⟩, "\n "⟩
    let analysis : Analysis := ⟨[{ path := "a.js", issues := [blank, blank] }, { path := "b.js" }]⟩
    let known : List Fingerprint := [⟨"R", "a.js", 4, 5, "0"⟩, ⟨"R", "a.js", 4, 5, ""⟩]
    (∀ file ∈ analysis.files, ∀ issue ∈ file.issues, issue.rule.id ≠ "") ∧
      (∀ file ∈ analysis.files, ∀ issue ∈ file.issues, Fingerprint.ofIssue file.path issue ∈ known) ∧
      filter analysis known id = (⟨[{ path := "a.js" }, { path := "b.js" }]⟩, 2) := by
  intro rule blank analysis known
  have named : ∀ file ∈ analysis.files, ∀ issue ∈ file.issues, issue.rule.id ≠ "" := by
    simp [analysis, blank, rule]
  have held : ∀ file ∈ analysis.files, ∀ issue ∈ file.issues,
      Fingerprint.ofIssue file.path issue ∈ known := by
    have mem : Fingerprint.ofIssue "a.js" blank ∈ known := by decide +kernel
    simpa [analysis] using mem
  exact ⟨named, held, filter_eq_of_forall_mem analysis known id named held⟩

end Sift.Baseline
