import Sift.Proofs.Baseline.Filter

/-!
# What a baseline leaves

The issues of all files are numbered through. Two loops have to agree on the numbers: the one that lists
the fingerprints and the one that asks for them. Here the number of an issue is read off the files before
its own (`issuesBefore`); it is the position of the fingerprint of the issue (`getElem?_fingerprints`) and
the position that filtering asks for (`filterFiles_fst`). So filtering takes the known issues out of each
file and leaves all else as it is (`filter_filtered`).
-/

namespace Sift.Baseline

/-- How many issues the files before the `n`-th have. -/
def issuesBefore (files : List FileResult) (n : Nat) : Nat :=
  ((files.take n).flatMap (·.issues)).length

lemma issuesBefore_zero (files : List FileResult) : issuesBefore files 0 = 0 := rfl

lemma issuesBefore_cons (file : FileResult) (rest : List FileResult) (n : Nat) :
    issuesBefore (file :: rest) (n + 1) = file.issues.length + issuesBefore rest n := by
  rw [issuesBefore, List.take_succ_cons, List.flatMap_cons, List.length_append, issuesBefore]

/-- The number of an issue is the position of its fingerprint. -/
lemma getElem?_fingerprints {reportPath analysis n j file issue} (at_n : analysis.files[n]? = some file)
    (at_j : file.issues[j]? = some issue) :
    (fingerprints reportPath analysis)[issuesBefore analysis.files n + j]? =
      some (.ofIssue (reportPath file.path) issue) := by
  obtain ⟨files⟩ := analysis
  rw [fingerprints]
  dsimp only at at_n ⊢
  have inFile : j < (file.issues.map (Fingerprint.ofIssue (reportPath file.path))).length := by
    rw [List.length_map]
    exact (List.getElem?_eq_some_iff.mp at_j).1
  induction files generalizing n with
  | nil => cases at_n
  | cons first rest ih =>
    rw [List.flatMap_cons]
    cases n with
    | zero =>
      obtain rfl := Option.some.inj at_n
      rw [issuesBefore_zero, Nat.zero_add, List.getElem?_append_left inFile, List.getElem?_map, at_j]
      rfl
    | succ n =>
      rw [issuesBefore_cons, Nat.add_assoc, ← List.length_map (Fingerprint.ofIssue (reportPath first.path)),
        List.getElem?_append_right (Nat.le_add_right _ _), Nat.add_sub_cancel_left]
      exact ih at_n

section

variable (correlator : Correlator) (position : Nat)

/-- Issues that are numbered from a position are asked for by that position and their places. -/
lemma keepUnknown_eq (issues : List Issue) : keepUnknown correlator position issues =
    (issues.zipIdx.filter fun (_, j) => !isKnown correlator (position + j)).map (·.1) := by
  rw [keepUnknown, List.zipIdx_eq_map_add, List.filter_map, List.map_map]
  rfl

lemma countKnown_add_length (issues : List Issue) :
    countKnown correlator position issues + (keepUnknown correlator position issues).length =
      issues.length := by
  have split := List.length_eq_countP_add_countP (fun (_, i) => isKnown correlator i)
    (l := issues.zipIdx position)
  rw [List.length_zipIdx] at split
  rw [countKnown, keepUnknown, List.length_map, ← List.countP_eq_length_filter, split]
  congr 1
  refine List.countP_congr ?_
  rintro ⟨_, i⟩ _
  simp

/-- Filtering asks for an issue by its number. -/
lemma filterFiles_fst (files : List FileResult) :
    (filterFiles correlator position files).1 = files.mapIdx fun n file =>
      { file with issues := keepUnknown correlator (position + issuesBefore files n) file.issues } := by
  induction files generalizing position with
  | nil => rfl
  | cons file rest ih =>
    rw [List.mapIdx_cons, issuesBefore_zero, Nat.add_zero]
    simp only [issuesBefore_cons, ← Nat.add_assoc, ← ih]
    rfl

/-- What is taken out and what is left are all issues. -/
lemma filterFiles_snd_add_length (files : List FileResult) :
    (filterFiles correlator position files).2 +
        ((filterFiles correlator position files).1.flatMap (·.issues)).length =
      (files.flatMap (·.issues)).length := by
  induction files generalizing position with
  | nil => rfl
  | cons file rest ih =>
    have here := countKnown_add_length correlator position file.issues
    have later := ih (position + file.issues.length)
    simp only [filterFiles, List.flatMap_cons, List.length_append]
    omega

/-- What is left of the files has the fingerprints whose positions are not known. -/
lemma flatMap_filterFiles (print : String → Issue → Fingerprint) (files : List FileResult) :
    (filterFiles correlator position files).1.flatMap (fun file => file.issues.map (print file.path)) =
      (((files.flatMap fun file => file.issues.map (print file.path)).zipIdx position).filter
        fun (_, i) => !isKnown correlator i).map (·.1) := by
  induction files generalizing position with
  | nil => rfl
  | cons file rest ih =>
    have here : (keepUnknown correlator position file.issues).map (print file.path) =
        (((file.issues.map (print file.path)).zipIdx position).filter
          fun (_, i) => !isKnown correlator i).map (·.1) := by
      rw [keepUnknown, List.zipIdx_map, List.filter_map, List.map_map, List.map_map]
      rfl
    have later := ih (position + file.issues.length)
    rw [List.flatMap_cons, List.zipIdx_append, List.filter_append, List.map_append, List.length_map,
      ← here, ← later]
    rfl

/-- Where nothing is known, nothing is taken out. -/
lemma filterFiles_of_isKnown_eq_false (unknown : ∀ i, isKnown correlator i = false)
    (files : List FileResult) : filterFiles correlator position files = (files, 0) := by
  induction files generalizing position with
  | nil => rfl
  | cons file rest ih =>
    have keep : keepUnknown correlator position file.issues = file.issues := by
      simp [keepUnknown, unknown]
    have count : countKnown correlator position file.issues = 0 := by
      simp [countKnown, unknown]
    rw [filterFiles, ih, keep, count]

end

/-- An empty baseline knows nothing. -/
lemma isKnown_correlate_nil (current : List Fingerprint) (i : Nat) :
    isKnown (correlate current []) i = false := by
  refine Bool.eq_false_iff.mpr fun known => ?_
  obtain ⟨s, k, linked⟩ := isKnown_iff.mp known
  obtain ⟨_, _, _, _, _, at_k, _⟩ := linked.to_alike
  cases at_k

/-- The early answer for an empty baseline is what filtering gives. -/
lemma filter_eq (analysis : Analysis) (known : List Fingerprint) (reportPath : String → String) :
    filter analysis known reportPath =
      let files := filterFiles (correlate (fingerprints reportPath analysis) known) 0 analysis.files
      (⟨files.1⟩, files.2) := by
  cases known with
  | nil =>
    rw [filterFiles_of_isKnown_eq_false _ _ (isKnown_correlate_nil _)]
    rfl
  | cons old rest => rfl

/-- A result without what the baseline knows. -/
structure Filtered (analysis : Analysis) (known : List Fingerprint) (reportPath : String → String)
    (result : Analysis × Nat) : Prop where
  /-- The number of an issue is the position of its fingerprint. -/
  numbered : ∀ n file j issue, analysis.files[n]? = some file → file.issues[j]? = some issue →
    (fingerprints reportPath analysis)[issuesBefore analysis.files n + j]? =
      some (.ofIssue (reportPath file.path) issue)
  /-- The files are what they were, and of their issues those are left whose numbers are not known. -/
  files : result.1.files = analysis.files.mapIdx fun n file => { file with
    issues := (file.issues.zipIdx.filter fun (_, j) =>
      !isKnown (correlate (fingerprints reportPath analysis) known)
        (issuesBefore analysis.files n + j)).map (·.1) }
  /-- What is left is what the correlator holds to be new. -/
  fingerprints_eq : fingerprints reportPath result.1 = unmatched (fingerprints reportPath analysis) known
  /-- What is taken out and what is left are all issues. -/
  count : result.2 + result.1.issues.length = analysis.issues.length
  /-- The answer is that of the loop over the files, also for an empty baseline. -/
  loop : (result.1.files, result.2) =
    filterFiles (correlate (fingerprints reportPath analysis) known) 0 analysis.files

/-- Filtering takes the known issues out of a result, and nothing else. -/
theorem filter_filtered (analysis : Analysis) (known : List Fingerprint)
    (reportPath : String → String) :
    Filtered analysis known reportPath (filter analysis known reportPath) := by
  rw [filter_eq]
  refine ⟨fun n file j issue => getElem?_fingerprints, ?_, ?_, ?_, rfl⟩
  · simp only [filterFiles_fst, keepUnknown_eq, Nat.zero_add]
  · exact flatMap_filterFiles _ 0 (fun path => .ofIssue (reportPath path)) analysis.files
  · exact filterFiles_snd_add_length _ 0 analysis.files

end Sift.Baseline
