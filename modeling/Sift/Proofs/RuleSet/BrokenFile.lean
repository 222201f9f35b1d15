import Sift.Proofs.RuleSet.Directory
import Sift.Proofs.RuleSet.Loading
import Sift.Proofs.Utf8

/-!
# Rule files that cannot be used

Rule files are loaded one after the other (`RuleSet.addFiles_eq`), and what is collected are the single errors of
the files in their order, whatever aggregates the files report (`RuleSet.reportBelow_snd`, `RuleSet.reportCorpus_sums`).
A file that is no rule source is reported in its place and changes nothing else (`RuleSet.addBelow_isolates`), as
long as no link leads over it to another rule file. Where no link lies below the directory, none can
(`RuleSet.alone_of_unlinked`).
-/

namespace Sift

namespace LoadReport

/-- An aggregate of single errors. -/
def IsFlat (report : LoadReport) : Prop := ∃ errors : List LoadError, report = .aggregate (errors.map .single)

/-- The aggregate of single errors, if there are any. -/
def flat? (errors : List LoadError) : Option LoadReport := ofCollected? (errors.map .single)

/-- Nothing is given back just if there is no error. -/
lemma flat?_eq_none_iff {errors} : flat? errors = none ↔ errors = [] := by
  cases errors with
  | nil => exact iff_of_true rfl rfl
  | cons error rest => exact iff_of_false nofun nofun

/-- What is given back is flat. -/
lemma isFlat_of_flat?_eq_some {errors report} (eq : flat? errors = some report) :
    report.IsFlat := by
  cases errors with
  | nil => cases eq
  | cons error rest =>
    cases eq
    exact ⟨error :: rest, rfl⟩

/-- The errors of single reports are those they hold. -/
lemma errorsOfAll_map_single (errors : List LoadError) : errorsOfAll (errors.map .single) = errors := by
  induction errors with
  | nil => rfl
  | cons error rest ih => exact congrArg (error :: ·) ih

/-- Flat reports are told apart by their errors. -/
lemma flat?_inj {errors errors'} (eq : flat? errors = flat? errors') : errors = errors' := by
  have same : (flat? errors).map LoadReport.errors = (flat? errors').map LoadReport.errors := congrArg _ eq
  cases errors with
  | nil => exact (flat?_eq_none_iff.mp eq.symm).symm
  | cons error rest =>
    cases errors' with
    | nil => cases eq
    | cons error' rest' =>
      have members := Option.some.inj same
      exact (errorsOfAll_map_single _).symm.trans (members.trans (errorsOfAll_map_single _))

/-- The errors of what may be a report. -/
def errorsOf : Option LoadReport → List LoadError
  | none => []
  | some report => report.errors

/-- A failure is reported with its errors. -/
lemma errorsOf_report (failure : Option LoadFailure) :
    errorsOf (failure.map LoadFailure.report) = LoadFailure.errorsOf failure := by
  cases failure with
  | none => rfl
  | some failure =>
    cases failure with
    | rejected error => rfl
    | several errors => exact errorsOfAll_map_single errors

/-- What is collected from a failure are its errors, each for itself. -/
lemma collect_report (collected : List LoadReport) (failure : Option LoadFailure) :
    collect collected (failure.map LoadFailure.report) =
      collected ++ (LoadFailure.errorsOf failure).map .single := by
  cases failure with
  | none => exact (List.append_nil collected).symm
  | some failure => cases failure <;> rfl

end LoadReport

namespace RuleSet

open Sift.FileSystem (pathBelow)
open Sift.Path (IsName ofComponents)

/-- What loading each of the files gives back, one file after the other. -/
def outcomes (fs : FileSystem) (root shown label : String) (precedence : Precedence) (set : RuleSet) :
    List String → List (Option LoadReport)
  | [] => []
  | name :: rest =>
    let (set, report) := loadFile fs root shown label precedence set name
    report :: outcomes fs root shown label precedence set rest

/-- The set after loading files. -/
def loaded (fs : FileSystem) (root shown label : String) (precedence : Precedence) (set : RuleSet)
    (names : List String) : RuleSet :=
  names.foldl (fun set name => (loadFile fs root shown label precedence set name).1) set

section Loading

variable {fs fs' : FileSystem} {root shown label : String} {precedence : Precedence} {set : RuleSet}

/-- A file that is no rule source changes nothing, and its error is reported alone. -/
lemma loadFile_of_decode_error {name content error} (read : fs.readFile (Path.join [root, name]) = .ok content)
    (fails : RuleRecord.decode precedence content (label ++ ":" ++ name) = .error error) (set : RuleSet) :
    loadFile fs root shown label precedence set name = (set, some (.single error)) := by
  rw [loadFile, read]
  simp only [add, fails]
  rfl

/-- Loading a text reports something just if there is an error. -/
lemma errorsOf_add_eq_nil_iff (content : Bytes) (source : String) :
    LoadFailure.errorsOf (set.add content source precedence).2 = [] ↔ (set.add content source precedence).2 = none := by
  unfold add
  split
  · exact iff_of_false (List.cons_ne_nil _ _) nofun
  · rw [LoadFailure.errorsOf_ofErrors?, LoadFailure.ofErrors?_eq_none_iff]

/-- What is collected from a file are its errors, whether it reports one or an aggregate of them. -/
lemma collect_loadFile (collected : List LoadReport) (name : String) :
    LoadReport.collect collected (loadFile fs root shown label precedence set name).2 =
      collected ++ (LoadReport.errorsOf (loadFile fs root shown label precedence set name).2).map .single := by
  rw [loadFile]
  cases fs.readFile (Path.join [root, name]) with
  | error error => rfl
  | ok content => exact (LoadReport.collect_report collected _).trans (by rw [← LoadReport.errorsOf_report])

/-- A file reports something just if there is an error. -/
lemma errorsOf_loadFile_eq_nil_iff (name : String) :
    LoadReport.errorsOf (loadFile fs root shown label precedence set name).2 = [] ↔
      (loadFile fs root shown label precedence set name).2 = none := by
  rw [loadFile]
  cases fs.readFile (Path.join [root, name]) with
  | error error => exact iff_of_false (List.cons_ne_nil _ _) nofun
  | ok content =>
    show LoadReport.errorsOf (Option.map LoadFailure.report _) = [] ↔ Option.map LoadFailure.report _ = none
    rw [LoadReport.errorsOf_report, Option.map_eq_none_iff]
    exact errorsOf_add_eq_nil_iff content _

/-- The files are loaded one after the other, and what is collected are the errors of each, in their order; none is
wrapped, left out or moved. -/
lemma addFiles_eq (collected : List LoadReport) (names : List String) :
    addFiles fs root shown label precedence set collected names =
      (loaded fs root shown label precedence set names, collected ++
        ((outcomes fs root shown label precedence set names).flatMap LoadReport.errorsOf).map .single) := by
  induction names generalizing set collected with
  | nil => simp [addFiles, loaded, outcomes]
  | cons name rest ih =>
    rw [addFiles, outcomes, List.flatMap_cons, List.map_append, ← List.append_assoc, ← collect_loadFile]
    exact ih _

/-- The set is that of the files one after the other. -/
lemma loaded_append (front back : List String) :
    loaded fs root shown label precedence set (front ++ back) =
      loaded fs root shown label precedence (loaded fs root shown label precedence set front) back :=
  List.foldl_append

/-- So is what they give back. -/
lemma outcomes_append (front back : List String) :
    outcomes fs root shown label precedence set (front ++ back) =
      outcomes fs root shown label precedence set front ++
        outcomes fs root shown label precedence (loaded fs root shown label precedence set front) back := by
  induction front generalizing set with
  | nil => rfl
  | cons name rest ih => exact congrArg (_ :: ·) ih

/-- What is loaded depends only on what is read. -/
lemma loaded_outcomes_congr {names} (same : ∀ name ∈ names,
      fs'.readFile (Path.join [root, name]) = fs.readFile (Path.join [root, name])) :
    loaded fs' root shown label precedence set names = loaded fs root shown label precedence set names ∧
      outcomes fs' root shown label precedence set names = outcomes fs root shown label precedence set names := by
  induction names generalizing set with
  | nil => exact ⟨rfl, rfl⟩
  | cons name rest ih =>
    obtain ⟨first, same⟩ := List.forall_mem_cons.mp same
    have eq : loadFile fs' root shown label precedence set name =
        loadFile fs root shown label precedence set name := by
      rw [loadFile, loadFile, first]
    rw [outcomes, outcomes, loaded, loaded, List.foldl_cons, List.foldl_cons, eq]
    exact ⟨(ih same).1, congrArg (_ :: ·) (ih same).2⟩

/-- No error is collected just if every file is loaded without one. -/
lemma flatMap_outcomes_eq_nil_iff (names : List String) :
    (outcomes fs root shown label precedence set names).flatMap LoadReport.errorsOf = [] ↔
      ∀ outcome ∈ outcomes fs root shown label precedence set names, outcome = none := by
  induction names generalizing set with
  | nil => exact iff_of_true rfl (List.forall_mem_nil _)
  | cons name rest ih =>
    rw [outcomes, List.flatMap_cons, List.append_eq_nil_iff, List.forall_mem_cons, ih,
      errorsOf_loadFile_eq_nil_iff]

/-- The set that loading below a root leaves. -/
lemma reportBelow_fst : (set.reportBelow fs root shown label precedence).1 =
    loaded fs root shown label precedence set (ruleFiles fs root set.recursive) := by
  rw [reportBelow, addFiles_eq]

/-- Loading below a root reports the errors of the files, each as a member of one aggregate. -/
lemma reportBelow_snd : (set.reportBelow fs root shown label precedence).2 = LoadReport.flat?
    ((outcomes fs root shown label precedence set (ruleFiles fs root set.recursive)).flatMap
      LoadReport.errorsOf) := by
  rw [reportBelow, addFiles_eq, List.nil_append]
  rfl

/-- What loading a corpus reports: the errors of its files in their order, each a member of one aggregate that
holds no other, and nothing exactly if the root is a place in the corpus and every file is loaded without error. -/
structure Sums (set : RuleSet) (corpus : FileSystem) (place name : String) (precedence : Precedence)
    (each : List (Option LoadReport)) : Prop where
  report : place = "" ∨ isCorpusPath place = true →
    (set.reportCorpus corpus place name precedence).2 = LoadReport.flat? (each.flatMap LoadReport.errorsOf)
  flat : ∀ report, (set.reportCorpus corpus place name precedence).2 = some report → report.IsFlat
  none_iff : (set.reportCorpus corpus place name precedence).2 = none ↔
    (place = "" ∨ isCorpusPath place = true) ∧ ∀ outcome ∈ each, outcome = none

/-- A corpus is loaded below its root, unless the root is no place in it. -/
theorem reportCorpus_sums (set : RuleSet) (corpus : FileSystem) (place name : String) (precedence : Precedence) :
    Sums set corpus place name precedence (outcomes corpus (Path.join ["/", place]) place name precedence set
      (ruleFiles corpus (Path.join ["/", place]) set.recursive)) := by
  have valid : ((place ≠ "" && !isCorpusPath place) = true) ↔ ¬ (place = "" ∨ isCorpusPath place = true) := by
    simp
  by_cases invalid : (place ≠ "" && !isCorpusPath place) = true
  · have refused : (set.reportCorpus corpus place name precedence).2 =
        some (.aggregate [.single (.unreadable place (.invalidRoot place))]) := by
      rw [reportCorpus, if_pos invalid]
      rfl
    refine ⟨fun place => absurd place (valid.mp invalid), ?_, ?_⟩
    · intro report eq
      cases refused.symm.trans eq
      exact ⟨[.unreadable place (.invalidRoot place)], rfl⟩
    · rw [refused]
      exact iff_of_false nofun fun both => valid.mp invalid both.1
  · have root : place = "" ∨ isCorpusPath place = true := not_not.mp fun none => invalid (valid.mpr none)
    have report : (set.reportCorpus corpus place name precedence).2 =
        (set.reportBelow corpus (Path.join ["/", place]) place name precedence).2 := by
      rw [reportCorpus, if_neg invalid]
    rw [reportBelow_snd] at report
    refine ⟨fun _ => report, fun _ eq => LoadReport.isFlat_of_flat?_eq_some (report.symm.trans eq), ?_⟩
    rw [report, LoadReport.flat?_eq_none_iff, flatMap_outcomes_eq_nil_iff]
    exact (and_iff_right root).symm

/-- Two strictly ascending lists, one of which has one member more. -/
lemma exists_split_of_pairwise {old new} {file : String} (sorted : old.Pairwise (· < ·))
    (sorted' : new.Pairwise (· < ·)) (fresh : file ∉ old) (mem : ∀ other, other ∈ new ↔ other = file ∨ other ∈ old) :
    ∃ before after, old = before ++ after ∧ new = before ++ file :: after ∧
      (∀ other ∈ before, other < file) ∧ ∀ other ∈ after, file < other := by
  obtain ⟨before, after, rfl⟩ := List.append_of_mem ((mem file).mpr (.inl rfl))
  obtain ⟨_, sortedAfter, below⟩ := List.pairwise_append.mp sorted'
  have others : (before ++ after).Pairwise (· < ·) :=
    sorted'.sublist ((List.Sublist.refl before).append (List.sublist_cons_self _ _))
  refine ⟨before, after, ?_, rfl, fun other lies => below other lies file (List.mem_cons_self ..),
    fun other lies => List.rel_of_pairwise_cons sortedAfter lies⟩
  have perm : old.Perm (before ++ after) := by
    refine (List.perm_ext_iff_of_nodup (sorted.imp ne_of_lt) (others.imp ne_of_lt)).mpr fun other => ?_
    have distinct : file ∉ before ++ after := by
      intro lies
      rcases List.mem_append.mp lies with lies | lies
      · exact lt_irrefl _ (below file lies file (List.mem_cons_self ..))
      · exact lt_irrefl _ (List.rel_of_pairwise_cons sortedAfter lies)
    have either := mem other
    constructor
    · intro lies
      have ne : other ≠ file := fun eq => fresh (eq ▸ lies)
      have lies' := either.mpr (.inr lies)
      simpa [ne] using lies'
    · intro lies
      have lies' : other ∈ before ++ file :: after := by
        rcases List.mem_append.mp lies with lies | lies <;> simp [lies]
      rcases either.mp lies' with rfl | lies'
      · exact absurd lies distinct
      · exact lies'
  exact perm.eq_of_pairwise (fun _ _ _ _ lt gt => absurd gt (lt_asymm lt)) sorted others

end Loading

/-- A file that is put into a tree, is selected and read as the rule file `file`, and is no rule source.
No other rule file is reached over it, or over a directory that was made for it. -/
structure Broken (precedence : Precedence) (set : RuleSet) (fs : FileSystem) (trail : List String) (content : Bytes)
    (root label file : String) (error : LoadError) : Prop where
  sound : fs.root.Sound
  named : ∀ name ∈ trail, IsName name
  vacant : fs.root.Vacant trail.reverse
  selected : file ∈ ruleFiles (fs.put trail (.file content)) root set.recursive
  fresh : file ∉ ruleFiles fs root set.recursive
  read : (fs.put trail (.file content)).readFile (Path.join [root, file]) = .ok content
  fails : RuleRecord.decode precedence content (label ++ ":" ++ file) = .error error
  alone : ∀ other, other ∈ ruleFiles fs root set.recursive ∨
    other ∈ ruleFiles (fs.put trail (.file content)) root set.recursive →
      other ≠ file → ¬ (fs.put trail (.file content)).Touches fs (Path.join [root, other])

/-- Loading with one file more reports one error more, in the place of the file, and loads the same. -/
structure Isolates (precedence : Precedence) (set : RuleSet) (fs fs' : FileSystem) (root shown label file : String)
    (error : LoadError) (before after : List String) (first second : List LoadError) : Prop where
  files : ruleFiles fs root set.recursive = before ++ after
  files' : ruleFiles fs' root set.recursive = before ++ file :: after
  below : ∀ other ∈ before, Utf8.ofString other < Utf8.ofString file
  above : ∀ other ∈ after, Utf8.ofString file < Utf8.ofString other
  kept : (set.reportBelow fs' root shown label precedence).1 = (set.reportBelow fs root shown label precedence).1
  front : first = (outcomes fs root shown label precedence set before).flatMap LoadReport.errorsOf
  report : (set.reportBelow fs root shown label precedence).2 = LoadReport.flat? (first ++ second)
  report' : (set.reportBelow fs' root shown label precedence).2 = LoadReport.flat? (first ++ error :: second)

/-- Without links below the directory that is searched, one new file touches no other rule file. -/
lemma alone_of_unlinked {fs root base entries recursive trail content file} (sound : fs.root.Sound)
    (named : ∀ name ∈ trail, IsName name) (vacant : fs.root.Vacant trail.reverse)
    (found : fs.locate true (pathBelow root []) = .ok ⟨base, some (.dir entries)⟩)
    (unlinked : ∀ names target, fs.root.below? (base.reverse ++ names) ≠ some (.link target))
    (selected : file ∈ ruleFiles (fs.put trail (.file content)) root recursive)
    (fresh : file ∉ ruleFiles fs root recursive) (other : String) (either : other ∈ ruleFiles fs root recursive ∨
      other ∈ ruleFiles (fs.put trail (.file content)) root recursive) (ne : other ≠ file) :
    ¬ (fs.put trail (.file content)).Touches fs (Path.join [root, other]) := by
  have grows : fs.root.Grows (fs.put trail (.file content)).root := FileSystem.grows_put vacant
  have dir : (fs.put trail (.file content)).workingDir = fs.workingDir := FileSystem.workingDir_put
  have sound' : (fs.put trail (.file content)).root.Sound := FileSystem.sound_put sound named
  have unlinked' := @FileSystem.unlinked_put fs trail content vacant base.reverse unlinked
  obtain ⟨entry, found', alike⟩ := FileSystem.locate_grows grows dir found
  obtain ⟨entries', rfl⟩ : ∃ entries', entry = .dir entries' := by
    cases alike with
    | same _ => exact ⟨_, rfl⟩
    | dirs _ entries' => exact ⟨entries', rfl⟩
  -- A rule file over something new is the file that was put.
  have whole : ∀ {path}, path ∈ ruleFiles (fs.put trail (.file content)) root recursive →
      (fs.put trail (.file content)).Touches fs (Path.join [root, path]) →
        ∃ ns, path = ofComponents false ns ∧ base.reverse ++ ns = trail.reverse := by
    intro path mem touches
    obtain ⟨ns, entry, rfl, all, place, other⟩ :=
      exists_place_of_mem_ruleFiles sound' found' unlinked' mem
    have none := touches.below?_eq_none all grows dir found unlinked'
    exact ⟨ns, rfl, (FileSystem.eq_of_new_put vacant place none other).1⟩
  intro touches
  rcases either with old | mem
  · obtain ⟨ns, entry, rfl, all, place, _⟩ := exists_place_of_mem_ruleFiles sound found unlinked old
    cases place.symm.trans (touches.below?_eq_none all grows dir found unlinked')
  · have touches' : (fs.put trail (.file content)).Touches fs (Path.join [root, file]) := by
      by_contra untouched
      exact fresh ((mem_ruleFiles_iff_of_untouched grows dir sound sound' untouched).mp selected)
    obtain ⟨ns, rfl, eq⟩ := whole mem touches
    obtain ⟨ns', rfl, eq'⟩ := whole selected touches'
    exact ne (congrArg _ (List.append_cancel_left (eq.trans eq'.symm)))

/-- Loading files of which one is refused. -/
lemma loaded_outcomes_refused {fs fs' root shown label file precedence set error before after}
    (same : ∀ other ∈ before ++ after,
      fs'.readFile (Path.join [root, other]) = fs.readFile (Path.join [root, other]))
    (own : ∀ set, loadFile fs' root shown label precedence set file = (set, some (.single error))) :
    loaded fs' root shown label precedence set (before ++ file :: after) =
        loaded fs root shown label precedence set (before ++ after) ∧
      outcomes fs' root shown label precedence set (before ++ file :: after) =
        outcomes fs root shown label precedence set before ++ some (.single error) ::
          outcomes fs root shown label precedence (loaded fs root shown label precedence set before) after := by
  obtain ⟨sameBefore, sameAfter⟩ := List.forall_mem_append.mp same
  obtain ⟨set_eq, outcomes_eq⟩ := @loaded_outcomes_congr fs fs' root shown label precedence set before sameBefore
  obtain ⟨set_eq', outcomes_eq'⟩ := @loaded_outcomes_congr fs fs' root shown label precedence
    (loaded fs root shown label precedence set before) after sameAfter
  constructor
  · rw [loaded_append, loaded_append, set_eq, loaded, List.foldl_cons, own]
    exact set_eq'
  · rw [outcomes_append, outcomes_eq, set_eq, outcomes, own, ← outcomes_eq']

/-- The rule files with the new one are those without it, and it is in its place among them; the others are read as
before. -/
lemma Broken.exists_files {precedence set fs trail content root label file error}
    (broken : Broken precedence set fs trail content root label file error) :
    ∃ before after, ruleFiles fs root set.recursive = before ++ after ∧
      ruleFiles (fs.put trail (.file content)) root set.recursive = before ++ file :: after ∧
      (∀ other ∈ before, other < file) ∧ (∀ other ∈ after, file < other) ∧
      ∀ other ∈ before ++ after, (fs.put trail (.file content)).readFile (Path.join [root, other]) =
        fs.readFile (Path.join [root, other]) := by
  obtain ⟨sound, named, vacant, selected, fresh, _, _, alone⟩ := broken
  have grows : fs.root.Grows (fs.put trail (.file content)).root := FileSystem.grows_put vacant
  have dir : (fs.put trail (.file content)).workingDir = fs.workingDir := FileSystem.workingDir_put
  have sound' : (fs.put trail (.file content)).root.Sound := FileSystem.sound_put sound named
  have mem : ∀ other, other ∈ ruleFiles (fs.put trail (.file content)) root set.recursive ↔
      other = file ∨ other ∈ ruleFiles fs root set.recursive := by
    intro other
    by_cases eq : other = file
    · subst eq
      exact iff_of_true selected (.inl rfl)
    · constructor
      · intro lies
        have untouched := alone other (.inr lies) eq
        exact .inr ((mem_ruleFiles_iff_of_untouched grows dir sound sound' untouched).mp lies)
      · rintro (same | lies)
        · exact absurd same eq
        · have untouched := alone other (.inl lies) eq
          exact (mem_ruleFiles_iff_of_untouched grows dir sound sound' untouched).mpr lies
  obtain ⟨before, after, files, files', below, above⟩ := exists_split_of_pairwise
    (ruleFiles_pairwise sound _) (ruleFiles_pairwise sound' _) fresh mem
  refine ⟨before, after, files, files', below, above, ?_⟩
  intro other lies
  rw [← files] at lies
  have ne : other ≠ file := fun eq => fresh (eq ▸ lies)
  exact (FileSystem.locate_same grows dir (alone other (.inl lies) ne)).readFile_eq

/-- A rule file that is no rule source is isolated. The rule files of a directory and those of a corpus
are loaded below a root: with such a file put into the tree, the same rules are loaded, and its one error
is reported between those of the files that come before it and those of the files that come after it.

The report of a corpus holds the errors of its files and no report in another. There is none exactly if the
root is a place in the corpus and every file is loaded without error. -/
theorem addBelow_isolates {precedence : Precedence} {set : RuleSet} {fs : FileSystem} {trail : List String}
    {content : Bytes} {root label file : String} {error : LoadError}
    (broken : Broken precedence set fs trail content root label file error) (shown : String) :
    (∃ before after first second, Isolates precedence set fs (fs.put trail (.file content)) root shown label file
      error before after first second) ∧
    ∀ (corpus : FileSystem) (place name : String),
      Sums set corpus place name precedence (outcomes corpus (Path.join ["/", place]) place name precedence set
        (ruleFiles corpus (Path.join ["/", place]) set.recursive)) := by
  refine ⟨?_, fun corpus place name => reportCorpus_sums set corpus place name precedence⟩
  obtain ⟨before, after, files, files', below, above, same⟩ := broken.exists_files
  have own := @loadFile_of_decode_error _ root shown label precedence file content error broken.read broken.fails
  obtain ⟨kept, new⟩ := @loaded_outcomes_refused fs _ root shown label file precedence set error before after same own
  have old := @outcomes_append fs root shown label precedence set before after
  refine ⟨before, after, (outcomes fs root shown label precedence set before).flatMap LoadReport.errorsOf,
    (outcomes fs root shown label precedence (loaded fs root shown label precedence set before) after).flatMap
      LoadReport.errorsOf,
    files, files', fun other lies => Utf8.ofString_lt_ofString (below other lies),
    fun other lies => Utf8.ofString_lt_ofString (above other lies), ?_, rfl, ?_, ?_⟩
  · rw [reportBelow_fst, reportBelow_fst, files', files, kept]
  · rw [reportBelow_snd, files, old, List.flatMap_append]
  · rw [reportBelow_snd, files', new, List.flatMap_append]
    rfl

/-- A bracket alone is no rule source. -/
lemma decode_bracket (precedence : Precedence) (source : String) :
    RuleRecord.decode precedence (Utf8.ofString "[") source = .error (.parse source "" .malformed) := by
  have chars : Text.trimChars ((Utf8.codePoints (Utf8.ofString "[")).map Char.ofNat) = ['['] := by
    decide +kernel
  have unread : Json.parseChars ['['] = none := Option.isNone_iff_eq_none.mp (by decide +kernel)
  simp only [RuleRecord.decode, chars, unread]
  rfl

/-- A broken file in a directory of its own, between two rule files. -/
theorem addBelow_isolates_nested :
    let rule := Utf8.ofString
      "[\x7b\"id\":\"A\",\"severity\":\"critical\",\"patterns\":[\x7b\"pattern\":\"x\"\x7d]\x7d]"
    let content := Utf8.ofString "["
    let fs := ((⟨.dir [], "/"⟩ : FileSystem).put ["a.json", "d"] (.file rule)).put ["z.json", "d"]
      (.file rule)
    let error := LoadError.parse "l:m/b.json" "" .malformed
    Broken .first (after true []) fs ["b.json", "m", "d"] content "/d" "l" "m/b.json" error ∧
      ∃ before after' first second, Isolates .first (after true []) fs
        (fs.put ["b.json", "m", "d"] (.file content)) "/d" "." "l" "m/b.json" error
        before after' first second := by
  intro rule content fs error
  have empty : (⟨.dir [], "/"⟩ : FileSystem).root.Sound := Entry.sound_of_children rfl
  have one : ((⟨.dir [], "/"⟩ : FileSystem).put ["a.json", "d"] (.file rule)).root.Sound :=
    FileSystem.sound_put empty (by decide)
  have sound : fs.root.Sound := FileSystem.sound_put one (by decide)
  have sound' : (fs.put ["b.json", "m", "d"] (.file content)).root.Sound :=
    FileSystem.sound_put sound (by decide)
  have vacant : fs.root.Vacant ["d", "m", "b.json"] := by decide
  have unlinked : ∀ names target, fs.root.below? (["d"] ++ names) ≠ some (.link target) :=
    FileSystem.unlinked_put (by decide) (FileSystem.unlinked_put (by decide) (by rintro names target ⟨⟩))
  -- Paths below the directory lead to what the trees hold.
  have look : ∀ {tree : FileSystem} {ns : List String} {entry : Entry}, (∀ name ∈ ns, IsName name) →
      tree.root.below? (["d"] ++ ns) = some entry → (∀ target, entry ≠ .link target) →
        tree.locate true (pathBelow "/d" ns) = .ok ⟨(["d"] ++ ns).reverse, some entry⟩ := fun all =>
    FileSystem.locate_of_below? all (by decide) (by decide) (by decide) (by decide)
  have found : fs.locate true (pathBelow "/d" []) =
      .ok ⟨["d"], some (.dir [("a.json", .file rule), ("z.json", .file rule)])⟩ :=
    look (List.forall_mem_nil _) rfl (by rintro target ⟨⟩)
  have selected : "m/b.json" ∈ ruleFiles (fs.put ["b.json", "m", "d"] (.file content)) "/d" true := by
    have top := FileSystem.readDir_eq_ok_iff.mpr ⟨_, @look (fs.put ["b.json", "m", "d"] (.file content))
      [] (.dir [("a.json", .file rule), ("m", .dir [("b.json", .file content)]), ("z.json", .file rule)])
      (List.forall_mem_nil _) rfl (by rintro target ⟨⟩)⟩
    have inner := FileSystem.readDir_eq_ok_iff.mpr ⟨_, @look (fs.put ["b.json", "m", "d"] (.file content))
      ["m"] (.dir [("b.json", .file content)]) (by decide) rfl (by rintro target ⟨⟩)⟩
    have listed : Lists (fs.put ["b.json", "m", "d"] (.file content)) "/d" [] "m"
        (.dir [("b.json", .file content)]) := ⟨_, top, List.mem_cons_of_mem _ (List.mem_cons_self ..)⟩
    exact (mem_ruleFiles sound').mpr ⟨["m"], "b.json", by decide, ⟨by decide, ⟨_, listed, rfl⟩, _, inner⟩,
      _, ⟨_, inner, List.mem_singleton_self _⟩, by decide, rfl⟩
  have fresh : "m/b.json" ∉ ruleFiles fs "/d" true := by
    intro mem
    obtain ⟨ns, entry, eq, all, place, _⟩ := exists_place_of_mem_ruleFiles sound found unlinked mem
    obtain rfl : ["m", "b.json"] = ns := Path.ofComponents_inj (by decide) all eq
    cases place
  have read : (fs.put ["b.json", "m", "d"] (.file content)).readFile (Path.join ["/d", "m/b.json"]) =
      .ok content := by
    have place := @look (fs.put ["b.json", "m", "d"] (.file content)) ["m", "b.json"] (.file content)
      (by decide) rfl (by rintro target ⟨⟩)
    rw [FileSystem.readFile, FileSystem.entryAt]
    exact place ▸ rfl
  have broken : Broken .first (after true []) fs ["b.json", "m", "d"] content "/d" "l" "m/b.json" error :=
    { sound, named := by decide, vacant, selected, fresh, read, fails := decode_bracket _ _
      alone := alone_of_unlinked sound (by decide) vacant found unlinked selected fresh }
  exact ⟨broken, (addBelow_isolates broken ".").1⟩

lemma ruleFiles_flat {fs root files} (inside : ruleFilesIn fs root "." = files)
    (sorted : files.Pairwise (fun a b => decide (a ≤ b) = true)) :
    ruleFiles fs root false = files := by
  rw [ruleFiles, if_neg Bool.false_ne_true, List.flatMap_singleton, inside]
  exact List.mergeSort_of_pairwise sorted

/-- A directory with a link to a file beside it, and the entries that are listed before the link. -/
def beside (entries : List (String × Entry)) : FileSystem :=
  ⟨.dir [("d", .dir (entries ++ [("x.json", .link "g.json")]))], "/"⟩

lemma readDir_beside (entries : List (String × Entry)) :
    (beside entries).readDir (Path.join ["/d", "."]) = .ok (entries ++ [("x.json", .link "g.json")]) := by
  have place : (beside entries).root.below? (["d"] ++ []) =
      some (.dir (entries ++ [("x.json", .link "g.json")])) := rfl
  have real : ∀ target, Entry.dir (entries ++ [("x.json", .link "g.json")]) ≠ .link target := by
    rintro target ⟨⟩
  exact FileSystem.readDir_eq_ok_iff.mpr ⟨["d"], @FileSystem.locate_of_below? (beside entries) "/d" []
    (List.forall_mem_nil _) ["d"] _ (by decide) (by decide) (by decide) (by decide) place real⟩

lemma locate_beside {entries} (unlisted : entries.lookup "x.json" = none) :
    (beside entries).locate true "/d/x.json" =
      FileSystem.ends (beside entries).root ⟨39, ["d"], ["g.json"]⟩ := by
  have real : ∀ target, Entry.dir (entries ++ [("x.json", .link "g.json")]) ≠ .link target := by
    rintro target ⟨⟩
  have enter : FileSystem.Step (beside entries).root ⟨40, [], ["d", "x.json"]⟩ ⟨40, ["d"], ["x.json"]⟩ :=
    .enter rfl ⟨by decide, by decide, by decide⟩ rfl real
  have listed : (entries ++ [("x.json", Entry.link "g.json")]).lookup "x.json" =
      some (.link "g.json") := by
    rw [List.lookup_append, unlisted]
    rfl
  have turn : FileSystem.Step (beside entries).root ⟨40, ["d"], ["x.json"]⟩ ⟨39, ["d"], ["g.json"]⟩ :=
    .turn rfl ⟨by decide, by decide, by decide⟩ listed (by decide)
  have start : (beside entries).walkTo "/d/x.json" = ⟨40, [], ["d", "x.json"]⟩ := rfl
  rw [FileSystem.locate_eq_ends _ (by decide) (by decide), start, FileSystem.ends_of_step enter,
    FileSystem.ends_of_step turn]

lemma ruleFiles_of_empty : ruleFiles ⟨.dir [], "/"⟩ "/x" false = [] := by
  have path : Path.join ["/x", "."] = "/x" := by decide
  have start : (⟨.dir [], "/"⟩ : FileSystem).walkTo "/x" = ⟨40, [], ["x"]⟩ := rfl
  have missing : FileSystem.Halt (.dir []) ⟨40, [], ["x"]⟩ (.ok ⟨["x"], none⟩) :=
    .missing rfl ⟨by decide, by decide, by decide⟩ rfl
  refine ruleFiles_flat ?_ .nil
  rw [ruleFilesIn, path, FileSystem.readDir, FileSystem.entryAt,
    FileSystem.locate_eq_ends _ (by decide) (by decide), start, missing.ends_eq]

/-- Both conditions are needed. A link that led nowhere leads to the new file once it is there, and is
reported otherwise than before. A root that is no place in the corpus is an error, although no file
failed. -/
theorem link_changes_error_and_root_is_refused :
    let content := Utf8.ofString "["
    let fs := beside []
    let fs' := fs.put ["g.json", "d"] (.file content)
    let error := LoadError.parse "l:g.json" "" .malformed
    fs.root.Sound ∧ (∀ name ∈ ["g.json", "d"], IsName name) ∧ fs.root.Vacant ["d", "g.json"] ∧
      "g.json" ∈ ruleFiles fs' "/d" false ∧ "g.json" ∉ ruleFiles fs "/d" false ∧
      fs'.readFile (Path.join ["/d", "g.json"]) = .ok content ∧
      RuleRecord.decode .first content ("l" ++ ":" ++ "g.json") = .error error ∧
      ((after false []).reportBelow fs "/d" "." "l").2 =
        LoadReport.flat? [.unreadable "x.json" (.file ⟨"open", "x.json", .noEntry⟩)] ∧
      ((after false []).reportBelow fs' "/d" "." "l").2 =
        LoadReport.flat? [error, .parse "l:x.json" "" .malformed] ∧
      (¬ ∃ before after' first second, Isolates .first (after false []) fs fs' "/d" "." "l" "g.json" error
        before after' first second) ∧
      ruleFiles ⟨.dir [], "/"⟩ (Path.join ["/", "../x"]) false = [] ∧
      ((after false []).reportCorpus ⟨.dir [], "/"⟩ "../x" "l").2 ≠ none := by
  have path : Path.join ["/d", "x.json"] = "/d/x.json" := by decide
  have path' : Path.join ["/d", under "." "x.json"] = "/d/x.json" := by decide
  have recursive : (after false []).recursive = false := rfl
  intro content fs fs' error
  have same : fs' = beside [("g.json", .file content)] := rfl
  have real : ∀ target, Entry.file content ≠ .link target := by
    rintro target ⟨⟩
  have lost : fs.locate true "/d/x.json" = .ok ⟨["g.json", "d"], none⟩ :=
    (locate_beside rfl).trans (FileSystem.Halt.missing rfl ⟨by decide, by decide, by decide⟩ rfl).ends_eq
  have led : fs'.locate true "/d/x.json" = .ok ⟨["g.json", "d"], some (.file content)⟩ := by
    have enter : FileSystem.Step fs'.root ⟨39, ["d"], ["g.json"]⟩ ⟨39, ["g.json", "d"], []⟩ :=
      .enter rfl ⟨by decide, by decide, by decide⟩ rfl real
    have arrived : FileSystem.Halt fs'.root ⟨39, ["g.json", "d"], []⟩
        (.ok ⟨["g.json", "d"], some (.file content)⟩) := .arrived rfl
    rw [same, locate_beside (by decide), ← same, FileSystem.ends_of_step enter, arrived.ends_eq]
  have unread : fs.readFile (Path.join ["/d", "x.json"]) = .error ⟨"open", "/d/x.json", .noEntry⟩ := by
    rw [path, FileSystem.readFile, FileSystem.entryAt, lost]
  have readX : fs'.readFile (Path.join ["/d", "x.json"]) = .ok content := by
    rw [path, FileSystem.readFile, FileSystem.entryAt, led]
  have readG : fs'.readFile (Path.join ["/d", "g.json"]) = .ok content := by
    have place := @FileSystem.locate_of_below? fs' "/d" ["g.json"] (by decide) ["d"] (.file content)
      (by decide) (by decide) (by decide) (by decide) rfl real
    rw [FileSystem.readFile, FileSystem.entryAt]
    exact place ▸ rfl
  have files : ruleFiles fs "/d" false = ["x.json"] := by
    have other : fs.isDir (Path.join ["/d", under "." "x.json"]) = false := by
      rw [path', FileSystem.isDir, FileSystem.stat, FileSystem.entryAt, lost]
    refine ruleFiles_flat ?_ (List.pairwise_singleton _ _)
    rw [ruleFilesIn, readDir_beside]
    simp only [List.nil_append, List.filterMap_cons, List.filterMap_nil, entryIsDir, other]
    decide
  have files' : ruleFiles fs' "/d" false = ["g.json", "x.json"] := by
    have other : fs'.isDir (Path.join ["/d", under "." "x.json"]) = false := by
      rw [path', FileSystem.isDir, FileSystem.stat, FileSystem.entryAt, led]
      rfl
    refine ruleFiles_flat ?_ (by decide)
    rw [same, ruleFilesIn, readDir_beside, ← same]
    simp only [List.cons_append, List.nil_append, List.filterMap_cons, List.filterMap_nil, entryIsDir,
      other]
    decide
  have report : ((after false []).reportBelow fs "/d" "." "l").2 =
      LoadReport.flat? [.unreadable "x.json" (.file ⟨"open", "x.json", .noEntry⟩)] := by
    have shown : Path.join [".", "x.json"] = "x.json" := by decide
    rw [reportBelow_snd, recursive, files, outcomes, loadFile, unread, shown]
    rfl
  have report' : ((after false []).reportBelow fs' "/d" "." "l").2 =
      LoadReport.flat? [error, .parse "l:x.json" "" .malformed] := by
    rw [reportBelow_snd, recursive, files']
    simp only [outcomes, loadFile_of_decode_error readG (decode_bracket _ _),
      loadFile_of_decode_error readX (decode_bracket _ _)]
    rfl
  have empty : (Entry.dir []).Sound := Entry.sound_of_children rfl
  have sound : fs.root.Sound := @Entry.Sound.insertChild (.dir []) _ empty "d" (by decide)
    (@Entry.Sound.insertChild (.dir []) (.link "g.json") empty "x.json" (by decide)
      (Entry.sound_of_children rfl))
  have place : Path.join ["/", "../x"] = "/x" := by decide
  have refused : ((after false []).reportCorpus ⟨.dir [], "/"⟩ "../x" "l").2 ≠ none := by
    rw [reportCorpus, if_pos (by decide)]
    exact Option.some_ne_none _
  refine ⟨sound, by decide, by decide, by simp [files'], by simp [files], readG, decode_bracket _ _,
    report, report', ?_, place ▸ ruleFiles_of_empty, refused⟩
  rintro ⟨before, after', first, second, isolates⟩
  -- The error of the link would be reported in both runs.
  have first_second := LoadReport.flat?_inj (isolates.report.symm.trans report)
  have with_error := LoadReport.flat?_inj (isolates.report'.symm.trans report')
  have unreadable : LoadError.unreadable "x.json" (.file ⟨"open", "x.json", .noEntry⟩) ∈
      first ++ second := by
    rw [first_second]
    exact List.mem_singleton_self _
  have still : LoadError.unreadable "x.json" (.file ⟨"open", "x.json", .noEntry⟩) ∈
      first ++ error :: second :=
    ((List.Sublist.refl first).append (List.sublist_cons_self _ _)).subset unreadable
  rw [with_error] at still
  simp [error] at still

end RuleSet

end Sift
