import Mathlib.Data.List.Sort
import Sift.Proofs.Analyzer.Walk

/-!
# Directories behind links

Where nothing is passed over, the results for a directory do not depend on the path it is given by, save
that they name the files from there (`Analyzer.files_paths_moved`). A link to a directory is the exception:
it is not walked, unless there is a slash behind it (`Analyzer.paths_link`).
-/

namespace Sift

open Sift.FileSystem (pathBelow)
open Sift.Path (IsName)

namespace Path

lemma append_lt_append_iff {lead a b : String} : lead ++ a < lead ++ b ↔ a < b := by
  have mono : ∀ {a b : String}, a < b → lead ++ a < lead ++ b := by
    intro a b lt
    rw [String.lt_iff_toList_lt] at lt ⊢
    rw [String.toList_append, String.toList_append]
    exact List.append_left_lt lt
  refine ⟨fun lt => ?_, mono⟩
  rcases lt_trichotomy a b with below | rfl | above
  · exact below
  · exact absurd lt (lt_irrefl _)
  · exact absurd lt (lt_asymm (mono above))

variable {root root' : String} {ns ns' : List String} (all : ∀ name ∈ ns, IsName name)

include all in
/-- Paths below a directory come in the order of what they are seen from there. -/
lemma pathBelow_lt_iff (all' : ∀ name ∈ ns', IsName name) (ne : ns ≠ []) (ne' : ns' ≠ []) :
    pathBelow root ns < pathBelow root ns' ↔ "/".intercalate ns < "/".intercalate ns' := by
  obtain ⟨lead, -, eq⟩ := exists_ofComponents_append (isAbsolute root)
    fun _ => @isPart_of_mem_cleanComponents root _
  rw [pathBelow, join_ofComponents root all, eq ns ne fun name mem => (all name mem).isPart, pathBelow,
    join_ofComponents root all', eq ns' ne' fun name mem => (all' name mem).isPart, append_lt_append_iff]

include all in
/-- The last element of a path below a directory does not depend on the directory. -/
lemma base_pathBelow_eq (ne : ns ≠ []) : base (pathBelow root ns) = base (pathBelow root' ns) := by
  obtain ⟨front, last, rfl⟩ := (List.eq_nil_or_concat' ns).resolve_left ne
  have isPart : IsPart last := (all last (by simp)).isPart
  have base : ∀ root, base (pathBelow root (front ++ [last])) = last := by
    intro root
    refine base_of_afterLastSlash isPart ?_
    have parts := @FileSystem.isPart_of_below root _ all
    rw [← List.append_assoc] at parts
    rw [pathBelow, join_ofComponents root all, ← List.append_assoc, afterLastSlash_ofComponents _ parts]
  rw [base root, base root']

/-- A slash at the end of a path does not change what is clean. -/
lemma cleanComponents_slash {path} (ne : path ≠ "") :
    cleanComponents (path ++ "/") = cleanComponents path := by
  have parts : components (path ++ "/") = components path := by
    rw [← @String.append_empty (path ++ "/"), components_append]
    exact List.append_nil _
  rw [cleanComponents, FileSystem.isAbsolute_slash ne, parts, cleanComponents]

/-- A slash at the end is cleaned away. -/
lemma clean_slash {path} (ne : path ≠ "") : clean (path ++ "/") = clean path := by
  rw [clean, FileSystem.isAbsolute_slash ne, cleanComponents_slash ne, clean]

include all in
lemma pathBelow_slash (ne : root ≠ "") : pathBelow (root ++ "/") ns = pathBelow root ns := by
  rw [pathBelow, join_ofComponents _ all, FileSystem.isAbsolute_slash ne, cleanComponents_slash ne, pathBelow,
    join_ofComponents root all]

end Path

lemma Language.ofFileName_congr {path path'} (base : Path.base path' = Path.base path) (ne : path ≠ "")
    (ne' : path' ≠ "") : ofFileName path' = ofFileName path := by
  simp only [ofFileName, base, ne, ne']

/-- The result with its path given from `q` in place of `d`. -/
def FileResult.moved (d q : String) (result : FileResult) : FileResult :=
  { result with path := Path.join [q, Path.relativeTo d result.path] }

namespace Analyzer

variable {analyzer : Analyzer} {files : FileSystem} {d q : String} {entries : List (String × Entry)}

/-- What is said of a file depends on its path by its languages only. -/
lemma candidate_congr {path path' trail trail' content}
    (found : files.locate true path = .ok ⟨trail, some (.file content)⟩)
    (found' : files.locate true path' = .ok ⟨trail', some (.file content)⟩)
    (languages : analyzer.resolver.resolve "" path' = analyzer.resolver.resolve "" path) :
    analyzer.candidate files path' = { analyzer.candidate files path with path := path' } := by
  simp only [candidate, Refusals.attempt_nothing, FileSystem.stat, FileSystem.readFile, FileSystem.entryAt, found,
    found', languages]
  split
  · rfl
  · split
    · rfl
    · rfl

lemma Reaches.ne_nil {ns} (reaches : analyzer.Reaches d [] (.dir entries) ns) : ns ≠ [] := by
  rintro rfl
  obtain ⟨content, found⟩ := reaches.file
  cases found

lemma PassesAll.reaches (passes : analyzer.PassesAll) {above ns entry} (reaches : analyzer.Reaches d above entry ns)
    (q : String) : analyzer.Reaches q above entry ns :=
  ⟨reaches.file, passes.admits q _, fun front some before ne =>
    ⟨(reaches.through front some before ne).1, passes.admits q _⟩⟩

lemma path_moved {ns} (ne : d ≠ "") (all : ∀ name ∈ ns, IsName name) {result : FileResult}
    (path : result.path = pathBelow d ns) : (result.moved d q).path = pathBelow q ns := by
  rw [FileResult.moved, path, Path.relativeTo_pathBelow all ne, pathBelow]

section Moved

variable (sound : files.root.Sound) (passes : analyzer.PassesAll)
  (real : files.lstat d = .ok (.dir entries)) (same : files.stat (Path.clean d) = .ok (.dir entries))
  (real' : files.lstat q = .ok (.dir entries)) (same' : files.stat (Path.clean q) = .ok (.dir entries))

include sound real same same' in
/-- A result moves with its file. -/
lemma moved_candidate {ns} (reaches : analyzer.Reaches d [] (.dir entries) ns) :
    (analyzer.candidate files (pathBelow d ns)).moved d q = analyzer.candidate files (pathBelow q ns) := by
  have below := sound_entries sound same
  have all := reaches.isName below
  obtain ⟨content, file⟩ := reaches.file
  obtain ⟨trail, found⟩ := locate_below sound same file (by rintro target ⟨⟩)
  obtain ⟨trail', found'⟩ := locate_below sound same' file (by rintro target ⟨⟩)
  obtain ⟨_, _, _, some, _⟩ := FileSystem.exists_steps_of_locate found
  obtain ⟨_, _, _, some', _⟩ := FileSystem.exists_steps_of_locate found'
  have languages : analyzer.resolver.resolve "" (pathBelow q ns) =
      analyzer.resolver.resolve "" (pathBelow d ns) := by
    rw [Language.Resolver.resolve, Language.Resolver.resolve,
      Language.ofFileName_congr (Path.base_pathBelow_eq all reaches.ne_nil) some some']
  have path := @path_moved d q ns (ne_empty real) all _ (analyzer.path_candidate files (pathBelow d ns) .nothing)
  rw [candidate_congr found found' languages, ← path]
  rfl

include sound passes real same real' same' in
/-- The results for a directory that is given by two paths are the same, under their own paths. -/
lemma files_paths_moved : (analyzer.paths files [q]).files =
    (analyzer.paths files [d]).files.map (FileResult.moved d q) := by
  have below := sound_entries sound same
  have irrefl : Std.Irrefl fun a b : FileResult => a.path < b.path := ⟨fun a => lt_irrefl a.path⟩
  have antisymm : Std.Antisymm fun a b : FileResult => a.path < b.path :=
    ⟨fun a b lt gt => absurd lt (lt_asymm gt)⟩
  refine List.Pairwise.eq_of_mem_iff (pairwise_files_paths sound real' same') (List.pairwise_map.mpr ?_) ?_
  · refine (pairwise_files_paths sound real same).imp_of_mem ?_
    intro a b mem mem' lt
    obtain ⟨ns, reaches, rfl⟩ := (mem_files_paths sound real same).mp mem
    obtain ⟨ns', reaches', rfl⟩ := (mem_files_paths sound real same).mp mem'
    have all := reaches.isName below
    have all' := reaches'.isName below
    rw [path_candidate, path_candidate, Path.pathBelow_lt_iff all all' reaches.ne_nil reaches'.ne_nil] at lt
    rw [path_moved (ne_empty real) all (path_candidate ..), path_moved (ne_empty real) all' (path_candidate ..)]
    exact (Path.pathBelow_lt_iff all all' reaches.ne_nil reaches'.ne_nil).mpr lt
  · intro result
    rw [mem_files_paths sound real' same', List.mem_map]
    constructor
    · rintro ⟨ns, reaches, rfl⟩
      have reaches' := passes.reaches reaches d
      exact ⟨_, (mem_files_paths sound real same).mpr ⟨ns, reaches', rfl⟩,
        moved_candidate sound real same same' reaches'⟩
    · rintro ⟨_, mem, rfl⟩
      obtain ⟨ns, reaches, rfl⟩ := (mem_files_paths sound real same).mp mem
      exact ⟨ns, passes.reaches reaches q, moved_candidate sound real same same' reaches⟩

end Moved

/-- A link to a directory has no results, though the files of the directory have: they are those under
the path of the directory itself, and under the path of the link with a slash at its end. So the two agree
only where there is no file to report. -/
theorem paths_link (analyzer : Analyzer) (files : FileSystem) (d q target : String)
    (entries : List (String × Entry)) (sound : files.root.Sound) (passes : analyzer.PassesAll)
    (real : files.lstat d = .ok (.dir entries)) (direct : Direct files d entries)
    (link : files.lstat q = .ok (.link target)) (leads : files.stat q = .ok (.dir entries))
    (direct' : Direct files q entries) :
    (analyzer.paths files [q]).files = [] ∧
      (analyzer.paths files [q ++ "/"]).files = (analyzer.paths files [d]).files.map (FileResult.moved d q) ∧
      ((analyzer.paths files [q]).files = (analyzer.paths files [d]).files.map (FileResult.moved d q) ↔
        ∀ ns, ¬ analyzer.Reaches d [] (.dir entries) ns) := by
  have some : q ≠ "" := ne_empty link
  have same := direct.same (FileSystem.stat_of_lstat real (by rintro target ⟨⟩))
  have none : (analyzer.paths files [q]).files = [] := by
    have argument : analyzer.argument files .nothing q = .walked [] := by
      simp only [argument, Refusals.attempt_nothing, leads, link]
    rw [paths, List.map_singleton, argument]
    exact List.mergeSort_nil
  have slash := files_paths_moved sound passes real same (FileSystem.lstat_slash leads)
    (by rw [Path.clean_slash some, direct'.same leads])
  refine ⟨none, slash.trans (List.map_congr_left fun result mem => ?_), ?_⟩
  · obtain ⟨ns, reaches, rfl⟩ := (mem_files_paths sound real same).mp mem
    have all := reaches.isName (sound_entries sound same)
    have path : Path.join [q ++ "/", Path.relativeTo d (pathBelow d ns)] =
        Path.join [q, Path.relativeTo d (pathBelow d ns)] := by
      rw [Path.relativeTo_pathBelow all (ne_empty real)]
      exact Path.pathBelow_slash all some
    rw [FileResult.moved, FileResult.moved, path_candidate, path]
  · rw [none, eq_comm, List.map_eq_nil_iff, List.eq_nil_iff_forall_not_mem]
    constructor
    · intro empty ns reaches
      exact empty _ ((mem_files_paths sound real same).mpr ⟨ns, reaches, rfl⟩)
    · intro nothing result mem
      obtain ⟨ns, reaches, -⟩ := (mem_files_paths sound real same).mp mem
      exact nothing ns reaches

/-- The file in a directory is not found behind a link to it. -/
theorem paths_link_misses_file :
    let entries : List (String × Entry) := [("a.go", .file (Utf8.ofString "danger\n"))]
    let files : FileSystem := ⟨.dir [("d", .dir entries), ("q", .link "d")], "/"⟩
    let analyzer : Analyzer := { processor := { rules := none } }
    files.root.Sound ∧ analyzer.PassesAll ∧ files.lstat "d" = .ok (.dir entries) ∧
      Direct files "d" entries ∧ files.lstat "q" = .ok (.link "d") ∧ files.stat "q" = .ok (.dir entries) ∧
      Direct files "q" entries ∧
      (analyzer.paths files ["q"]).files = [] ∧
      (analyzer.paths files ["q/"]).files = (analyzer.paths files ["d"]).files.map (FileResult.moved "d" "q") ∧
      (analyzer.paths files ["q"]).files ≠ (analyzer.paths files ["d"]).files.map (FileResult.moved "d" "q") := by
  intro entries files analyzer
  have sound : files.root.Sound := by decide +kernel
  have passes : analyzer.PassesAll := ⟨fun _ => rfl, rfl⟩
  have start : FileSystem.names "/" = ["."] := by decide
  have names : FileSystem.names "d" = ["d"] := by decide
  have names' : FileSystem.names "q" = ["q"] := by decide
  have real : files.lstat "d" = .ok (.dir entries) := by
    simp [FileSystem.lstat, FileSystem.entryAt, FileSystem.locate, Path.isAbsolute, files, names, start,
      FileSystem.follow]
    rfl
  have link : files.lstat "q" = .ok (.link "d") := by
    simp [FileSystem.lstat, FileSystem.entryAt, FileSystem.locate, Path.isAbsolute, files, names', start,
      FileSystem.follow, List.lookup_cons]
    rfl
  have leads : files.stat "q" = .ok (.dir entries) := by
    simp [FileSystem.stat, FileSystem.entryAt, FileSystem.locate, Path.isAbsolute, files, names', names, start,
      FileSystem.linkLimit, FileSystem.follow, List.lookup_cons]
    rfl
  have direct : Direct files "d" entries := .inl (by decide)
  have direct' : Direct files "q" entries := .inl (by decide)
  have reaches : analyzer.Reaches "d" [] (.dir entries) ["a.go"] :=
    (reaches_dir_iff (by decide)).mpr ⟨fun some => absurd rfl some, "a.go", _, _, rfl, List.mem_singleton_self _,
      reaches_file_iff.mpr ⟨rfl, passes.admits _ _⟩⟩
  obtain ⟨none, slash, agree⟩ :=
    paths_link analyzer files "d" "q" "d" entries sound passes real direct link leads direct'
  exact ⟨sound, passes, real, direct, link, leads, direct', none, slash, fun eq => agree.mp eq ["a.go"] reaches⟩

end Analyzer

end Sift
