import Mathlib.Data.List.Nodup
import Sift.Analyzer
import Sift.Proofs.FileSystem
import Sift.Proofs.Sorting

/-!
# What a walk through a directory reports

A file below a directory is to be reported if the gate and the patterns let it pass and all directories
on the way to it, too, and none of these is a repository's own (`Analyzer.Reaches`). By induction over the
tree these are the files that the visits to a directory find (`Analyzer.found_mem_visits`), each of them
once (`Analyzer.nodup_visits`). Hence they have the results of an analysis of the directory
(`Analyzer.paths_iff_reaches`).

The walk looks directories up by clean paths. It may leave the directory for another one if its path was
given with double dots behind a link (`Analyzer.paths_behind_link_go_astray`).
-/

namespace Sift

open Sift.FileSystem (pathBelow)
open Sift.Path (IsName)

/-- Seen from a directory, a path below it is made of the names that lead there. -/
lemma Path.relativeTo_pathBelow {root ns} (all : ∀ name ∈ ns, IsName name) (ne : root ≠ "") :
    relativeTo root (pathBelow root ns) = ofComponents false ns := by
  have below : ∀ rest : String, ofComponents false ns ≠ ".." ++ "/" ++ rest := by
    intro rest eq
    have parts := congrArg components eq
    rw [components_ofNames all, components_append] at parts
    exact (all ".." (parts ▸ List.mem_append_left _ (by decide))).ne_dots rfl
  rw [relativeTo, if_neg ne, pathBelow, relative?_join root all]
  refine if_neg ?_
  rw [Bool.or_eq_true, decide_eq_true_eq, not_or]
  constructor
  · intro eq
    have parts := congrArg components eq
    rw [components_ofNames all] at parts
    exact (all ".." (parts ▸ by decide)).ne_dots rfl
  · intro starts
    obtain ⟨rest, eq⟩ := List.isPrefixOf_iff_prefix.mp starts
    refine below (String.ofList rest) ?_
    rw [← String.toList_inj, ← eq]
    simp

namespace Analyzer

/-- The gate and the patterns let the names below `d` pass. A pattern is held against the path from
`d`, and one without a slash against the last name, too. -/
structure Admits (analyzer : Analyzer) (d : String) (ns : List String) : Prop where
  unignored : analyzer.ignored (pathBelow d ns) = false
  unmatched : ∀ pattern ∈ analyzer.options.exclude, Glob.matchesPath pattern ("/".intercalate ns) = false
  unnamed : ∀ pattern ∈ analyzer.options.exclude, Text.contains pattern "/" = false →
    ∀ name ∈ ns.getLast?, Glob.matchesPath pattern name = false

/-- From what `above` leads to below `d`, the names lead to a file that is to be reported. All that
is on the way has to be let pass, too, and not to be a repository's own directory; `d` itself has not. -/
structure Reaches (analyzer : Analyzer) (d : String) (above : List String) (entry : Entry)
    (ns : List String) : Prop where
  file : ∃ content, entry.below? ns = some (.file content)
  admits : analyzer.Admits d (above ++ ns)
  through : ∀ front, above ++ front ≠ [] → front <+: ns → front ≠ ns →
    (above ++ front).getLast? ≠ some ".git" ∧ analyzer.Admits d (above ++ front)

/-- There is nothing that the analyzer is to pass over. -/
structure PassesAll (analyzer : Analyzer) : Prop where
  unignored : ∀ path, analyzer.ignored path = false
  unexcluded : analyzer.options.exclude = []

/-- The path is spelled without double dots, or leads to the entries in its shortest spelling, too. -/
def Direct (files : FileSystem) (d : String) (entries : List (String × Entry)) : Prop :=
  ".." ∉ Path.components d ∨ files.stat (Path.clean d) = .ok (.dir entries)

/-- The shortest spelling leads to the same entries. -/
lemma Direct.same {files d entries} (direct : Direct files d entries) (led : files.stat d = .ok (.dir entries)) :
    files.stat (Path.clean d) = .ok (.dir entries) :=
  direct.elim (FileSystem.stat_clean · led) id

section Walk

variable {analyzer : Analyzer} {d : String} {above : List String}

/-- What passes everything admits everything. -/
lemma PassesAll.admits (passes : analyzer.PassesAll) (d : String) (ns : List String) : analyzer.Admits d ns :=
  ⟨passes.unignored _, by rw [passes.unexcluded]; exact List.forall_mem_nil _,
    by rw [passes.unexcluded]; exact List.forall_mem_nil _⟩

/-- The last name of a path is the last of its names. -/
lemma lastName_ofComponents {ns name} (all : ∀ part ∈ ns ++ [name], IsName part) :
    lastName (Path.ofComponents false (ns ++ [name])) = name := by
  rw [lastName, Path.afterLastSlash_ofComponents false fun part mem => (all part mem).isPart,
    String.ofList_toList]

/-- A pattern spares a path whose whole and last name it does not match. -/
lemma excludes_eq_false_iff {pattern path} : excludes pattern path = false ↔
    Glob.matchesPath pattern path = false ∧
      (Text.contains pattern "/" = false → Glob.matchesPath pattern (lastName path) = false) := by
  rw [excludes, Bool.or_eq_false_iff, Bool.and_eq_false_iff, Bool.not_eq_false', ← Bool.not_eq_false,
    ← imp_iff_not_or]

/-- What is ignored or excluded is passed over. -/
lemma skip?_isSome (path shown : String) :
    (analyzer.skip? path shown).isSome = (analyzer.ignored path || analyzer.excluded shown) := by
  rw [skip?]
  cases analyzer.ignored path with
  | true => rfl
  | false => cases analyzer.excluded shown <;> rfl

/-- What is passed over in a walk is what is not let pass. -/
lemma skip?_eq_false_iff (ne : d ≠ "") {name} (all : ∀ part ∈ above ++ [name], IsName part) :
    (analyzer.skip? (pathBelow d (above ++ [name]))
        (Path.relativeTo d (pathBelow d (above ++ [name])))).isSome = false ↔
      analyzer.Admits d (above ++ [name]) := by
  have path : Path.ofComponents false (above ++ [name]) = "/".intercalate (above ++ [name]) :=
    Path.ofComponents_false_of_ne_nil (fun part mem => (all part mem).isPart) (by simp)
  have spared : analyzer.excluded (Path.relativeTo d (pathBelow d (above ++ [name]))) = false ↔
      ∀ pattern ∈ analyzer.options.exclude, Glob.matchesPath pattern ("/".intercalate (above ++ [name])) = false ∧
        (Text.contains pattern "/" = false → Glob.matchesPath pattern name = false) := by
    rw [Path.relativeTo_pathBelow all ne, excluded, List.any_eq_false, ← path]
    simp only [Bool.not_eq_true, excludes_eq_false_iff, lastName_ofComponents all]
  rw [skip?_isSome, Bool.or_eq_false_iff, spared]
  constructor
  · rintro ⟨unignored, patterns⟩
    refine ⟨unignored, fun pattern mem => (patterns pattern mem).1, fun pattern mem plain last eq => ?_⟩
    rw [List.getLast?_concat, Option.mem_some_iff] at eq
    exact eq ▸ (patterns pattern mem).2 plain
  · rintro ⟨unignored, unmatched, unnamed⟩
    refine ⟨unignored, fun pattern mem => ⟨unmatched pattern mem, fun plain => ?_⟩⟩
    exact unnamed pattern mem plain name (by rw [List.getLast?_concat, Option.mem_some_iff])

/-- The visits to all entries of a directory. -/
def visits (analyzer : Analyzer) (d : String) (above : List String) (entries : List (String × Entry)) :
    List Visit :=
  entries.flatMap fun listed => analyzer.visit .nothing d (pathBelow d (above ++ [listed.1])) listed.1 listed.2

/-- All visits are those to each entry. -/
lemma visitAll_eq (all : ∀ part ∈ above, IsName part) {entries}
    (named : ∀ name entry, (name, entry) ∈ entries → IsName name) :
    analyzer.visitAll .nothing d (pathBelow d above) entries = analyzer.visits d above entries := by
  induction entries with
  | nil => rfl
  | cons first rest ih =>
    obtain ⟨name, entry⟩ := first
    have isName := named name entry List.mem_cons_self
    rw [visitAll, ih fun name entry mem => named name entry (List.mem_cons_of_mem _ mem), child,
      FileSystem.join_pathBelow all isName]
    rfl

/-- A file is reached where it is, if it is admitted. -/
lemma reaches_file_iff {content ns} :
    analyzer.Reaches d above (.file content) ns ↔ ns = [] ∧ analyzer.Admits d above := by
  constructor
  · rintro ⟨⟨_, found⟩, admits, -⟩
    obtain ⟨rfl, -⟩ := Entry.eq_of_below?_leaf rfl found
    exact ⟨rfl, by rwa [List.append_nil] at admits⟩
  · rintro ⟨rfl, admits⟩
    refine ⟨⟨content, rfl⟩, by rwa [List.append_nil], fun front _ before ne => ?_⟩
    exact absurd (List.prefix_nil.mp before) ne

/-- The names that lead to a file are names. -/
lemma Reaches.isName {entry ns} (reaches : analyzer.Reaches d above entry ns) (sound : entry.Sound) :
    ∀ name ∈ ns, IsName name := by
  obtain ⟨content, found⟩ := reaches.file
  exact sound.isName found

/-- Nothing is reached below what is neither file nor directory. -/
lemma not_reaches {entry} (leaf : entry.children = []) (other : entry.isFile = false) (ns : List String) :
    ¬ analyzer.Reaches d above entry ns := by
  rintro ⟨⟨content, found⟩, -, -⟩
  obtain ⟨-, rfl⟩ := Entry.eq_of_below?_leaf leaf found
  cases other

/-- From a directory the names lead on from one of its entries. -/
lemma reaches_dir_iff {entries} (sound : (Entry.dir entries).Sound) {ns} :
    analyzer.Reaches d above (.dir entries) ns ↔
      (above ≠ [] → above.getLast? ≠ some ".git" ∧ analyzer.Admits d above) ∧
        ∃ name entry rest, ns = name :: rest ∧ (name, entry) ∈ entries ∧
          analyzer.Reaches d (above ++ [name]) entry rest := by
  constructor
  · rintro ⟨⟨content, found⟩, admits, through⟩
    cases ns with
    | nil => cases found
    | cons name rest =>
      rw [Entry.below?] at found
      split at found
      case h_2 => cases found
      case h_1 entry listed =>
        refine ⟨fun ne => ?_, name, entry, rest, rfl, (Entry.mem_iff_lookup sound.nodup).mpr listed,
          ⟨content, found⟩, ?_, fun front _ before ne => ?_⟩
        · have here := through [] (by rwa [List.append_nil]) (List.nil_prefix) (List.cons_ne_nil _ _).symm
          rwa [List.append_nil] at here
        · rwa [List.append_assoc]
        · have there := through (name :: front) (by simp) ((List.prefix_cons_inj name).mpr before)
            fun eq => ne (List.cons.inj eq).2
          rwa [List.append_assoc]
  · rintro ⟨here, name, entry, rest, rfl, mem, ⟨content, found⟩, admits, through⟩
    refine ⟨⟨content, by rw [sound.below?_of_mem mem, found]⟩, ?_, fun front ne before other => ?_⟩
    · rwa [List.append_assoc] at admits
    · rcases List.prefix_cons_iff.mp before with rfl | ⟨front, rfl, before'⟩
      · rw [List.append_nil] at ne ⊢
        exact here ne
      · have there := through front (by simp) before' fun eq => other (by rw [eq])
        rwa [List.append_assoc] at there

/-- What the visits to a directory find is found below one of its entries. -/
lemma found_mem_visits_iff {entries path} (each : ∀ name entry, (name, entry) ∈ entries →
      (Visit.found path ∈ analyzer.visit .nothing d (pathBelow d (above ++ [name])) name entry ↔
        ∃ ns, path = pathBelow d (above ++ [name] ++ ns) ∧ analyzer.Reaches d (above ++ [name]) entry ns)) :
    Visit.found path ∈ analyzer.visits d above entries ↔
      ∃ name entry rest, path = pathBelow d (above ++ name :: rest) ∧ (name, entry) ∈ entries ∧
        analyzer.Reaches d (above ++ [name]) entry rest := by
  rw [visits, List.mem_flatMap]
  constructor
  · rintro ⟨⟨name, entry⟩, mem, found⟩
    obtain ⟨rest, rfl, reaches⟩ := (each name entry mem).mp found
    exact ⟨name, entry, rest, by rw [List.append_assoc]; rfl, mem, reaches⟩
  · rintro ⟨name, entry, rest, rfl, mem, reaches⟩
    exact ⟨(name, entry), mem, (each name entry mem).mpr ⟨rest, by rw [List.append_assoc]; rfl, reaches⟩⟩

/-- Files are found in a directory that is looked into. -/
lemma found_mem_visitDir {root path name file visits} :
    Visit.found file ∈ analyzer.visitDir root path name (.ok visits) ↔
      name ≠ ".git" ∧ (analyzer.skip? path (Path.relativeTo root path)).isSome = false ∧
        Visit.found file ∈ visits := by
  rw [visitDir]
  split
  case isTrue own => simp [own]
  case isFalse other =>
    split
    case isTrue skipped => simp [skipped]
    case isFalse admitted => simp [other, admitted]

/-- The files that a walk finds below an entry, by the names that lead to them. -/
lemma found_mem_visit (ne : d ≠ "") {entry} (sound : entry.Sound) {name}
    (all : ∀ part ∈ above ++ [name], IsName part) {path} :
    Visit.found path ∈ analyzer.visit .nothing d (pathBelow d (above ++ [name])) name entry ↔
      ∃ ns, path = pathBelow d (above ++ [name] ++ ns) ∧ analyzer.Reaches d (above ++ [name]) entry ns := by
  induction entry using Entry.inductionOn generalizing above name with
  | file content =>
    have step := @skip?_eq_false_iff analyzer d above ne name all
    rw [visit, List.mem_singleton]
    constructor
    · intro eq
      split at eq
      case isTrue => cases eq
      case isFalse admitted =>
        refine ⟨[], ?_, reaches_file_iff.mpr ⟨rfl, step.mp (Bool.eq_false_iff.mpr admitted)⟩⟩
        rw [List.append_nil]
        exact Visit.found.inj eq
    · rintro ⟨ns, rfl, reaches⟩
      obtain ⟨rfl, admits⟩ := reaches_file_iff.mp reaches
      rw [List.append_nil, step.mpr admits]
      rfl
  | link target | device =>
    rw [visit]
    constructor
    · intro mem
      cases mem
    · rintro ⟨ns, -, reaches⟩
      exact absurd reaches (not_reaches rfl rfl ns)
  | dir entries ih =>
    have named : ∀ next entry, (next, entry) ∈ entries → IsName next := fun _ _ mem => (sound.listed mem).1
    have inside : Visit.found path ∈ analyzer.visits d (above ++ [name]) entries ↔ _ :=
      found_mem_visits_iff fun next entry mem =>
        ih next entry mem (sound.listed mem).2 (Path.isName_concat all (named next entry mem))
    rw [visit, Refusals.attempt_nothing, found_mem_visitDir, skip?_eq_false_iff ne all, visitAll_eq all named, inside]
    constructor
    · rintro ⟨other, admits, next, entry, rest, rfl, mem, reaches⟩
      refine ⟨next :: rest, rfl, (reaches_dir_iff sound).mpr ⟨fun _ => ⟨?_, admits⟩, ?_⟩⟩
      · rw [List.getLast?_concat]
        exact fun eq => other (Option.some.inj eq)
      · exact ⟨next, entry, rest, rfl, mem, reaches⟩
    · rintro ⟨ns, rfl, reaches⟩
      obtain ⟨here, next, entry, rest, rfl, mem, reaches⟩ := (reaches_dir_iff sound).mp reaches
      obtain ⟨other, admits⟩ := here (by simp)
      rw [List.getLast?_concat] at other
      exact ⟨fun eq => other (by rw [eq]), admits, next, entry, rest, rfl, mem, reaches⟩

/-- The files that a walk finds in a directory, by the names that lead to them. -/
lemma found_mem_visits (ne : d ≠ "") {entries} (sound : (Entry.dir entries).Sound) {path} :
    Visit.found path ∈ analyzer.visits d [] entries ↔
      ∃ ns, path = pathBelow d ns ∧ analyzer.Reaches d [] (.dir entries) ns := by
  have inside : Visit.found path ∈ analyzer.visits d [] entries ↔ _ :=
    found_mem_visits_iff fun next entry mem =>
      found_mem_visit ne (sound.listed mem).2 (List.forall_mem_singleton.mpr (sound.listed mem).1)
  rw [inside]
  constructor
  · rintro ⟨name, entry, rest, rfl, mem, reaches⟩
    exact ⟨name :: rest, rfl, (reaches_dir_iff sound).mpr
      ⟨fun some => absurd rfl some, name, entry, rest, rfl, mem, reaches⟩⟩
  · rintro ⟨ns, rfl, reaches⟩
    obtain ⟨-, name, entry, rest, rfl, mem, reaches⟩ := (reaches_dir_iff sound).mp reaches
    exact ⟨name, entry, rest, rfl, mem, reaches⟩

/-- The files that are found. -/
lemma mem_filterMap_found {visits : List Visit} {path} :
    path ∈ visits.filterMap (·.found?) ↔ Visit.found path ∈ visits := by
  rw [List.mem_filterMap]
  constructor
  · rintro ⟨visit, mem, eq⟩
    cases visit with
    | found other => exact Option.some.inj eq ▸ mem
    | entered _ | passed _ | unread _ _ => cases eq
  · exact fun mem => ⟨_, mem, rfl⟩

/-- No file is found twice in a directory, if none is found twice below one of its entries. -/
lemma nodup_visits (ne : d ≠ "") (all : ∀ part ∈ above, IsName part) {entries : List (String × Entry)}
    (sound : (Entry.dir entries).Sound)
    (each : ∀ name entry, (name, entry) ∈ entries →
      ((analyzer.visit .nothing d (pathBelow d (above ++ [name])) name entry).filterMap (·.found?)).Nodup) :
    ((analyzer.visits d above entries).filterMap (·.found?)).Nodup := by
  rw [visits, List.filterMap_flatMap, List.nodup_flatMap]
  refine ⟨fun listed mem => each listed.1 listed.2 mem, (List.pairwise_map.mp sound.nodup).imp_of_mem ?_⟩
  intro first second mem mem' other path found found'
  obtain ⟨isName, below⟩ := sound.listed mem
  obtain ⟨isName', below'⟩ := sound.listed mem'
  have names := Path.isName_concat all isName
  have names' := Path.isName_concat all isName'
  rw [mem_filterMap_found, found_mem_visit ne below names] at found
  rw [mem_filterMap_found, found_mem_visit ne below' names'] at found'
  obtain ⟨ns, rfl, reaches⟩ := found
  obtain ⟨ns', eq, reaches'⟩ := found'
  have same := FileSystem.pathBelow_inj (List.forall_mem_append.mpr ⟨names, reaches.isName below⟩)
    (List.forall_mem_append.mpr ⟨names', reaches'.isName below'⟩) eq
  rw [List.append_assoc, List.append_assoc] at same
  exact other (List.cons.inj (List.append_cancel_left same)).1

/-- No file is found twice below an entry. -/
lemma nodup_visit (ne : d ≠ "") {entry} (sound : entry.Sound) {name} (all : ∀ part ∈ above ++ [name], IsName part) :
    ((analyzer.visit .nothing d (pathBelow d (above ++ [name])) name entry).filterMap (·.found?)).Nodup := by
  induction entry using Entry.inductionOn generalizing above name with
  | file content =>
    rw [visit]
    split
    · exact List.nodup_nil
    · exact List.nodup_singleton _
  | link target | device =>
    rw [visit]
    exact List.nodup_nil
  | dir entries ih =>
    rw [visit, Refusals.attempt_nothing, visitDir, visitAll_eq all fun _ _ mem => (sound.listed mem).1]
    split
    · exact List.nodup_nil
    · split
      · exact List.nodup_nil
      · rw [List.filterMap_cons_none rfl]
        refine nodup_visits ne all sound fun next entry mem => ?_
        exact ih next entry mem (sound.listed mem).2 (Path.isName_concat all (sound.listed mem).1)

/-- Nothing fails in a directory if nothing fails below its entries. -/
lemma failed?_of_mem_visitAll {root dir entries} (each : ∀ name entry, (name, entry) ∈ entries →
      ∀ path, ∀ visit ∈ analyzer.visit .nothing root path name entry, visit.failed? = none) :
    ∀ visit ∈ analyzer.visitAll .nothing root dir entries, visit.failed? = none := by
  induction entries with
  | nil => exact List.forall_mem_nil _
  | cons first rest ih =>
    obtain ⟨name, entry⟩ := first
    rw [visitAll]
    refine List.forall_mem_append.mpr ⟨each name entry List.mem_cons_self _, ih fun name entry mem => ?_⟩
    exact each name entry (List.mem_cons_of_mem _ mem)

/-- Of a directory that was read nothing is reported to be unreadable. -/
lemma failed?_of_mem_visit (root path name : String) (entry : Entry) :
    ∀ visit ∈ analyzer.visit .nothing root path name entry, visit.failed? = none := by
  induction entry using Entry.inductionOn generalizing path name with
  | file content =>
    rw [visit, List.forall_mem_singleton]
    split
    · rfl
    · rfl
  | link target | device =>
    rw [visit]
    exact List.forall_mem_nil _
  | dir entries ih =>
    rw [visit, Refusals.attempt_nothing, visitDir]
    split
    · exact List.forall_mem_nil _
    · split
      · exact List.forall_mem_singleton.mpr rfl
      · refine List.forall_mem_cons.mpr ⟨rfl, failed?_of_mem_visitAll fun next entry listed path => ?_⟩
        exact ih next entry listed path next

lemma child_eq {name} (isName : IsName name) : child d name = pathBelow d [name] := by
  rw [child, pathBelow, Path.ofComponents_singleton isName.isPart]

/-- The walk visits the entries, if the directories among them are found under their own paths. -/
lemma walk_eq {files entries} (sound : (Entry.dir entries).Sound)
    (reads : ∀ name inner, (name, .dir inner) ∈ entries → files.readDir (pathBelow d [name]) = .ok inner) :
    analyzer.walk files .nothing d entries = analyzer.visits d [] entries := by
  refine List.flatMap_congr fun listed mem => ?_
  obtain ⟨name, entry⟩ := listed
  dsimp only
  rw [child_eq (sound.listed mem).1]
  cases entry with
  | dir inner =>
    rw [visitFirst, reads name inner mem]
    rfl
  | file _ | link _ | device => rfl

end Walk

/-- A result has the path of its file. -/
lemma path_candidate (analyzer : Analyzer) (files : FileSystem) (path : String) (refuses : Refusals) :
    (analyzer.candidate files path refuses).path = path := by
  unfold candidate
  split
  · rfl
  · dsimp only
    split
    · rfl
    · split
      · rfl
      · split
        · rfl
        · rfl

lemma ne_empty {files : FileSystem} {path entry} (found : files.lstat path = .ok entry) :
    path ≠ "" := by
  rintro rfl
  cases found

section Paths

variable {analyzer : Analyzer} {files : FileSystem} {d : String} {entries : List (String × Entry)}
  (sound : files.root.Sound) (real : files.lstat d = .ok (.dir entries))
  (same : files.stat (Path.clean d) = .ok (.dir entries))

include real in
/-- A directory is walked. -/
lemma argument_eq : analyzer.argument files .nothing d = .walked (analyzer.walk files .nothing d entries) := by
  have led : files.stat d = .ok (.dir entries) := FileSystem.stat_of_lstat real fun target eq => nomatch eq
  simp only [argument, Refusals.attempt_nothing, led, real]

include sound same in
/-- What a path leads to is sound. -/
lemma sound_entries : (Entry.dir entries).Sound := by
  obtain ⟨trail, found⟩ := FileSystem.stat_eq_ok_iff.mp same
  obtain ⟨_, _, place, -⟩ := FileSystem.exists_steps_of_locate found
  exact sound.of_below? place

include sound same in
/-- A path below the directory leads to what the directory holds there. -/
lemma locate_below {ns entry} (place : (Entry.dir entries).below? ns = some entry)
    (other : ∀ target, entry ≠ .link target) :
    ∃ trail, files.locate true (pathBelow d ns) = .ok ⟨trail, some entry⟩ := by
  have below := sound_entries sound same
  rw [← FileSystem.pathBelow_nil] at same
  obtain ⟨trail, found⟩ := FileSystem.stat_eq_ok_iff.mp same
  exact ⟨_, FileSystem.locate_pathBelow (below.isName place) found place other⟩

include sound same in
/-- A directory below is read under its own path. -/
lemma readDir_below {name inner} (mem : (name, .dir inner) ∈ entries) :
    files.readDir (pathBelow d [name]) = .ok inner := by
  refine FileSystem.readDir_eq_ok_iff.mpr (locate_below sound same ?_ fun target eq => nomatch eq)
  rw [(sound_entries sound same).below?_of_mem mem, Entry.below?]

include sound real same in
/-- A directory's files are those that the visits to it find, sorted. -/
lemma files_paths : (analyzer.paths files [d]).files =
    (((analyzer.visits d [] entries).filterMap (·.found?)).map (analyzer.candidate files ·)).mergeSort
      fun a b => a.path ≤ b.path := by
  have below := sound_entries sound same
  have reads : ∀ name inner, (name, .dir inner) ∈ entries → files.readDir (pathBelow d [name]) = .ok inner :=
    fun _ _ => readDir_below sound same
  have settled : (analyzer.visits d [] entries).filterMap (·.failed?) = [] := by
    rw [List.filterMap_eq_nil_iff]
    intro visit mem
    obtain ⟨⟨name, entry⟩, listed, mem⟩ := List.mem_flatMap.mp mem
    exact failed?_of_mem_visit _ _ _ _ visit mem
  rw [paths, List.map_singleton, argument_eq real, walk_eq below reads, List.flatMap_singleton,
    List.flatMap_singleton, Argument.settled, Argument.candidates, settled, List.nil_append]

include sound real same in
/-- The results of a directory are those of the files that are reached. -/
lemma mem_files_paths {result} : result ∈ (analyzer.paths files [d]).files ↔
    ∃ ns, analyzer.Reaches d [] (.dir entries) ns ∧ result = analyzer.candidate files (pathBelow d ns) := by
  rw [files_paths sound real same, List.mem_mergeSort, List.mem_map]
  constructor
  · rintro ⟨path, mem, rfl⟩
    obtain ⟨ns, rfl, reaches⟩ :=
      (found_mem_visits (ne_empty real) (sound_entries sound same)).mp (mem_filterMap_found.mp mem)
    exact ⟨ns, reaches, rfl⟩
  · rintro ⟨ns, reaches, rfl⟩
    refine ⟨pathBelow d ns, mem_filterMap_found.mpr ?_, rfl⟩
    exact (found_mem_visits (ne_empty real) (sound_entries sound same)).mpr ⟨ns, rfl, reaches⟩

include sound real same in
/-- They come by strictly ascending path. -/
lemma pairwise_files_paths : (analyzer.paths files [d]).files.Pairwise fun a b => a.path < b.path := by
  have below := sound_entries sound same
  have nodup : ((analyzer.visits d [] entries).filterMap (·.found?)).Nodup :=
    nodup_visits (ne_empty real) (List.forall_mem_nil _) below fun name entry mem =>
      nodup_visit (ne_empty real) (below.listed mem).2 (List.forall_mem_singleton.mpr (below.listed mem).1)
  rw [files_paths sound real same]
  refine pairwise_mergeSort_of_nodup FileResult.path ?_
  rw [List.map_map]
  exact (List.map_id'' (analyzer.path_candidate files · .nothing) _).symm ▸ nodup

end Paths

/-- The analysis of a directory has one result for each file below it that the walk is to report, by
strictly ascending path, and no other result. The directory's path has to be without double dots, or to
lead to the same entries in its shortest spelling. -/
theorem paths_iff_reaches (analyzer : Analyzer) (files : FileSystem) (d : String)
    (entries : List (String × Entry)) (sound : files.root.Sound) (real : files.lstat d = .ok (.dir entries))
    (direct : Direct files d entries) :
    ((analyzer.paths files [d]).files.map (·.path)).Pairwise (· < ·) ∧
      ∀ result, result ∈ (analyzer.paths files [d]).files ↔
        ∃ ns, analyzer.Reaches d [] (.dir entries) ns ∧
          result = analyzer.candidate files (pathBelow d ns) := by
  have same := direct.same (FileSystem.stat_of_lstat real (by rintro target ⟨⟩))
  exact ⟨List.pairwise_map.mpr (pairwise_files_paths sound real same), fun _ => mem_files_paths sound real same⟩

/-- Of four files in a directory only one is to be reported. -/
theorem paths_iff_reaches_single :
    let entries : List (String × Entry) := [
      (".git", .dir [("hook.js", .file [])]),
      ("gen", .dir [("c.js", .file [])]),
      ("src", .dir [("a.js", .file (Utf8.ofString "eval(a)\n")), ("b.min.js", .file [])])]
    let files : FileSystem := ⟨.dir [("w", .dir entries)], "/"⟩
    let analyzer : Analyzer := {
      processor := { rules := none }
      options := { exclude := ["*.min.js"], useIgnoreFiles := true }
      gate := (· = "/w/gen") }
    files.root.Sound ∧ files.lstat "/w/" = .ok (.dir entries) ∧ Direct files "/w/" entries ∧
      ((analyzer.paths files ["/w/"]).files.map (·.path)).Pairwise (· < ·) ∧
      ∀ result, result ∈ (analyzer.paths files ["/w/"]).files ↔
        result = analyzer.candidate files "/w/src/a.js" := by
  intro entries files analyzer
  have sound : files.root.Sound := by decide +kernel
  have below : (Entry.dir entries).Sound := by decide +kernel
  have led : files.stat "/w" = .ok (.dir entries) :=
    FileSystem.stat_eq_ok_iff.mpr ⟨["w"], @FileSystem.locate_of_below? files "/w" [] (List.forall_mem_nil _)
      ["w"] (.dir entries) (by decide) (by decide) (by decide) (by decide) rfl (by rintro target ⟨⟩)⟩
  have real : files.lstat "/w/" = .ok (.dir entries) := FileSystem.lstat_slash led
  have direct : Direct files "/w/" entries := .inl (by decide)
  have judged : ∀ path shown last, Path.relativeTo "/w/" path = shown → lastName shown = last →
      (analyzer.skip? path (Path.relativeTo "/w/" path)).isSome = (analyzer.ignored path ||
        (Glob.matchesPath "*.min.js" shown || Glob.matchesPath "*.min.js" last)) := by
    intro path shown last seen ends
    have plain : Text.contains "*.min.js" "/" = false := by decide
    rw [skip?_isSome, seen, excluded, List.any_cons, List.any_nil, Bool.or_false, excludes, ends, plain,
      Bool.not_false, Bool.true_and]
  have src : (analyzer.skip? "/w/src" (Path.relativeTo "/w/" "/w/src")).isSome = false := by
    rw [judged "/w/src" "src" "src" (by decide +kernel) (by decide)]
    simp [ignored, analyzer, Glob.matchesPath, Glob.admits, Glob.admitsRun, Glob.coversNothing]
  have kept : (analyzer.skip? "/w/src/a.js" (Path.relativeTo "/w/" "/w/src/a.js")).isSome = false := by
    rw [judged "/w/src/a.js" "src/a.js" "a.js" (by decide +kernel) (by decide)]
    simp [ignored, analyzer, Glob.matchesPath, Glob.admits, Glob.admitsRun, Glob.coversNothing]
  have left : (analyzer.skip? "/w/src/b.min.js" (Path.relativeTo "/w/" "/w/src/b.min.js")).isSome = true := by
    rw [judged "/w/src/b.min.js" "src/b.min.js" "b.min.js" (by decide +kernel) (by decide)]
    simp [Glob.matchesPath, Glob.admits, Glob.admitsRun, Glob.coversNothing]
  have found : ∀ path, Visit.found path ∈ analyzer.visits "/w/" [] entries ↔ path = "/w/src/a.js" := by
    have gen : pathBelow "/w/" ["gen"] = "/w/gen" := by decide +kernel
    have dir : pathBelow "/w/" ["src"] = "/w/src" := by decide +kernel
    have first : child "/w/src" "a.js" = "/w/src/a.js" := by decide +kernel
    have second : child "/w/src" "b.min.js" = "/w/src/b.min.js" := by decide +kernel
    have ignored : (analyzer.skip? "/w/gen" (Path.relativeTo "/w/" "/w/gen")).isSome = true := rfl
    intro path
    simp [visits, entries, visit, visitDir, visitAll, gen, dir, first, second, src, kept, left, ignored]
  obtain ⟨ascending, results⟩ := paths_iff_reaches analyzer files "/w/" entries sound real direct
  refine ⟨sound, real, direct, ascending, fun result => (results result).trans ?_⟩
  have reached := fun path => (found_mem_visits (by decide) below).symm.trans (found path)
  constructor
  · rintro ⟨ns, reaches, rfl⟩
    rw [(reached _).mp ⟨ns, rfl, reaches⟩]
  · rintro rfl
    obtain ⟨ns, path, reaches⟩ := (reached _).mpr rfl
    exact ⟨ns, reaches, by rw [path]⟩

/-- Behind a link, double dots lead out of the directory that the link leads to, and where the path is
spelled without them it leads elsewhere. The walk goes on there: it reports a file that the directory does
not hold and leaves out the one that it does. -/
theorem paths_behind_link_go_astray :
    let entries : List (String × Entry) := [("deep", .dir [("wanted.go", .file (Utf8.ofString "danger\n"))])]
    let files : FileSystem := ⟨.dir [
      ("link", .link "other/in"),
      ("other", .dir [("in", .dir []), ("sub", .dir entries)]),
      ("sub", .dir [("deep", .dir [("stray.go", .file (Utf8.ofString "safe\n"))])])], "/"⟩
    let analyzer : Analyzer := { processor := { rules := none } }
    files.root.Sound ∧ files.lstat "link/../sub" = .ok (.dir entries) ∧
      analyzer.Reaches "link/../sub" [] (.dir entries) ["deep", "wanted.go"] ∧
      (analyzer.paths files ["link/../sub"]).files.map (·.path) = ["sub/deep/stray.go"] := by
  intro entries files analyzer
  have passes : analyzer.PassesAll := ⟨fun _ => rfl, rfl⟩
  have start : FileSystem.names "/" = ["."] := by decide
  have led : files.lstat "link/../sub" = .ok (.dir entries) := by
    have names : FileSystem.names "link/../sub" = ["link", "..", "sub"] := by decide
    have target : FileSystem.names "other/in" = ["other", "in"] := by decide
    simp [FileSystem.lstat, FileSystem.entryAt, FileSystem.locate, Path.isAbsolute, files, names, start, target,
      FileSystem.linkLimit, FileSystem.follow, List.lookup_cons, Entry.below?, Entry.children]
    rfl
  have read : files.readDir "sub/deep" = .ok [("stray.go", .file (Utf8.ofString "safe\n"))] := by
    have names : FileSystem.names "sub/deep" = ["sub", "deep"] := by decide
    simp [FileSystem.readDir, FileSystem.entryAt, FileSystem.locate, Path.isAbsolute, files, names, start,
      FileSystem.follow, List.lookup_cons]
    rfl
  have reaches : analyzer.Reaches "link/../sub" [] (.dir entries) ["deep", "wanted.go"] :=
    (reaches_dir_iff (by decide)).mpr ⟨fun some => absurd rfl some, "deep", _, _, rfl, List.mem_singleton_self _,
      (reaches_dir_iff (by decide)).mpr ⟨fun _ => ⟨by decide, passes.admits _ _⟩, "wanted.go", _, _, rfl,
        List.mem_singleton_self _, reaches_file_iff.mpr ⟨rfl, passes.admits _ _⟩⟩⟩
  refine ⟨by decide +kernel, led, reaches, ?_⟩
  have walk : analyzer.walk files .nothing "link/../sub" entries =
      [.entered "sub/deep", .found "sub/deep/stray.go"] := by
    have path : child "link/../sub" "deep" = "sub/deep" := by decide +kernel
    have below : child "sub/deep" "stray.go" = "sub/deep/stray.go" := by decide +kernel
    simp [walk, entries, visitFirst, path, read, Except.map, visitDir, visitAll, visit, below, skip?, ignored,
      excluded, analyzer]
  rw [paths, List.map_singleton, argument_eq led, walk]
  simp [Argument.settled, Argument.candidates, Visit.failed?, Visit.found?, path_candidate]

end Analyzer

end Sift
