import Sift.Proofs.Analyzer.Concurrent
import Sift.Proofs.Analyzer.Walk

/-!
# The order of the paths that are asked for

Under one path there may be several results: the path's own, if it was asked for and is settled without reading
(`Analyzer.own?`), those of directories that a walk could not read there (`Analyzer.GivesUp`), and those of the
analyses, which all are the same. The order of what was asked for shows in the report just if the first two meet
and differ (`Analyzer.reports_insensitive_iff`). They differ only where a directory was given by a path with
double dots behind a link, since a walk then looks for its directories elsewhere, and where the system refuses
to say what is under a path that was asked for.
-/

namespace Sift

open Sift.FileSystem (pathBelow)

namespace Analyzer

variable {analyzer : Analyzer} {files : FileSystem} {refuses : Refusals}

/-- The result of a path that cannot be looked at. -/
def unreadable (path : String) (error : FileError) : FileResult := { path, fault := some (.access path error) }

/-- The result of a path that was asked for and is settled without reading: it cannot be looked at, or what is
there is passed over. -/
def own? (analyzer : Analyzer) (files : FileSystem) (refuses : Refusals) (path : String) : Option FileResult :=
  match refuses.attempt "stat" path (files.stat path) with
  | .error error => some (unreadable path error)
  | .ok (.dir _) =>
    match refuses.attempt "lstat" path (files.lstat path) with
    | .error error => some (unreadable path error)
    | .ok (.dir _) => (refuses "open" path).map fun errno => unreadable path ⟨"open", path, errno⟩
    | .ok _ => none
  | .ok _ => (analyzer.skip? path (Path.clean path)).map fun reason => { path, skipped := some reason }

/-- What was asked for is a directory to be walked, and nothing about it is refused. -/
structure Walks (files : FileSystem) (refuses : Refusals) (dir : String) (entries : List (String × Entry)) :
    Prop where
  real : files.lstat dir = .ok (.dir entries)
  allowed : ∀ operation ∈ ["stat", "lstat", "open"], refuses operation dir = none

/-- A walk that began at `root` is to look into the directory under a path. -/
structure LooksInto (analyzer : Analyzer) (root path name : String) : Prop where
  other : name ≠ ".git"
  admitted : analyzer.skip? path (Path.relativeTo root path) = none

/-- From the directory under the path `above`, which lists `listed`, a walk that began at `root` comes to look
into the directory under a path. -/
inductive Descends (analyzer : Analyzer) (refuses : Refusals) (root : String) :
    String → List (String × Entry) → String → Prop
  | here {above name : String} {listed inner : List (String × Entry)} (mem : (name, .dir inner) ∈ listed)
      (looks : analyzer.LooksInto root (child above name) name) :
      Descends analyzer refuses root above listed (child above name)
  | deeper {above name path : String} {listed inner : List (String × Entry)} (mem : (name, .dir inner) ∈ listed)
      (looks : analyzer.LooksInto root (child above name) name)
      (allowed : refuses "open" (child above name) = none)
      (below : Descends analyzer refuses root (child above name) inner path) :
      Descends analyzer refuses root above listed path

/-- The walk of a directory cannot read another one. The directories that it lists are looked up by their own
paths, and those further down are where they are listed. -/
inductive GivesUp (analyzer : Analyzer) (files : FileSystem) (refuses : Refusals) (dir : String) :
    String → FileError → Prop
  | first {entries inner : List (String × Entry)} {name : String} {error : FileError}
      (walks : Walks files refuses dir entries) (mem : (name, .dir inner) ∈ entries)
      (looks : analyzer.LooksInto dir (child dir name) name)
      (failed : refuses.attempt "open" (child dir name) (files.readDir (child dir name)) = .error error) :
      GivesUp analyzer files refuses dir (child dir name) error
  | below {entries inner listed : List (String × Entry)} {name path : String} {errno : Errno}
      (walks : Walks files refuses dir entries) (mem : (name, .dir inner) ∈ entries)
      (looks : analyzer.LooksInto dir (child dir name) name)
      (read : refuses.attempt "open" (child dir name) (files.readDir (child dir name)) = .ok listed)
      (descends : analyzer.Descends refuses dir (child dir name) listed path)
      (refused : refuses "open" path = some errno) :
      GivesUp analyzer files refuses dir path ⟨"open", path, errno⟩

/-- An own result is under its path. -/
lemma path_of_own? {path result} (own : analyzer.own? files refuses path = some result) :
    result.path = path := by
  unfold own? at own
  split at own
  · exact Option.some.inj own ▸ rfl
  · split at own
    · exact Option.some.inj own ▸ rfl
    · obtain ⟨errno, -, rfl⟩ := Option.map_eq_some_iff.mp own
      rfl
    · cases own
  · obtain ⟨reason, -, rfl⟩ := Option.map_eq_some_iff.mp own
    rfl

/-- The own result of a directory that the system tells of can only be that it is not to be read. -/
lemma own?_of_dir {path inner result} (led : files.stat path = .ok (.dir inner)) (stat : refuses "stat" path = none)
    (lstat : refuses "lstat" path = none) (own : analyzer.own? files refuses path = some result) :
    ∃ errno, refuses "open" path = some errno ∧ result = unreadable path ⟨"open", path, errno⟩ := by
  obtain ⟨entry, there⟩ := FileSystem.exists_lstat_of_stat led
  simp only [own?, Refusals.attempt_of_allowed stat, Refusals.attempt_of_allowed lstat, led, there] at own
  split at own
  case h_1 refused => cases refused
  case h_2 =>
    obtain ⟨errno, refused, rfl⟩ := Option.map_eq_some_iff.mp own
    exact ⟨errno, refused, rfl⟩
  case h_3 => cases own

namespace Walks

variable {dir : String} {entries : List (String × Entry)} (walks : Walks files refuses dir entries)

include walks

lemma stat_eq : refuses.attempt "stat" dir (files.stat dir) = .ok (.dir entries) :=
  Refusals.attempt_eq_ok_iff.mpr ⟨walks.allowed _ (by decide),
    FileSystem.stat_of_lstat walks.real (by rintro target ⟨⟩)⟩

lemma lstat_eq : refuses.attempt "lstat" dir (files.lstat dir) = .ok (.dir entries) :=
  Refusals.attempt_eq_ok_iff.mpr ⟨walks.allowed _ (by decide), walks.real⟩

/-- A directory that is walked has no result of its own. -/
lemma own?_eq_none (analyzer : Analyzer) : analyzer.own? files refuses dir = none := by
  simp only [own?, walks.stat_eq, walks.lstat_eq, walks.allowed "open" (by decide), Option.map_none]

lemma argument_eq (analyzer : Analyzer) :
    analyzer.argument files refuses dir = .walked (analyzer.walk files refuses dir entries) := by
  simp only [argument, walks.stat_eq, walks.lstat_eq,
    Refusals.attempt_of_allowed (walks.allowed "open" (by decide))]

end Walks

/-- Of a path that is not walked, only its own result is settled. -/
lemma settled_of_not_walks {dir} (single : ∀ entries, ¬ Walks files refuses dir entries) :
    (analyzer.argument files refuses dir).settled = (analyzer.own? files refuses dir).toList := by
  unfold argument own?
  cases stat : refuses.attempt "stat" dir (files.stat dir) with
  | error error => rfl
  | ok entry =>
    cases entry with
    | dir _ =>
      cases lstat : refuses.attempt "lstat" dir (files.lstat dir) with
      | error error => rfl
      | ok entry =>
        cases entry with
        | dir entries =>
          cases refused : refuses "open" dir with
          | some errno =>
            dsimp only
            rw [Refusals.attempt_of_refused refused]
            rfl
          | none =>
            -- All three operations are allowed, so it is walked after all.
            refine absurd ⟨(Refusals.attempt_eq_ok_iff.mp lstat).2, ?_⟩ (single entries)
            simp [(Refusals.attempt_eq_ok_iff.mp stat).1, (Refusals.attempt_eq_ok_iff.mp lstat).1, refused]
        | file _ | link _ | device => rfl
    | file _ | link _ | device =>
      dsimp only
      cases analyzer.skip? dir (Path.clean dir) with
      | none => rfl
      | some reason => rfl

section Visits

variable {root : String} {error : FileError}

/-- A visit to a directory fails there, if it is looked into and cannot be read, or below. -/
lemma unread_mem_visitDir {path name dir below} :
    Visit.unread dir error ∈ analyzer.visitDir root path name below ↔
      analyzer.LooksInto root path name ∧
        (dir = path ∧ below = .error error ∨ ∃ visits, below = .ok visits ∧ Visit.unread dir error ∈ visits) := by
  rw [visitDir.eq_def]
  split
  case isTrue own =>
    refine iff_of_false List.not_mem_nil fun found => found.1.other own
  case isFalse notOwn =>
    split
    case isTrue skipped =>
      refine iff_of_false (by simp) fun found => ?_
      rw [found.1.admitted] at skipped
      cases skipped
    case isFalse admitted =>
      have looks : analyzer.LooksInto root path name := ⟨notOwn, Option.not_isSome_iff_eq_none.mp admitted⟩
      cases below with
      | ok visits => simp [looks]
      | error other => simp [looks, eq_comm]

/-- A visit fails at a directory only. -/
lemma unread_mem_visit {path name dir entry} :
    Visit.unread dir error ∈ analyzer.visit refuses root path name entry ↔
      ∃ inner, entry = .dir inner ∧ Visit.unread dir error ∈ analyzer.visitDir root path name
        (refuses.attempt "open" path (.ok (analyzer.visitAll refuses root path inner))) := by
  cases entry with
  | file content =>
    rw [visit, List.mem_singleton]
    split <;> simp
  | link target | device => simp [visit]
  | dir inner => simp [visit]

/-- All visits are those to the entries. -/
lemma mem_visitAll {dir entries visit} :
    visit ∈ analyzer.visitAll refuses root dir entries ↔
      ∃ name entry, (name, entry) ∈ entries ∧ visit ∈ analyzer.visit refuses root (child dir name) name entry := by
  induction entries with
  | nil => simp [visitAll]
  | cons first rest ih =>
    obtain ⟨name, entry⟩ := first
    rw [visitAll, List.mem_append, ih]
    constructor
    · rintro (here | ⟨name', entry', mem, there⟩)
      · exact ⟨name, entry, List.mem_cons_self, here⟩
      · exact ⟨name', entry', List.mem_cons_of_mem _ mem, there⟩
    · rintro ⟨name', entry', mem, there⟩
      rcases List.mem_cons.mp mem with eq | mem
      · obtain ⟨rfl, rfl⟩ := Prod.mk.inj eq
        exact .inl there
      · exact .inr ⟨name', entry', mem, there⟩

/-- Where a visit fails, the walk has come and is refused. -/
lemma descends_of_unread_mem {path} {entry : Entry} {above}
    (mem : Visit.unread path error ∈ analyzer.visitAll refuses root above entry.children) :
    analyzer.Descends refuses root above entry.children path ∧
      ∃ errno, refuses "open" path = some errno ∧ error = ⟨"open", path, errno⟩ := by
  induction entry using Entry.inductionOn generalizing above with
  | file _ | link _ | device => cases mem
  | dir entries ih =>
    obtain ⟨name, entry, listed, mem⟩ := mem_visitAll.mp mem
    obtain ⟨inner, rfl, mem⟩ := unread_mem_visit.mp mem
    obtain ⟨looks, ⟨rfl, failed⟩ | ⟨visits, read, mem⟩⟩ := unread_mem_visitDir.mp mem
    · exact ⟨.here listed looks, Refusals.attempt_ok_eq_error_iff.mp failed⟩
    · obtain ⟨allowed, eq⟩ := Refusals.attempt_eq_ok_iff.mp read
      obtain rfl := Except.ok.inj eq
      obtain ⟨descends, refused⟩ := ih name (.dir inner) listed mem
      exact ⟨.deeper listed looks allowed descends, refused⟩

/-- Below a directory that was read, visits fail at those that are refused. -/
lemma unread_mem_visitAll {above path listed} :
    Visit.unread path error ∈ analyzer.visitAll refuses root above listed ↔
      analyzer.Descends refuses root above listed path ∧
        ∃ errno, refuses "open" path = some errno ∧ error = ⟨"open", path, errno⟩ := by
  refine ⟨fun mem => @descends_of_unread_mem _ _ _ _ _ (.dir listed) _ mem, ?_⟩
  rintro ⟨descends, errno, refused, rfl⟩
  induction descends with
  | here mem looks =>
    refine mem_visitAll.mpr ⟨_, _, mem, unread_mem_visit.mpr ⟨_, rfl, unread_mem_visitDir.mpr ⟨looks, .inl ⟨rfl, ?_⟩⟩⟩⟩
    exact Refusals.attempt_of_refused refused
  | deeper mem looks allowed below ih =>
    refine mem_visitAll.mpr ⟨_, _, mem, unread_mem_visit.mpr ⟨_, rfl, unread_mem_visitDir.mpr ⟨looks, .inr ?_⟩⟩⟩
    exact ⟨_, Refusals.attempt_of_allowed allowed, ih refused⟩

/-- The visits of a walk fail where the walk gives up. -/
lemma unread_mem_walk {dir path entries} (walks : Walks files refuses dir entries) :
    Visit.unread path error ∈ analyzer.walk files refuses dir entries ↔
      analyzer.GivesUp files refuses dir path error := by
  rw [walk, List.mem_flatMap]
  constructor
  · rintro ⟨⟨name, entry⟩, mem, visited⟩
    cases entry with
    | file _ | link _ | device =>
      obtain ⟨inner, eq, -⟩ := unread_mem_visit.mp visited
      cases eq
    | dir inner =>
      obtain ⟨looks, ⟨rfl, failed⟩ | ⟨visits, made, below⟩⟩ := unread_mem_visitDir.mp visited
      · exact .first walks mem looks (Refusals.attempt_map_eq_error_iff.mp failed)
      · obtain ⟨listed, read, rfl⟩ := Refusals.attempt_map_eq_ok_iff.mp made
        obtain ⟨descends, errno, refused, rfl⟩ := unread_mem_visitAll.mp below
        exact .below walks mem looks read descends refused
  · rintro (⟨walks', mem, looks, failed⟩ | ⟨walks', mem, looks, read, descends, refused⟩)
    · cases walks.real.symm.trans walks'.real
      refine ⟨_, mem, unread_mem_visitDir.mpr ⟨looks, .inl ⟨rfl, ?_⟩⟩⟩
      exact Refusals.attempt_map_eq_error_iff.mpr failed
    · cases walks.real.symm.trans walks'.real
      have visited := unread_mem_visitAll.mpr ⟨descends, _, refused, rfl⟩
      refine ⟨_, mem, unread_mem_visitDir.mpr ⟨looks, .inr ⟨_, ?_, visited⟩⟩⟩
      exact Refusals.attempt_map_eq_ok_iff.mpr ⟨_, read, rfl⟩

end Visits

namespace GivesUp

variable {dir path : String} {error : FileError} (up : analyzer.GivesUp files refuses dir path error)

include up

/-- Only what is walked gives up. -/
lemma exists_walks : ∃ entries, Walks files refuses dir entries := by
  cases up with
  | first walks => exact ⟨_, walks⟩
  | below walks => exact ⟨_, walks⟩

lemma own?_eq_none : analyzer.own? files refuses dir = none := by
  obtain ⟨entries, walks⟩ := up.exists_walks
  exact walks.own?_eq_none analyzer

/-- A walk gives up where the directory cannot be read, so all walks give up there for the same reason. -/
lemma readDir_eq : refuses.attempt "open" path (files.readDir path) = .error error := by
  cases up with
  | first _ _ _ failed => exact failed
  | below _ _ _ _ _ refused => exact Refusals.attempt_of_refused refused

end GivesUp

/-- The failures among visits. -/
lemma mem_filterMap_failed {visits : List Visit} {result} :
    result ∈ visits.filterMap (·.failed?) ↔
      ∃ path error, Visit.unread path error ∈ visits ∧ result = unreadable path error := by
  rw [List.mem_filterMap]
  constructor
  · rintro ⟨visit, mem, eq⟩
    cases visit with
    | unread path error => exact ⟨path, error, mem, (Option.some.inj eq).symm⟩
    | found _ | entered _ | passed _ => cases eq
  · rintro ⟨path, error, mem, rfl⟩
    exact ⟨_, mem, rfl⟩

/-- The results that are settled without reading: the path's own, and those of the directories that its walk
cannot read. -/
lemma mem_settled_iff {dir result} :
    result ∈ (analyzer.argument files refuses dir).settled ↔
      analyzer.own? files refuses dir = some result ∨
        ∃ path error, analyzer.GivesUp files refuses dir path error ∧ result = unreadable path error := by
  by_cases walked : ∃ entries, Walks files refuses dir entries
  · obtain ⟨entries, walks⟩ := walked
    rw [walks.argument_eq, walks.own?_eq_none, or_iff_right (by rintro ⟨⟩), Argument.settled, mem_filterMap_failed]
    simp only [unread_mem_walk walks]
  · rw [settled_of_not_walks fun entries walks => walked ⟨entries, walks⟩, Option.mem_toList, or_iff_left]
    rintro ⟨path, error, up, -⟩
    exact walked up.exists_walks

/-- The results of what was asked for, before they are sorted. -/
def resultsOf (analyzer : Analyzer) (files : FileSystem) (refuses : Refusals) (given : List String) :
    List FileResult :=
  (given.map (analyzer.argument files refuses)).flatMap (·.settled) ++
    ((given.map (analyzer.argument files refuses)).flatMap (·.candidates)).map (analyzer.candidate files · refuses)

/-- Reports are the same if they have the same results under every path. -/
lemma paths_eq_iff {given given'} :
    analyzer.paths files given' refuses = analyzer.paths files given refuses ↔
      ∀ path, (analyzer.resultsOf files refuses given').filter (fun result => result.path = path) =
        (analyzer.resultsOf files refuses given).filter fun result => result.path = path := by
  rw [← mergeSort_eq_iff FileResult.path]
  exact Analysis.mk.injEq _ _ ▸ Iff.rfl

/-- The walk of a directory that is asked for gives up under a path that is asked for, too, and has another result
of its own. -/
def Clashes (analyzer : Analyzer) (files : FileSystem) (refuses : Refusals) (given : List String) : Prop :=
  ∃ dir ∈ given, ∃ path ∈ given, ∃ error result, analyzer.GivesUp files refuses dir path error ∧
    analyzer.own? files refuses path = some result ∧ result ≠ unreadable path error

section Given

variable {given : List String}

/-- A settled result is the own one of a path that was asked for, or a walk gave up. -/
lemma settled_cases {result} (mem : result ∈ (given.map (analyzer.argument files refuses)).flatMap (·.settled)) :
    (result.path ∈ given ∧ analyzer.own? files refuses result.path = some result) ∨
      ∃ dir ∈ given, ∃ error, analyzer.GivesUp files refuses dir result.path error ∧
        result = unreadable result.path error := by
  obtain ⟨_, mem, settled⟩ := List.mem_flatMap.mp mem
  obtain ⟨dir, isGiven, rfl⟩ := List.mem_map.mp mem
  rcases mem_settled_iff.mp settled with own | ⟨path, error, up, rfl⟩
  · obtain rfl := path_of_own? own
    exact .inl ⟨isGiven, own⟩
  · exact .inr ⟨dir, isGiven, error, up, rfl⟩

/-- Unless there is a clash, all settled results under one path are the same. -/
lemma settled_alike (clear : ¬ analyzer.Clashes files refuses given) {a b}
    (mem : a ∈ (given.map (analyzer.argument files refuses)).flatMap (·.settled))
    (mem' : b ∈ (given.map (analyzer.argument files refuses)).flatMap (·.settled)) (same : a.path = b.path) :
    a = b := by
  rcases settled_cases mem with ⟨isGiven, own⟩ | ⟨dir, isGiven, error, up, eq⟩
  · rcases settled_cases mem' with ⟨-, own'⟩ | ⟨dir, isGiven', error, up, eq⟩
    · rw [← same, own] at own'
      exact Option.some.inj own'
    · rw [← same] at up eq
      by_contra other
      exact clear ⟨dir, isGiven', _, isGiven, error, a, up, own, eq ▸ other⟩
  · rcases settled_cases mem' with ⟨isGiven', own'⟩ | ⟨dir', -, error', up', eq'⟩
    · rw [← same] at isGiven' own'
      by_contra other
      exact clear ⟨dir, isGiven, _, isGiven', error, b, up, own', eq ▸ Ne.symm other⟩
    · rw [← same] at up' eq'
      obtain rfl := Except.error.inj (up.readDir_eq.symm.trans up'.readDir_eq)
      exact eq.trans eq'.symm

/-- Unless there is a clash, the order of what is asked for makes no difference. -/
lemma paths_perm (clear : ¬ analyzer.Clashes files refuses given) {given'} (perm : given'.Perm given) :
    analyzer.paths files given' refuses = analyzer.paths files given refuses := by
  refine paths_eq_iff.mpr fun path => ?_
  have arguments := perm.symm.map (analyzer.argument files refuses)
  rw [resultsOf, resultsOf, List.filter_append, List.filter_append]
  refine (congrArg₂ (· ++ ·) ?_ ?_).symm
  · refine eq_of_perm_of_alike ((arguments.flatMap_right _).filter _) fun a mem b mem' => ?_
    simp only [List.mem_filter, decide_eq_true_eq] at mem mem'
    exact settled_alike clear mem.1 mem'.1 (mem.2.trans mem'.2.symm)
  · refine eq_of_perm_of_alike (((arguments.flatMap_right _).map _).filter _) fun a mem b mem' => ?_
    simp only [List.mem_filter, List.mem_map, decide_eq_true_eq] at mem mem'
    obtain ⟨⟨p, -, rfl⟩, here⟩ := mem
    obtain ⟨⟨q, -, rfl⟩, here'⟩ := mem'
    rw [path_candidate] at here here'
    rw [here, here']

/-- The first result under a path is that of what is asked for first, if it has only one there. -/
lemma head?_resultsOf {first path rest result} (settled : result ∈ (analyzer.argument files refuses first).settled)
    (here : result.path = path)
    (only : ∀ a ∈ (analyzer.argument files refuses first).settled, a.path = path → a = result) :
    ((analyzer.resultsOf files refuses (first :: rest)).filter fun a => a.path = path).head? = some result := by
  have mem : result ∈ (analyzer.argument files refuses first).settled.filter fun a => a.path = path :=
    List.mem_filter.mpr ⟨settled, by simpa using here⟩
  obtain ⟨a, others, eq⟩ := List.exists_cons_of_ne_nil (List.ne_nil_of_mem mem)
  have isFirst : a ∈ (analyzer.argument files refuses first).settled.filter fun a => a.path = path :=
    eq ▸ List.mem_cons_self
  simp only [List.mem_filter, decide_eq_true_eq] at isFirst
  rw [resultsOf, List.map_cons, List.flatMap_cons, List.append_assoc, List.filter_append, eq, List.cons_append,
    List.head?_cons, only a isFirst.1 isFirst.2]

/-- Of two paths that clash, the one that is asked for first has the first result. -/
lemma GivesUp.paths_ne {dir path error result} (up : analyzer.GivesUp files refuses dir path error)
    (own : analyzer.own? files refuses path = some result) (other : result ≠ unreadable path error)
    (rest : List String) :
    analyzer.paths files (dir :: path :: rest) refuses ≠ analyzer.paths files (path :: dir :: rest) refuses := by
  intro eq
  have first : ((analyzer.resultsOf files refuses (dir :: path :: rest)).filter fun a => a.path = path).head? =
      some (unreadable path error) := by
    refine head?_resultsOf (mem_settled_iff.mpr (.inr ⟨path, error, up, rfl⟩)) rfl fun a mem here => ?_
    rcases mem_settled_iff.mp mem with own' | ⟨path', error', up', rfl⟩
    · rw [up.own?_eq_none] at own'
      cases own'
    · obtain rfl : path' = path := here
      obtain rfl := Except.error.inj (up.readDir_eq.symm.trans up'.readDir_eq)
      rfl
  have first' : ((analyzer.resultsOf files refuses (path :: dir :: rest)).filter fun a => a.path = path).head? =
      some result := by
    refine head?_resultsOf (mem_settled_iff.mpr (.inl own)) (path_of_own? own) fun a mem here => ?_
    rcases mem_settled_iff.mp mem with own' | ⟨path', error', up', -⟩
    · exact Option.some.inj (own'.symm.trans own)
    · rw [up'.own?_eq_none] at own
      cases own
  rw [paths_eq_iff.mp eq path, first'] at first
  exact other (Option.some.inj first)

lemma exists_perm_cons_cons {dir path} (isGiven : dir ∈ given) (isGiven' : path ∈ given) (ne : dir ≠ path) :
    ∃ rest, given.Perm (dir :: path :: rest) := by
  have mem : path ∈ given.erase dir := (List.mem_erase_of_ne ne.symm).mpr isGiven'
  exact ⟨_, (List.perm_cons_erase isGiven).trans ((List.perm_cons_erase mem).cons dir)⟩

/-- The order of what is asked for makes no difference just if there is no clash. -/
lemma paths_perm_iff :
    (∀ given', given'.Perm given → analyzer.paths files given' refuses = analyzer.paths files given refuses) ↔
      ¬ analyzer.Clashes files refuses given := by
  refine ⟨?_, fun clear given' => paths_perm clear⟩
  rintro same ⟨dir, isGiven, path, isGiven', error, result, up, own, other⟩
  have ne : dir ≠ path := by
    rintro rfl
    rw [up.own?_eq_none] at own
    cases own
  obtain ⟨rest, perm⟩ := exists_perm_cons_cons isGiven isGiven' ne
  have swapped : (path :: dir :: rest).Perm given := (List.Perm.swap dir path rest).trans perm.symm
  exact up.paths_ne own other rest ((same _ perm.symm).trans (same _ swapped).symm)

/-- A walk comes to look into directories of the tree only. -/
lemma Descends.exists_below {d root path above} (names : ∀ part ∈ above, Path.IsName part) {listed}
    (sound : (Entry.dir listed).Sound) (descends : analyzer.Descends refuses root (pathBelow d above) listed path) :
    ∃ ns inner, path = pathBelow d (above ++ ns) ∧ (Entry.dir listed).below? ns = some (.dir inner) := by
  generalize eq : pathBelow d above = start at descends
  induction descends generalizing above with
  | here mem looks =>
    subst eq
    refine ⟨_, _, FileSystem.join_pathBelow names (sound.listed mem).1, sound.below?_of_mem mem [] |>.trans rfl⟩
  | deeper mem looks allowed below ih =>
    subst eq
    obtain ⟨isName, inside⟩ := sound.listed mem
    obtain ⟨ns, inner, rfl, found⟩ :=
      ih (Path.isName_concat names isName) inside (FileSystem.join_pathBelow names isName).symm
    exact ⟨_ :: ns, inner, by rw [List.append_assoc]; rfl, (sound.below?_of_mem mem ns).trans found⟩

/-- Where a walk gives up, there is a directory. -/
lemma GivesUp.exists_stat {dir path error} (sound : files.root.Sound)
    (direct : ∀ entries, files.lstat dir = .ok (.dir entries) → Direct files dir entries)
    (up : analyzer.GivesUp files refuses dir path error) : ∃ inner, files.stat path = .ok (.dir inner) := by
  obtain ⟨entries, walks⟩ := up.exists_walks
  have same := (direct entries walks.real).same (FileSystem.stat_of_lstat walks.real (by rintro target ⟨⟩))
  have below := sound_entries sound same
  suffices found : ∃ ns inner, path = pathBelow dir ns ∧ (Entry.dir entries).below? ns = some (.dir inner) by
    obtain ⟨ns, inner, rfl, found⟩ := found
    exact ⟨inner, FileSystem.stat_eq_ok_iff.mpr (locate_below sound same found (by rintro target ⟨⟩))⟩
  cases up with
  | first walks' mem looks failed =>
    cases walks.real.symm.trans walks'.real
    exact ⟨_, _, child_eq (below.listed mem).1, (below.below?_of_mem mem []).trans rfl⟩
  | below walks' mem looks read descends refused =>
    cases walks.real.symm.trans walks'.real
    obtain ⟨isName, inside⟩ := below.listed mem
    rw [child_eq isName] at read descends
    obtain rfl := Except.ok.inj ((Refusals.attempt_eq_ok_iff.mp read).2.symm.trans (readDir_below sound same mem))
    obtain ⟨ns, inner, rfl, found⟩ := descends.exists_below (List.forall_mem_singleton.mpr isName) inside
    exact ⟨_ :: ns, inner, rfl, (below.below?_of_mem mem ns).trans found⟩

/-- There is no clash if every directory that is asked for is found in the shortest spelling of its path, and the
system says of every path that is asked for what is there. -/
lemma not_clashes_of_direct (sound : files.root.Sound)
    (direct : ∀ dir ∈ given, ∀ entries, files.lstat dir = .ok (.dir entries) → Direct files dir entries)
    (told : ∀ path ∈ given, refuses "stat" path = none ∧ refuses "lstat" path = none) :
    ¬ analyzer.Clashes files refuses given := by
  rintro ⟨dir, isGiven, path, isGiven', error, result, up, own, other⟩
  obtain ⟨inner, led⟩ := up.exists_stat sound (direct dir isGiven)
  obtain ⟨errno, refused, rfl⟩ := own?_of_dir led (told path isGiven').1 (told path isGiven').2 own
  have failed := up.readDir_eq
  rw [Refusals.attempt_of_refused refused] at failed
  exact other (congrArg _ (Except.error.inj failed))

end Given

/-- The order of what is asked for shows in no report, with any limit, just if there is no clash. There is none if
every directory that is asked for is found in the shortest spelling of its path and the system does not refuse to
say what is under a path that is asked for, whatever else it refuses. -/
theorem reports_insensitive_iff (analyzer : Analyzer) (files : FileSystem) (refuses : Refusals)
    (given : List String) :
    ((∃ report, ∀ given', given'.Perm given → ∀ limit analysis,
        analyzer.Reports files limit given' analysis refuses ↔ analysis = report) ↔
          ¬ analyzer.Clashes files refuses given) ∧
      (files.root.Sound →
        (∀ dir ∈ given, ∀ entries, files.lstat dir = .ok (.dir entries) → Direct files dir entries) →
        (∀ path ∈ given, refuses "stat" path = none ∧ refuses "lstat" path = none) →
        ¬ analyzer.Clashes files refuses given) := by
  refine ⟨?_, not_clashes_of_direct⟩
  simp only [reports_iff]
  rw [← paths_perm_iff]
  constructor
  · rintro ⟨report, same⟩ given' perm
    rw [(same given' perm 1 _).mp rfl, (same given (.refl _) 1 _).mp rfl]
  · intro same
    refine ⟨analyzer.paths files given refuses, fun given' perm limit analysis => ?_⟩
    rw [same given' perm]

/-- A file is passed over where it is asked for, found in its directory, and asked for twice. A directory that may
not be read is asked for, too, and comes up in the walk of another one. -/
theorem reports_insensitive_overlapping :
    let entries : List (String × Entry) := [("a.go", .file (Utf8.ofString "danger\n")), ("sub", .dir [])]
    let files : FileSystem := ⟨.dir [("d", .dir entries)], "/"⟩
    let analyzer : Analyzer := { processor := { rules := none }, options := { exclude := ["d/*.go"] } }
    let refuses : Refusals := fun operation path =>
      if operation = "open" && path = "d/sub" then some .denied else none
    let given := ["d", "d/a.go", "gone", "d/a.go", "d/sub"]
    files.root.Sound ∧ files.lstat "d" = .ok (.dir entries) ∧
      (∀ dir ∈ given, ∀ entries, files.lstat dir = .ok (.dir entries) → Direct files dir entries) ∧
      (∀ path ∈ given, refuses "stat" path = none ∧ refuses "lstat" path = none) ∧
      ∃ report, ∀ given', given'.Perm given → ∀ limit analysis,
        analyzer.Reports files limit given' analysis refuses ↔ analysis = report := by
  intro entries files analyzer refuses given
  have sound : files.root.Sound := by decide +kernel
  have real : files.lstat "d" = .ok (.dir entries) := by
    have start : FileSystem.names "/" = ["."] := by decide
    have names : FileSystem.names "d" = ["d"] := by decide
    simp [FileSystem.lstat, FileSystem.entryAt, FileSystem.locate, Path.isAbsolute, files, names, start,
      FileSystem.follow]
    rfl
  have direct : ∀ dir ∈ given, ∀ entries, files.lstat dir = .ok (.dir entries) → Direct files dir entries := by
    have plain : ∀ dir ∈ given, ".." ∉ Path.components dir := by decide
    exact fun dir isGiven entries _ => .inl (plain dir isGiven)
  have told : ∀ path ∈ given, refuses "stat" path = none ∧ refuses "lstat" path = none := by decide
  obtain ⟨insensitive, clear⟩ := reports_insensitive_iff analyzer files refuses given
  exact ⟨sound, real, direct, told, insensitive.mpr (clear sound direct told)⟩

/-- Behind a link, a directory is looked for where there is none. The path there is asked for, too, and the two
complaints about it come in the order in which the paths were asked for. -/
theorem reports_behind_link_differ :
    let files : FileSystem := ⟨.dir [
      ("link", .link "other/in"),
      ("other", .dir [("in", .dir []),
        ("sub", .dir [("deep", .dir [("wanted.go", .file (Utf8.ofString "danger\n"))])])])], "/"⟩
    let analyzer : Analyzer := { processor := { rules := none } }
    let refused (operation : String) : FileResult :=
      { path := "sub/deep", fault := some (.access "sub/deep" ⟨operation, "sub/deep", .noEntry⟩) }
    ∀ limit analysis,
      (analyzer.Reports files limit ["link/../sub", "sub/deep"] analysis ↔
        analysis = ⟨[refused "open", refused "stat"]⟩) ∧
      (analyzer.Reports files limit ["sub/deep", "link/../sub"] analysis ↔
        analysis = ⟨[refused "stat", refused "open"]⟩) := by
  intro files analyzer refused limit analysis
  have start : FileSystem.names "/" = ["."] := by decide
  have names : FileSystem.names "sub/deep" = ["sub", "deep"] := by decide
  have led : files.lstat "link/../sub" =
      .ok (.dir [("deep", .dir [("wanted.go", .file (Utf8.ofString "danger\n"))])]) := by
    have names : FileSystem.names "link/../sub" = ["link", "..", "sub"] := by decide
    have target : FileSystem.names "other/in" = ["other", "in"] := by decide
    simp [FileSystem.lstat, FileSystem.entryAt, FileSystem.locate, Path.isAbsolute, files, names, start, target,
      FileSystem.linkLimit, FileSystem.follow, List.lookup_cons, Entry.below?, Entry.children]
    rfl
  have absent : ∀ operation,
      files.entryAt true operation "sub/deep" = .error ⟨operation, "sub/deep", .noEntry⟩ := by
    intro operation
    have short : ¬ FileSystem.nameLimit < "sub".utf8ByteSize := by decide
    simp [FileSystem.entryAt, FileSystem.locate, Path.isAbsolute, files, names, start, FileSystem.follow,
      List.lookup_cons, short]
  have walked : analyzer.argument files .nothing "link/../sub" =
      .walked [.unread "sub/deep" ⟨"open", "sub/deep", .noEntry⟩] := by
    have path : child "link/../sub" "deep" = "sub/deep" := by decide +kernel
    have read : files.readDir "sub/deep" = .error ⟨"open", "sub/deep", .noEntry⟩ := by
      rw [FileSystem.readDir, absent]
    rw [argument_eq led]
    simp [walk, visitFirst, path, read, Except.map, visitDir, skip?, ignored, excluded, analyzer]
  have failed : analyzer.argument files .nothing "sub/deep" = .failed (refused "stat") := by
    rw [argument, Refusals.attempt_nothing, FileSystem.stat, absent]
  have sorted : ∀ a b : String,
      [refused a, refused b].mergeSort (fun a b => a.path ≤ b.path) = [refused a, refused b] := by
    intro a b
    refine List.mergeSort_of_pairwise ?_
    simp [refused]
  rw [reports_iff, reports_iff, paths, paths]
  simp only [List.map_cons, List.map_nil, walked, failed]
  exact ⟨by rw [← sorted]; rfl, by rw [← sorted]; rfl⟩

end Analyzer

end Sift
