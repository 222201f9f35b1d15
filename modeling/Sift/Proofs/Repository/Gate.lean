import Mathlib.Data.List.Basic
import Sift.Proofs.FileSystem
import Sift.Repository.Gate

/-!
# What the gate answers

The gate keeps the working tree of every directory and the patterns of every working tree that it was
asked about, and uses them for other paths later. As long as the files stay as they are, what it keeps is
what it would find (`Gate.Faithful`): asking preserves this, a change of the files may break it, and
forgetting restores it. So no answer shows what was asked before, unless the files have changed since the
gate last forgot (`Gate.ask_eq_fresh`).

A path always lies in the working tree that is found for it, and is left out by the names that lead to it
from there (`Gate.answer_iff_left_out`). Names that begin with two dots are the exception: they are taken
to lead out of the tree, so that nothing behind them is left out (`Gate.answer_behind_two_dots`).
-/

namespace Sift

/-- The directories around a path, the path among them, are spelled by the beginnings of its parts. -/
lemma Path.Spells.of_mem_ancestors {full path parts} (spells : Spells full parts) (mem : path ∈ ancestors full) :
    ∃ front, front <+: parts ∧ Spells path front := by
  rw [ancestors, spells.cleanComponents_eq] at mem
  obtain ⟨n, -, rfl⟩ := List.mem_map.mp mem
  exact ⟨_, List.take_prefix _ _, spells.of_prefix (List.take_prefix _ _)⟩

/-- The working tree that a search ends with is one of the directories, or the one around it. -/
lemma Workspace.root_of_search {files given root dir paths} (found : search files given paths = .ok (root, dir)) :
    ∃ path ∈ paths, root = path ∨ root = Path.dir path := by
  induction paths with
  | nil => cases found
  | cons path outer ih =>
    have later : search files given outer = .ok (root, dir) →
        ∃ path' ∈ path :: outer, root = path' ∨ root = Path.dir path' := by
      intro found
      obtain ⟨path', mem, eq⟩ := ih found
      exact ⟨path', List.mem_cons_of_mem _ mem, eq⟩
    unfold search at found
    dsimp only at found
    split at found
    case h_1 =>
      split at found
      · exact later found
      · cases found
    case h_2 entry _ =>
      have here : ∀ dir', .ok (if entry.isDir then path else Path.dir path, dir') =
          (.ok (root, dir) : Except RepositoryFault (String × String)) →
          ∃ path' ∈ path :: outer, root = path' ∨ root = Path.dir path' := by
        intro dir' eq
        refine ⟨path, List.mem_cons_self, ?_⟩
        have same := congrArg Prod.fst (Except.ok.inj eq)
        dsimp only at same
        split at same
        · exact .inl same.symm
        · exact .inr same.symm
      split at found
      case h_1 =>
        split at found
        · exact later found
        · cases found
      case h_2 => exact here _ found
      case h_3 =>
        split at found
        · exact here _ found
        · cases found
      case h_4 => cases found

namespace Gate

/-- What happens to a gate, or to the files it looks at. -/
inductive Event where
  | ask (path : String)
  | change (workspace : Workspace)
  | forget

/-- A gate and the workspace it looks at. -/
structure Scene where
  workspace : Workspace
  gate : Gate := {}

/-- The answer that the gate gives about a path. -/
def Scene.answer (scene : Scene) (path : String) : Bool := (scene.gate.ask scene.workspace path).1

/-- The scene after an event. -/
def Scene.apply (scene : Scene) : Event → Scene
  | .ask path => { scene with gate := (scene.gate.ask scene.workspace path).2 }
  | .change workspace => { scene with workspace }
  | .forget => { scene with gate := scene.gate.forget }

/-- The scene that events leave, from a new gate on. -/
def Scene.after (workspace : Workspace) (events : List Event) : Scene :=
  events.foldl Scene.apply ⟨workspace, {}⟩

/-- Whether the files are as they were when the gate was made or last forgot; `so` says whether they
were before the events. -/
def current (so : Bool) : List Event → Bool
  | [] => so
  | .ask _ :: rest => current so rest
  | .change _ :: rest => current false rest
  | .forget :: rest => current true rest

/-- What is kept under a key is what would be found for it. -/
def Recalls {α : Type} (kept : List (String × α)) (find : String → α) : Prop :=
  ∀ key found, kept.lookup key = some found → found = find key

namespace Recalls

variable {α : Type} {kept : List (String × α)} {find : String → α}

lemma nil : Recalls [] find := by
  intro key found known
  cases known

lemma cons (recalls : Recalls kept find) (key : String) : Recalls ((key, find key) :: kept) find := by
  intro other found known
  rw [List.lookup_cons] at known
  split at known
  case h_1 same =>
    rw [beq_iff_eq.mp same]
    exact (Option.some.inj known).symm
  case h_2 => exact recalls other found known

/-- Using what is kept makes no difference. -/
lemma getD_eq (recalls : Recalls kept find) (key : String) : (kept.lookup key).getD (find key) = find key := by
  cases known : kept.lookup key with
  | none => rfl
  | some found => exact recalls key found known

end Recalls

/-- What a gate remembers is what it would find now. -/
structure Faithful (gate : Gate) (workspace : Workspace) : Prop where
  roots : Recalls gate.roots (findRoot workspace)
  patterns : Recalls gate.patterns (IgnorePattern.collect workspace.files)

namespace Faithful

variable {gate : Gate} {workspace : Workspace}

lemma empty (workspace : Workspace) : Faithful {} workspace := ⟨.nil, .nil⟩

/-- A faithful gate knows the root. -/
lemma rootOf_eq (faithful : gate.Faithful workspace) (dir : String) :
    gate.rootOf workspace dir = findRoot workspace dir :=
  faithful.roots.getD_eq dir

/-- A faithful gate knows the patterns. -/
lemma patternsOf_eq (faithful : gate.Faithful workspace) (root : String) :
    gate.patternsOf workspace root = IgnorePattern.collect workspace.files root :=
  faithful.patterns.getD_eq root

/-- A faithful gate answers as a new one. -/
lemma ignores_eq (faithful : gate.Faithful workspace) (path : String) :
    gate.ignores workspace path = ({} : Gate).ignores workspace path := by
  simp only [ignores, faithful.rootOf_eq, (empty workspace).rootOf_eq, faithful.patternsOf_eq,
    (empty workspace).patternsOf_eq]

/-- Asking keeps a gate faithful, whatever the path. -/
lemma remember (faithful : gate.Faithful workspace) (path : String) :
    (gate.remember workspace path).Faithful workspace := by
  rcases standing : standpoint workspace.files path with ⟨full, isDir, dir⟩
  simp only [Gate.remember, standing, faithful.rootOf_eq]
  -- First the working tree of the directory is kept, then the patterns of the working tree.
  have rooted : Faithful (if (gate.roots.lookup dir).isSome then gate
      else { gate with roots := (dir, findRoot workspace dir) :: gate.roots }) workspace := by
    split
    · exact faithful
    · exact ⟨faithful.roots.cons dir, faithful.patterns⟩
  generalize findRoot workspace dir = root at rooted ⊢
  cases root with
  | none => exact rooted
  | some root =>
    dsimp only
    generalize (if (gate.roots.lookup dir).isSome then gate
      else { gate with roots := (dir, some root) :: gate.roots }) = known at rooted ⊢
    split
    · exact rooted
    · exact ⟨rooted.roots, rooted.patterns.cons root⟩

end Faithful

lemma current_cons (so : Bool) (event : Event) (rest : List Event) :
    current so (event :: rest) = current (current so [event]) rest := by
  cases event with
  | ask path => rfl
  | change workspace => rfl
  | forget => rfl

section Run

variable {scene : Scene} {so : Bool} (faithful : so = true → scene.gate.Faithful scene.workspace)
include faithful

/-- An event keeps a gate faithful, unless it changes the files; forgetting makes it so. -/
lemma faithful_apply (event : Event) (now : current so [event] = true) :
    (scene.apply event).gate.Faithful (scene.apply event).workspace := by
  cases event with
  | ask path => exact (faithful now).remember path
  | change workspace => cases now
  | forget => exact .empty scene.workspace

/-- A gate that was told of changes is faithful. -/
lemma faithful_foldl (events : List Event) (now : current so events = true) :
    (events.foldl Scene.apply scene).gate.Faithful (events.foldl Scene.apply scene).workspace := by
  induction events generalizing scene so with
  | nil => exact faithful now
  | cons event rest ih =>
    rw [current_cons] at now
    exact ih (faithful_apply faithful event) now

end Run

/-- If the files have not changed since the gate was made or last forgot, it is faithful to them. -/
lemma faithful_after (workspace : Workspace) {events} (now : current true events = true) :
    (Scene.after workspace events).gate.Faithful (Scene.after workspace events).workspace :=
  faithful_foldl (fun _ => .empty workspace) events now

/-- The working tree that a directory belongs to is one of the directories around it. -/
lemma spells_of_findRoot {workspace dir root parts} (spells : Path.Spells dir parts)
    (found : findRoot workspace dir = some root) :
    ∃ front, front <+: parts ∧ Path.Spells root front := by
  have some : dir ≠ "" := by
    rintro rfl
    cases spells.isAbsolute_eq
  rw [findRoot, Workspace.rootAt, Workspace.repositoryAt, if_neg some,
    workspace.files.absolute_eq_self spells] at found
  split at found
  case h_1 => cases found
  case h_2 tree own searched =>
    obtain ⟨path, mem, eq⟩ := Workspace.root_of_search searched
    obtain ⟨front, before, around⟩ := spells.of_mem_ancestors mem
    have same : tree = root := by
      split at found
      · exact Option.some.inj found
      · cases found
    subst same
    rcases eq with rfl | rfl
    · exact ⟨front, before, around⟩
    · exact ⟨front.dropLast, front.dropLast_prefix.trans before, around.dir⟩

/-- Whether patterns leave a path out, by the names that lead to it from the working tree. -/
lemma leavesOut_iff {root full front names} (around : Path.Spells root front)
    (spells : Path.Spells full (front ++ names)) (patterns : List IgnorePattern) (isDir : Bool) :
    leavesOut root patterns full isDir = true ↔
      ∃ first rest, names = first :: rest ∧ Text.startsWith first ".." = false ∧
        (first = ".git" ∨ IgnorePattern.ignores patterns names isDir = true) := by
  have all : ∀ name ∈ names, Path.IsPart name := fun name mem => spells.isPart name (List.mem_append_right _ mem)
  rw [leavesOut, around.relative?_eq spells]
  cases names with
  | nil => simp [Path.ofComponents]
  | cons first rest =>
    have path := Path.ofComponents_false_of_ne_nil all (List.cons_ne_nil first rest)
    have dot : "/".intercalate (first :: rest) ≠ "." := by
      intro eq
      have parts := Text.splitAt_intercalate (fun name mem => (all name mem).2) (List.cons_ne_nil first rest)
      rw [eq] at parts
      exact spells.dot (List.mem_append_right _ (parts ▸ List.mem_singleton_self _))
    dsimp only
    rw [path, Text.startsWith_intercalate (by decide),
      Text.splitAt_intercalate (fun name mem => (all name mem).2) (List.cons_ne_nil first rest)]
    cases outside : Text.startsWith first ".." with
    | true => simp [outside]
    | false => simp [outside, dot]

/-- A working tree with an ignore file and two files whose names end alike. -/
def ownTree (lines : String) : Workspace :=
  { files := ⟨.dir [("w", .dir [
        ("..debug.log", .file []), (".git", .dir [("info", .dir [("exclude", .file [])])]),
        (".gitignore", .file (Utf8.ofString lines)), ("debug.log", .file [])])], "/w"⟩
    repositories := [("/w/.git", {})] }

lemma locate_ownTree {lines names entry} (all : ∀ name ∈ names, Path.IsName name)
    (place : (ownTree lines).files.root.below? ("w" :: names) = some entry) (real : ∀ target, entry ≠ .link target) :
    (ownTree lines).files.locate true (FileSystem.pathBelow "/w" names) =
      .ok ⟨("w" :: names).reverse, some entry⟩ :=
  @FileSystem.locate_of_below? (ownTree lines).files "/w" names all ["w"] entry (by decide) (by decide)
    (by decide) (by decide) place real

lemma stat_ownTree {lines names entry} (all : ∀ name ∈ names, Path.IsName name)
    (place : (ownTree lines).files.root.below? ("w" :: names) = some entry) (real : ∀ target, entry ≠ .link target) :
    (ownTree lines).files.stat (FileSystem.pathBelow "/w" names) = .ok entry :=
  FileSystem.stat_eq_ok_iff.mpr ⟨_, locate_ownTree all place real⟩

lemma findRoot_ownTree (lines : String) : findRoot (ownTree lines) "/w" = some "/w" := by
  have here := @stat_ownTree lines [] _ (by decide) rfl (by rintro target ⟨⟩)
  have own := @stat_ownTree lines [".git"] _ (by decide) rfl (by rintro target ⟨⟩)
  have place := @locate_ownTree lines [".git"] _ (by decide) rfl (by rintro target ⟨⟩)
  have path : FileSystem.pathBelow "/w" [] = "/w" := by decide +kernel
  have path' : FileSystem.pathBelow "/w" [".git"] = "/w/.git" := by decide +kernel
  have joined : Path.join ["/w", ".git"] = "/w/.git" := by decide +kernel
  have around : Path.ancestors ((ownTree lines).files.absolute "/w") = ["/w", "/"] := by
    change Path.ancestors (Path.clean "/w") = _
    decide +kernel
  rw [path] at here
  rw [path'] at own place
  have real : Workspace.realPath (ownTree lines).files "/w/.git" = "/w/.git" := by
    rw [Workspace.realPath, place]
    decide +kernel
  simp only [findRoot, Workspace.rootAt, Workspace.repositoryAt, around, Workspace.search, here, own, joined,
    Entry.isDir, if_true, real]
  rfl

/-- Below a directory without others in it, all patterns are its own. -/
lemma collect_of_flat {fs root entries} (read : fs.readDir (Path.join [root]) = .ok entries)
    (flat : ∀ listed ∈ entries, (listed.2.isDir && listed.1 ≠ ".git") = false) :
    IgnorePattern.collect fs root =
      IgnorePattern.ofFile fs [] (Path.join [Path.join [root], ".git/info/exclude"]) ++
        IgnorePattern.ofFile fs [] (Path.join [Path.join [root], ".gitignore"]) := by
  have inner : (entries.flatMap fun listed => if listed.2.isDir && listed.1 ≠ ".git" then
      IgnorePattern.collectBelow fs root 2047 ([] ++ [listed.1]) else []) = [] :=
    List.flatMap_eq_nil_iff.mpr fun listed mem => by rw [flat listed mem]; rfl
  rw [IgnorePattern.collect, FileSystem.depthLimit, IgnorePattern.collectBelow, read]
  dsimp only
  rw [inner, List.append_nil]

lemma collect_ownTree (lines : String) : IgnorePattern.collect (ownTree lines).files "/w" =
    ((IgnorePattern.fileLines (Utf8.ofString lines)).filter fun line =>
      !Text.startsWith line "#" && Text.trim line ≠ "").map (IgnorePattern.ofLine []) := by
  have entries := FileSystem.readDir_eq_ok_iff.mpr
    ⟨_, @locate_ownTree lines [] _ (by decide) rfl (by rintro target ⟨⟩)⟩
  have listed := @locate_ownTree lines [".gitignore"] _ (by decide) rfl (by rintro target ⟨⟩)
  have exclude := @locate_ownTree lines [".git", "info", "exclude"] _ (by decide) rfl (by rintro target ⟨⟩)
  have path : FileSystem.pathBelow "/w" [] = "/w" := by decide +kernel
  have path' : FileSystem.pathBelow "/w" [".gitignore"] = "/w/.gitignore" := by decide +kernel
  have path'' : FileSystem.pathBelow "/w" [".git", "info", "exclude"] = "/w/.git/info/exclude" := by decide +kernel
  have dir : Path.join ["/w"] = "/w" := by decide +kernel
  have file : Path.join ["/w", ".gitignore"] = "/w/.gitignore" := by decide +kernel
  have file' : Path.join ["/w", ".git/info/exclude"] = "/w/.git/info/exclude" := by decide +kernel
  rw [path] at entries
  rw [path'] at listed
  rw [path''] at exclude
  have none : (IgnorePattern.fileLines []).filter
      (fun line => !Text.startsWith line "#" && Text.trim line ≠ "") = [] := by decide +kernel
  rw [collect_of_flat (dir.symm ▸ entries) (by simp [Entry.isDir]), dir, file, file']
  simp only [IgnorePattern.ofFile, FileSystem.readFile, FileSystem.entryAt, listed, exclude, none, List.map_nil,
    List.nil_append]

/-- Both files lie in the working tree. -/
lemma absolute_ownTree (lines : String) {name} (mem : name ∈ ["..debug.log", "debug.log"]) :
    (ownTree lines).files.absolute name = "/w/" ++ name ∧
      (ownTree lines).files.isDir ("/w/" ++ name) = false ∧ Path.dir ("/w/" ++ name) = "/w" := by
  have all : ∀ name ∈ ["..debug.log", "debug.log"], Path.IsName name ∧
      Path.join ["/w", name] = "/w/" ++ name ∧ Path.isAbsolute name = false ∧
      Path.dir ("/w/" ++ name) = "/w" ∧ FileSystem.pathBelow "/w" [name] = "/w/" ++ name := by
    decide +kernel
  obtain ⟨isName, joined, relative, dir, below⟩ := all name mem
  have place : (ownTree lines).files.root.below? ["w", name] = some (.file []) := by
    rcases List.mem_pair.mp mem with rfl | rfl
    · rfl
    · rfl
  refine ⟨?_, ?_, dir⟩
  · rw [FileSystem.absolute, relative]
    exact joined
  · rw [FileSystem.isDir, ← below, stat_ownTree (List.forall_mem_singleton.mpr isName) place (by rintro target ⟨⟩)]
    rfl

lemma standpoint_ownTree (lines : String) {name} (mem : name ∈ ["..debug.log", "debug.log"]) :
    standpoint (ownTree lines).files name = ("/w/" ++ name, false, "/w") := by
  obtain ⟨full, file, dir⟩ := absolute_ownTree lines mem
  simp only [standpoint, full, file, Bool.false_eq_true, if_false, dir]

lemma answer_ownTree {gate lines name} (mem : name ∈ ["..debug.log", "debug.log"])
    (root : gate.rootOf (ownTree lines) "/w" = some "/w") :
    Scene.answer ⟨ownTree lines, gate⟩ name = true ↔ Text.startsWith name ".." = false ∧
      IgnorePattern.ignores (gate.patternsOf (ownTree lines) "/w") [name] false = true := by
  have all : ∀ name ∈ ["..debug.log", "debug.log"], Path.IsName name ∧ name ≠ ".git" ∧
      "/w/" ++ name = Path.ofComponents true (["w"] ++ [name]) := by
    decide +kernel
  obtain ⟨isName, other, full⟩ := all name mem
  have named : ∀ part ∈ ["w", name], Path.IsName part := by simpa using ⟨by decide, isName⟩
  have spells : Path.Spells ("/w/" ++ name) (["w"] ++ [name]) :=
    ⟨full, fun part mem => (named part mem).isPart, fun mem => (named _ mem).ne_dot rfl,
      fun mem => (named _ mem).ne_dots rfl⟩
  have around : Path.Spells "/w" ["w"] := by
    have eq : Path.ofComponents true ["w"] = "/w" := by decide
    exact eq ▸ spells.of_prefix (List.prefix_append _ _)
  simp only [Scene.answer, ask, ignores, standpoint_ownTree lines mem, root]
  rw [leavesOut_iff around spells]
  simp [other]

lemma ignores_collect_ownTree {name} (mem : name ∈ ["..debug.log", "debug.log"]) :
    IgnorePattern.ignores (IgnorePattern.collect (ownTree "*.log\n").files "/w") [name] false = true := by
  have patterns : IgnorePattern.collect (ownTree "*.log\n").files "/w" = [⟨[], false, false, ["*.log"]⟩] := by
    rw [collect_ownTree]
    decide +kernel
  have parsed : Glob.Component.parse? "*.log".length "*.log".toList =
      some [.star, .char '.', .char 'l', .char 'o', .char 'g'] := by
    decide
  have fits : Glob.matchesName "*.log" name = true := by
    rw [Glob.matchesName, parsed]
    rcases List.mem_pair.mp mem with rfl | rfl <;>
      simp [Glob.Component.admits, Glob.Component.Part.admits]
  simp [patterns, IgnorePattern.ignores, IgnorePattern.fits, IgnorePattern.fitsName, fits]

/-- Whatever the gate was asked about before, and however the files have changed, it answers as a new
gate does, if they have not changed since it was made or last forgot. -/
theorem ask_eq_fresh (workspace : Workspace) (events : List Event) (now : current true events = true)
    (path : String) :
    (Scene.after workspace events).answer path =
      Scene.answer ⟨(Scene.after workspace events).workspace, {}⟩ path :=
  (faithful_after workspace now).ignores_eq path

/-- An ignore file that comes later is not heeded until the gate forgets. -/
theorem ask_eq_fresh_once_forgotten :
    let events : List Event := [.ask "debug.log", .change (ownTree "*.log\n")]
    (Scene.after (ownTree "") events).answer "debug.log" = false ∧
      current true (events ++ [.forget]) = true ∧
      (Scene.after (ownTree "") (events ++ [.forget])).answer "debug.log" =
        Scene.answer ⟨ownTree "*.log\n", {}⟩ "debug.log" ∧
      Scene.answer ⟨ownTree "*.log\n", {}⟩ "debug.log" = true := by
  intro events
  have mem : "debug.log" ∈ ["..debug.log", "debug.log"] := by decide
  have nothing : IgnorePattern.collect (ownTree "").files "/w" = [] := by
    rw [collect_ownTree]
    decide +kernel
  have kept : Scene.after (ownTree "") events =
      ⟨ownTree "*.log\n", ⟨[("/w", some "/w")], [("/w", [])]⟩⟩ := by
    refine congrArg (Scene.mk (ownTree "*.log\n")) ?_
    change ({} : Gate).remember (ownTree "") "debug.log" = _
    simp only [remember, standpoint_ownTree "" mem, (Faithful.empty _).rootOf_eq, findRoot_ownTree, nothing]
    rfl
  have stale : (Scene.after (ownTree "") events).answer "debug.log" = false := by
    rw [kept, ← Bool.not_eq_true, answer_ownTree mem rfl]
    rintro ⟨-, ignored⟩
    exact Bool.false_ne_true ignored
  have fresh := ask_eq_fresh (ownTree "") (events ++ [.forget]) rfl "debug.log"
  have there : (Scene.after (ownTree "") (events ++ [.forget])).workspace = ownTree "*.log\n" := rfl
  rw [there] at fresh
  refine ⟨stale, rfl, fresh, ?_⟩
  rw [answer_ownTree mem (((Faithful.empty _).rootOf_eq "/w").trans (findRoot_ownTree _)),
    (Faithful.empty _).patternsOf_eq]
  exact ⟨by decide, ignores_collect_ownTree mem⟩

/-- A path outside of any repository is not left out. Any other path lies in the working tree that is
found for it, and it is left out if names lead to it from there of which the first is the repository's own
directory or which the patterns of the tree leave out, unless the first name begins with two dots. -/
theorem answer_iff_left_out (workspace : Workspace) (events : List Event) (now : current true events = true)
    (rooted : Path.isAbsolute (Scene.after workspace events).workspace.files.workingDir = true)
    (path : String) :
    let scene := Scene.after workspace events
    let files := scene.workspace.files
    let full := files.absolute path
    let dir := if files.isDir full then full else Path.dir full
    (findRoot scene.workspace dir = none → scene.answer path = false) ∧
      ∀ root, findRoot scene.workspace dir = some root →
        ∃ names, Path.components full = Path.components root ++ names ∧
          (scene.answer path = true ↔ ∃ first rest, names = first :: rest ∧
            Text.startsWith first ".." = false ∧
            (first = ".git" ∨
              IgnorePattern.ignores (IgnorePattern.collect files root) names (files.isDir full) = true)) := by
  intro scene files full dir
  have faithful : scene.gate.Faithful scene.workspace := faithful_after workspace now
  obtain ⟨parts, spells⟩ := files.spells_absolute rooted path
  have answer : scene.answer path = ((findRoot scene.workspace dir).map fun root =>
      leavesOut root (IgnorePattern.collect files root) full (files.isDir full)).getD false := by
    rw [Scene.answer, ask, ignores]
    dsimp only [standpoint]
    rw [faithful.rootOf_eq]
    cases found : findRoot scene.workspace dir with
    | none => rfl
    | some root => exact congrArg (leavesOut root · full (files.isDir full)) (faithful.patternsOf_eq root)
  constructor
  · intro outside
    rw [answer, outside]
    rfl
  · intro root found
    have inner : ∃ inner, inner <+: parts ∧ Path.Spells dir inner := by
      dsimp only [dir]
      split
      · exact ⟨parts, List.prefix_refl _, spells⟩
      · exact ⟨parts.dropLast, parts.dropLast_prefix, spells.dir⟩
    obtain ⟨inner, before, spells'⟩ := inner
    obtain ⟨front, before', around⟩ := spells_of_findRoot spells' found
    obtain ⟨names, rfl⟩ := before'.trans before
    refine ⟨names, ?_, ?_⟩
    · rw [spells.components_eq, around.components_eq]
    · rw [answer, found]
      exact leavesOut_iff around spells _ _

/-- A file in a working tree is left out by its ignore file. -/
theorem answer_iff_left_out_by_pattern :
    let events : List Event := [.ask "debug.log", .change (ownTree "*.log\n"), .forget]
    let scene := Scene.after (ownTree "") events
    current true events = true ∧ Path.isAbsolute scene.workspace.files.workingDir = true ∧
      findRoot scene.workspace "/w" = some "/w" ∧ scene.answer "debug.log" = true := by
  intro events scene
  have mem : "debug.log" ∈ ["..debug.log", "debug.log"] := by decide
  have there : scene.workspace = ownTree "*.log\n" := rfl
  have known : Path.components ("/w/" ++ "debug.log") = Path.components "/w" ++ ["debug.log"] := by decide +kernel
  obtain ⟨full, file, dir⟩ := absolute_ownTree "*.log\n" mem
  have left := answer_iff_left_out (ownTree "") events rfl (by decide) "debug.log"
  dsimp only at left
  rw [there, full, file, if_neg Bool.false_ne_true, dir, known] at left
  obtain ⟨names, lead, left⟩ := left.2 "/w" (findRoot_ownTree _)
  obtain rfl := List.append_cancel_left lead
  refine ⟨rfl, by decide, there ▸ findRoot_ownTree _, ?_⟩
  exact left.mpr ⟨"debug.log", [], rfl, by decide, .inr (ignores_collect_ownTree mem)⟩

/-- A name that begins with two dots is taken to lead out of the working tree. So its file is not left
out, though the patterns say so. -/
theorem answer_behind_two_dots :
    let scene : Scene := ⟨ownTree "*.log\n", {}⟩
    let files := scene.workspace.files
    let full := files.absolute "..debug.log"
    findRoot scene.workspace (Path.dir full) = some "/w" ∧ files.isDir full = false ∧
      Path.components full = Path.components "/w" ++ ["..debug.log"] ∧
      IgnorePattern.ignores (IgnorePattern.collect files "/w") ["..debug.log"] false = true ∧
      scene.answer "..debug.log" = false := by
  intro scene files full
  have mem : "..debug.log" ∈ ["..debug.log", "debug.log"] := by decide
  obtain ⟨path, file, dir⟩ := absolute_ownTree "*.log\n" mem
  have path : full = "/w/" ++ "..debug.log" := path
  rw [path, dir]
  refine ⟨findRoot_ownTree _, file, by decide +kernel, ignores_collect_ownTree mem, ?_⟩
  rw [← Bool.not_eq_true, answer_ownTree mem (((Faithful.empty _).rootOf_eq "/w").trans (findRoot_ownTree _))]
  rintro ⟨inside, -⟩
  exact absurd inside (by decide)

end Gate

end Sift
