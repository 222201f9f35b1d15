import Sift.Repository
import Sift.Repository.Ignore

/-!
# The ignore gate

The gate tells which paths the ignore files of their repositories leave out. It remembers the
working tree of every directory it was asked about, and the patterns of every working tree, until
it is told to forget them.
-/

namespace Sift

/-- What the gate remembers. -/
structure Gate where
  /-- Working trees by directory; `none` for a directory outside of any repository. -/
  roots : List (String × Option String) := []
  /-- Patterns by working tree. -/
  patterns : List (String × List IgnorePattern) := []

namespace Gate

/-- The working tree that a directory belongs to, looked up afresh. -/
def findRoot (workspace : Workspace) (dir : String) : Option String :=
  (workspace.rootAt dir).toOption

/-- The working tree that a directory belongs to. -/
def rootOf (gate : Gate) (workspace : Workspace) (dir : String) : Option String :=
  (gate.roots.lookup dir).getD (findRoot workspace dir)

/-- The patterns of a working tree. -/
def patternsOf (gate : Gate) (workspace : Workspace) (root : String) : List IgnorePattern :=
  (gate.patterns.lookup root).getD (IgnorePattern.collect workspace.files root)

/-- A full path, whether it is a directory, and the directory to look from. -/
def standpoint (files : FileSystem) (path : String) : String × Bool × String :=
  let full := files.absolute path
  let isDir := files.isDir full
  (full, isDir, if isDir then full else Path.dir full)

/-- Whether patterns leave a path out. A path whose way from the root begins with two dots is
taken to lie outside; the repository's own directory is always left out. -/
def leavesOut (root : String) (patterns : List IgnorePattern) (full : String) (isDir : Bool) : Bool :=
  match Path.relative? root full with
  | none => false
  | some below =>
    if below = "." || Text.startsWith below ".." then false
    else
      let names := Text.splitAt '/' below
      names.head? = some ".git" || IgnorePattern.ignores patterns names isDir

/-- Whether a path is left out. -/
def ignores (gate : Gate) (workspace : Workspace) (path : String) : Bool :=
  let (full, isDir, dir) := standpoint workspace.files path
  match gate.rootOf workspace dir with
  | none => false
  | some root => leavesOut root (gate.patternsOf workspace root) full isDir

/-- The gate after it was asked about a path. -/
def remember (gate : Gate) (workspace : Workspace) (path : String) : Gate :=
  let (_, _, dir) := standpoint workspace.files path
  let root := gate.rootOf workspace dir
  let gate := if (gate.roots.lookup dir).isSome then gate
    else { gate with roots := (dir, root) :: gate.roots }
  match root with
  | none => gate
  | some root =>
    if (gate.patterns.lookup root).isSome then gate
    else { gate with patterns := (root, IgnorePattern.collect workspace.files root) :: gate.patterns }

/-- Asks about a path. -/
def ask (gate : Gate) (workspace : Workspace) (path : String) : Bool × Gate :=
  (gate.ignores workspace path, gate.remember workspace path)

/-- Forgets everything. -/
def forget (_ : Gate) : Gate := {}

end Gate

end Sift
