import Sift.FileSystem
import Sift.Repository.Metadata
import Sift.Text.Quoted

/-!
# Repositories

A repository keeps commits, and references that name some of them. It belongs to the directory that
its own directory stands in. A workspace is a file system with the repositories in it.
-/

namespace Sift

/-- A commit: the files it records and the commit before it. -/
structure Commit where
  hash : String
  parent : Option String := none
  files : List (String × Bytes) := []
  deriving DecidableEq, Repr

/-- What is checked out: what a reference names, or a commit by itself. -/
inductive Head where
  | reference (name : String)
  | commit (hash : String)
  deriving DecidableEq, Repr

/-- Commits and references. -/
structure Repository where
  commits : List Commit := []
  /-- Hashes by the full names of references. -/
  references : List (String × String) := []
  head : Head := .reference "refs/heads/master"
  /-- Where the repository was copied from. -/
  origin : Option String := none
  deriving Repr

namespace Repository

/-- The commit with a hash. -/
def commit? (repository : Repository) (hash : String) : Option Commit :=
  repository.commits.find? (·.hash = hash)

/-- The name of the checked-out reference and its hash, if it has one. -/
def headHash? (repository : Repository) : Option (String × String) :=
  match repository.head with
  | .reference name => (repository.references.lookup name).map fun hash => (name, hash)
  | .commit hash => some ("HEAD", hash)

end Repository

/-- A file system with repositories, which are known by their own directories. -/
structure Workspace where
  files : FileSystem
  repositories : List (String × Repository) := []

/-- Why there is no repository to use. -/
inductive RepositoryFault where
  | sourceNotSet
  | notInside (path : String)
  | unreadable (path : String) (error : FileError)
  | noPointer (path : String)
  deriving DecidableEq, Repr

/-- A fault in words. -/
def RepositoryFault.message : RepositoryFault → String
  | sourceNotSet => "source folder is not set"
  | notInside path => "path is not inside a git repository: " ++ path
  | unreadable path error => "failed to open repository " ++ Text.quote path ++ ": " ++ error.message
  | noPointer path =>
    "failed to open repository " ++ Text.quote path ++ ": .git file has no gitdir:  prefix"

/-- A path and the directories around it, innermost first. -/
def Path.ancestors (path : String) : List String :=
  let parts := Path.cleanComponents path
  (List.range (parts.length + 1)).map fun n =>
    Path.ofComponents true (parts.take (parts.length - n))

namespace Workspace

/-- Where a path really is, links resolved. -/
def realPath (files : FileSystem) (path : String) : String :=
  match files.locate true path with
  | .ok place => "/" ++ "/".intercalate place.trail.reverse
  | .error _ => path

/-- The working tree and the repository's directory, found from a path outwards. -/
def search (files : FileSystem) (given : String) :
    List String → Except RepositoryFault (String × String)
  | [] => .error (.notInside given)
  | path :: outer =>
    let entry := files.stat path
    match entry with
    | .error error =>
      if error.errno = .noEntry then search files given outer else .error (.unreadable given error)
    | .ok entry =>
      let dir := if entry.isDir then path else Path.dir path
      match files.stat (Path.join [dir, ".git"]) with
      | .error error =>
        if error.errno = .noEntry then search files given outer else .error (.unreadable given error)
      | .ok (.dir _) => .ok (dir, Path.join [dir, ".git"])
      | .ok (.file content) =>
        let line := Utf8.toString content
        if Text.startsWith line "gitdir: " then
          let target := Text.trim (((Text.splitAt '\n' (Text.dropLead line "gitdir: ")).head?).getD "")
          .ok (dir, if Path.isAbsolute target then Path.clean target else Path.join [path, target])
        else .error (.noPointer given)
      | .ok _ => .error (.noPointer given)

/-- The working tree that a path belongs to, and its repository. -/
def repositoryAt (workspace : Workspace) (path : String) :
    Except RepositoryFault (String × Repository) :=
  if path = "" then .error .sourceNotSet
  else
    match search workspace.files path (Path.ancestors (workspace.files.absolute path)) with
    | .error fault => .error fault
    | .ok (root, dir) =>
      match workspace.repositories.lookup (realPath workspace.files dir) with
      | some repository => .ok (root, repository)
      | none => .error (.notInside path)

/-- The working tree that a path belongs to. -/
def rootAt (workspace : Workspace) (path : String) : Except RepositoryFault String :=
  (workspace.repositoryAt path).map (·.1)

/-- What is known about the repository that a path belongs to. If there is none, the path itself
stands for it. -/
def describe (workspace : Workspace) (path : String) : RepositoryInfo × Option RepositoryFault :=
  if path = "" then ({}, some .sourceNotSet)
  else
    let source := workspace.files.absolute path
    match workspace.repositoryAt source with
    | .error fault => ({ root := source }, some fault)
    | .ok (root, repository) =>
      let head := repository.headHash?
      let below := (Path.relative? root source).getD "."
      ({ root
         subfolder := if below = "." then "" else below
         branch := head.bind fun (name, _) =>
           if Text.startsWith name "refs/heads/" then some (Text.dropLead name "refs/heads/") else none
         commit := head.map (·.2)
         url := repository.origin.map (Text.dropTail · ".git") }, none)

end Workspace

end Sift
