import Sift.FileSystem

/-!
# Changes of the tree

A change is made at once. It is noticed in the directories that it takes place in, and by directories
that are moved or removed themselves. Directories are known by their trails, so that a notice stays
right after the directory has moved.
-/

namespace Sift.FileSystem

/-- A change of the tree. -/
inductive Change where
  /-- A file is put in place, over an old one if there is one. -/
  | put (path : String) (content : Bytes)
  /-- A directory is put in place with all below it. -/
  | putDir (path : String) (entry : Entry)
  | makeDir (path : String)
  | remove (path : String)
  | rename (path target : String)
  /-- Only the permissions of a file change. -/
  | chmod (path : String)

/-- What can happen to an entry of a directory. -/
inductive Incident where
  | created
  | written
  | removed
  | renamed
  | chmod
  deriving DecidableEq, Repr

/-- What is noticed of a change. -/
inductive Notice where
  /-- Something happened to an entry of a directory. -/
  | entry (dir : List String) (name : String) (incident : Incident)
  /-- A directory is gone. -/
  | gone (dir : List String)
  /-- Something has moved to another trail. -/
  | moved (source target : List String)

/-- A notice about what is at a trail, in the directory around it. -/
def noticeAt (incident : Incident) : List String → List Notice
  | [] => []
  | name :: dir => [.entry dir name incident]

mutual

/-- The notices when all below a trail is removed, innermost first. -/
def removal (trail : List String) : Entry → List Notice
  | .dir children => removals trail children ++ [.gone trail]
  | _ => []

/-- The notices when the entries of a directory are removed one after the other. -/
def removals (trail : List String) : List (String × Entry) → List Notice
  | [] => []
  | (name, entry) :: rest =>
    removal (name :: trail) entry ++ .entry trail name .removed :: removals trail rest

end

/-- Makes a directory and those around it, as far as that is possible. -/
def makeDirNoticed (fs : FileSystem) (path : String) : FileSystem × List Notice :=
  match fs.makeDirAll path with
  | .error _ => (fs, [])
  | .ok made =>
    let missing := (beginnings [] path.toList).filter fun part => !fs.isDir part
    (made, missing.flatMap fun part =>
      match made.locate true part with
      | .ok place => noticeAt .created place.trail
      | .error _ => [])

/-- Puts an entry in place. The directories around it are made if need be. -/
def putNoticed (fs : FileSystem) (path : String) (entry : Entry) : FileSystem × List Notice :=
  let (fs, made) := fs.makeDirNoticed (Path.dir path)
  match fs.locate false path with
  | .error _ => (fs, made)
  | .ok place => (fs.put place.trail entry, made ++ noticeAt .created place.trail)

namespace Change

/-- Makes a change, and what is noticed of it. -/
def apply (fs : FileSystem) : Change → FileSystem × List Notice
  | put path content => fs.putNoticed path (.file content)
  | putDir path entry => fs.putNoticed path entry
  | makeDir path => fs.makeDirNoticed path
  | remove path =>
    match fs.locate false path with
    | .ok ⟨trail, some entry⟩ =>
      (fs.erase trail, removal trail entry ++ noticeAt .removed trail)
    | _ => (fs, [])
  | rename path target =>
    match fs.locate false path, fs.locate false target with
    | .ok ⟨trail, some _⟩, .ok ⟨goal, _⟩ =>
      (fs.rename path target,
        .moved trail goal :: noticeAt .renamed trail ++ noticeAt .created goal)
    | _, _ => (fs, [])
  | chmod path =>
    match fs.locate true path with
    | .ok ⟨trail, some _⟩ => (fs, noticeAt .chmod trail)
    | _ => (fs, [])

end Change

end Sift.FileSystem
