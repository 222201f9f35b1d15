import Sift.Path
import Sift.Text.Utf8

/-!
# Files and directories

A file system is a tree of files, directories and symbolic links. Looking a path up follows the
links on its way; an operation that changes something gives back the changed tree.
-/

namespace Sift

/-- A file, a symbolic link, a device or a directory. A directory lists its entries by ascending
name. A device is taken to be empty. -/
inductive Entry where
  | file (content : Bytes)
  | link (target : String)
  | device
  | dir (entries : List (String × Entry))

namespace Entry

/-- Whether this is a directory. -/
def isDir : Entry → Bool
  | dir _ => true
  | _ => false

/-- Whether this is a regular file. -/
def isFile : Entry → Bool
  | file _ => true
  | _ => false

/-- The entries of a directory. -/
def children : Entry → List (String × Entry)
  | dir entries => entries
  | _ => []

/-- Puts an entry where its name belongs, in place of one with the same name. -/
def insertChild (name : String) (entry : Entry) : List (String × Entry) → List (String × Entry)
  | [] => [(name, entry)]
  | (other, old) :: rest =>
    if name = other then (name, entry) :: rest
    else if name < other then (name, entry) :: (other, old) :: rest
    else (other, old) :: insertChild name entry rest

/-- Removes the entry with a name. -/
def eraseChild (name : String) (entries : List (String × Entry)) : List (String × Entry) :=
  entries.filter (·.1 ≠ name)

/-- The entry below this one at the given names; no link is followed. -/
def below? (entry : Entry) : List String → Option Entry
  | [] => some entry
  | name :: rest =>
    match entry.children.lookup name with
    | some child => child.below? rest
    | none => none

/-- Changes the entries of the directory at the given names, which is made if it is not there. -/
def updateDir (change : List (String × Entry) → List (String × Entry)) (entry : Entry) :
    List String → Entry
  | [] => dir (change entry.children)
  | name :: rest =>
    let child := (entry.children.lookup name).getD (dir [])
    dir (insertChild name (child.updateDir change rest) entry.children)

end Entry

/-- Why the system refuses an operation. -/
inductive Errno where
  | noEntry
  | notDirectory
  | isDirectory
  | tooManyLinks
  | nameTooLong
  | invalid
  | exists
  | denied
  deriving DecidableEq, Repr

/-- The system's words for a refusal. -/
def Errno.text : Errno → String
  | noEntry => "no such file or directory"
  | notDirectory => "not a directory"
  | isDirectory => "is a directory"
  | tooManyLinks => "too many levels of symbolic links"
  | nameTooLong => "file name too long"
  | invalid => "invalid argument"
  | .exists => "file exists"
  | denied => "permission denied"

/-- A refused operation on a path. -/
structure FileError where
  operation : String
  path : String
  errno : Errno
  deriving DecidableEq, Repr

/-- The operation, the path and the system's words. -/
def FileError.message (error : FileError) : String :=
  error.operation ++ " " ++ error.path ++ ": " ++ error.errno.text

/-- What the system refuses whatever is there, by operation and path, and why: what permissions forbid,
for example. -/
abbrev Refusals := String → String → Option Errno

namespace Refusals

/-- Nothing is refused. -/
def nothing : Refusals := fun _ _ => none

/-- Attempts an operation on a path; `outcome` comes of it unless it is refused. -/
def attempt {α : Type} (refuses : Refusals) (operation path : String) (outcome : Except FileError α) :
    Except FileError α :=
  match refuses operation path with
  | some errno => .error ⟨operation, path, errno⟩
  | none => outcome

end Refusals

/-- A tree and the directory that relative paths begin at. -/
structure FileSystem where
  root : Entry
  workingDir : String

namespace FileSystem

/-- How many links a single look-up follows. -/
def linkLimit : Nat := 40

/-- The longest name of a file, in bytes. -/
def nameLimit : Nat := 255

/-- How many names a path may have: a path has at most 4096 bytes, and every name takes two. -/
def depthLimit : Nat := 2048

/-- The names of a path. A slash at the end asks for a directory, as a dot does. -/
def names (path : String) : List String :=
  let parts := (Text.splitAt '/' path).filter (· ≠ "")
  if Text.endsWith path "/" then parts ++ ["."] else parts

/-- Where a path leads: the names from the root, innermost first, and what is there. Nothing is
there if only the last name is missing. -/
structure Place where
  trail : List String
  entry? : Option Entry

/-- Follows names from a directory. `links` more links may be followed; a link in the last place is
followed only if `followLast` says so. -/
def follow (root : Entry) (followLast : Bool) (links : Nat) (trail : List String) (current : Entry) :
    List String → Except Errno Place
  | [] => .ok ⟨trail, some current⟩
  | name :: rest =>
    match current with
    | .dir entries =>
      if name = "." then follow root followLast links trail current rest
      else if name = ".." then
        follow root followLast links trail.tail ((root.below? trail.tail.reverse).getD root) rest
      else if nameLimit < name.utf8ByteSize then .error .nameTooLong
      else
        match entries.lookup name with
        | none => if rest.isEmpty then .ok ⟨name :: trail, none⟩ else .error .noEntry
        | some (.link target) =>
          if rest.isEmpty && !followLast then .ok ⟨name :: trail, some (.link target)⟩
          else
            match links with
            | 0 => .error .tooManyLinks
            | links + 1 =>
              if Path.isAbsolute target then
                follow root followLast links [] root (names target ++ rest)
              else follow root followLast links trail current (names target ++ rest)
        | some entry => follow root followLast links (name :: trail) entry rest
    | _ => .error .notDirectory
termination_by todo => (links, todo.length)

/-- A path from the root. -/
def absolute (fs : FileSystem) (path : String) : String :=
  if Path.isAbsolute path then Path.clean path else Path.join [fs.workingDir, path]

/-- Looks a path up. -/
def locate (fs : FileSystem) (followLast : Bool) (path : String) : Except Errno Place :=
  if path = "" then .error .noEntry
  else if path.toList.contains (Char.ofNat 0) then .error .invalid
  else
    let start := if Path.isAbsolute path then "" else fs.workingDir
    follow fs.root followLast linkLimit [] fs.root (names start ++ names path)

/-- What a path leads to. -/
def entryAt (fs : FileSystem) (followLast : Bool) (operation path : String) :
    Except FileError Entry :=
  match fs.locate followLast path with
  | .error errno => .error ⟨operation, path, errno⟩
  | .ok ⟨_, none⟩ => .error ⟨operation, path, .noEntry⟩
  | .ok ⟨_, some entry⟩ => .ok entry

/-- What a path leads to, links followed. -/
def stat (fs : FileSystem) (path : String) : Except FileError Entry := fs.entryAt true "stat" path

/-- What a path leads to, a link in the last place not followed. -/
def lstat (fs : FileSystem) (path : String) : Except FileError Entry := fs.entryAt false "lstat" path

/-- Whether a path leads to a directory. -/
def isDir (fs : FileSystem) (path : String) : Bool :=
  match fs.stat path with
  | .ok entry => entry.isDir
  | .error _ => false

/-- The content of a file. -/
def readFile (fs : FileSystem) (path : String) : Except FileError Bytes :=
  match fs.entryAt true "open" path with
  | .error error => .error error
  | .ok (.file content) => .ok content
  | .ok (.dir _) => .error ⟨"read", path, .isDirectory⟩
  | .ok _ => .ok []

/-- The entries of a directory by ascending name. -/
def readDir (fs : FileSystem) (path : String) : Except FileError (List (String × Entry)) :=
  match fs.entryAt true "open" path with
  | .error error => .error error
  | .ok (.dir entries) => .ok entries
  | .ok _ => .error ⟨"readdirent", path, .notDirectory⟩

/-- Puts an entry at a trail. -/
def put (fs : FileSystem) (trail : List String) (entry : Entry) : FileSystem :=
  match trail with
  | [] => { fs with root := entry }
  | name :: parents =>
    { fs with root := fs.root.updateDir (Entry.insertChild name entry) parents.reverse }

/-- Takes the entry at a trail away. -/
def erase (fs : FileSystem) (trail : List String) : FileSystem :=
  match trail with
  | [] => { fs with root := .dir [] }
  | name :: parents =>
    { fs with root := fs.root.updateDir (Entry.eraseChild name) parents.reverse }

/-- Writes a file, over an old one if there is one. -/
def writeFile (fs : FileSystem) (path : String) (content : Bytes) : Except FileError FileSystem :=
  match fs.locate true path with
  | .error errno => .error ⟨"open", path, errno⟩
  | .ok ⟨_, some (.dir _)⟩ => .error ⟨"open", path, .isDirectory⟩
  | .ok ⟨trail, _⟩ =>
    if Text.endsWith path "/" then .error ⟨"open", path, .isDirectory⟩
    else .ok (fs.put trail (.file content))

/-- The beginnings of a path, each with its slashes, up to the whole; `read` is reversed. -/
def beginnings (read : List Char) : List Char → List String
  | [] => if read.isEmpty then [] else [String.ofList read.reverse]
  | c :: rest =>
    let goesOn := c = '/' && rest.any (· ≠ '/') && rest.head? ≠ some '/'
    if goesOn then String.ofList (c :: read).reverse :: beginnings (c :: read) rest
    else beginnings (c :: read) rest

/-- Makes the directories that are not there, from the outermost inwards. -/
def makeDirs (fs : FileSystem) : List String → Except FileError FileSystem
  | [] => .ok fs
  | path :: rest =>
    match fs.locate true path with
    | .ok ⟨_, some (.dir _)⟩ => fs.makeDirs rest
    | .ok ⟨_, some _⟩ => .error ⟨"mkdir", path, .notDirectory⟩
    | _ =>
      let bare := Text.trimTail '/' path
      match fs.locate false bare with
      | .error errno => .error ⟨"mkdir", path, errno⟩
      | .ok ⟨_, some _⟩ => .error ⟨"mkdir", path, .exists⟩
      | .ok ⟨trail, none⟩ => (fs.put trail (.dir [])).makeDirs rest

/-- Makes a directory and those around it. -/
def makeDirAll (fs : FileSystem) (path : String) : Except FileError FileSystem :=
  if path = "" then .error ⟨"mkdir", path, .noEntry⟩ else fs.makeDirs (beginnings [] path.toList)

/-- Removes a path with all below it, if it is there. -/
def remove (fs : FileSystem) (path : String) : FileSystem :=
  match fs.locate false path with
  | .ok ⟨trail, some _⟩ => fs.erase trail
  | _ => fs

/-- Moves what is at a path to another one, over what is there. -/
def rename (fs : FileSystem) (path target : String) : FileSystem :=
  match fs.locate false path, fs.locate false target with
  | .ok ⟨trail, some entry⟩, .ok ⟨goal, _⟩ => (fs.erase trail).put goal entry
  | _, _ => fs

end FileSystem

end Sift
