import Sift.Text.Blank

/-!
# Slash-separated paths

Paths are strings; all functions here are about their spelling and never look at files.
-/

namespace Sift.Path

/-- Whether a path begins at the root. -/
def isAbsolute (path : String) : Bool := path.toList.head? == some '/'

/-- The components of a path, blank ones and single dots left out. -/
def components (path : String) : List String :=
  (Text.splitAt '/' path).filter fun part => part ≠ "" && part ≠ "."

/-- Resolves double dots; `seen` holds the components so far, reversed. Above the root there is
nothing, above a relative path there is its parent. -/
def resolveDots (rooted : Bool) (seen : List String) : List String → List String
  | [] => seen.reverse
  | part :: rest =>
    if part = ".." then
      match seen with
      | [] => resolveDots rooted (if rooted then [] else [".."]) rest
      | last :: before =>
        if last = ".." then resolveDots rooted (".." :: seen) rest
        else resolveDots rooted before rest
    else resolveDots rooted (part :: seen) rest

/-- The components of a path with double dots resolved. -/
def cleanComponents (path : String) : List String :=
  resolveDots (isAbsolute path) [] (components path)

/-- A path from its components. -/
def ofComponents (rooted : Bool) (parts : List String) : String :=
  let joined := "/".intercalate parts
  if rooted then "/" ++ joined else if joined = "" then "." else joined

/-- The shortest spelling of a path. -/
def clean (path : String) : String := ofComponents (isAbsolute path) (cleanComponents path)

/-- Joins the elements that are not empty. -/
def join (elements : List String) : String :=
  let used := elements.filter (· ≠ "")
  if used.isEmpty then "" else clean ("/".intercalate used)

/-- The characters after the last slash. -/
def afterLastSlash (cs : List Char) : List Char := (cs.reverse.takeWhile (· ≠ '/')).reverse

/-- The last element of a path. -/
def base (path : String) : String :=
  if path = "" then "."
  else
    match (path.toList.reverse.dropWhile (· = '/')).reverse with
    | [] => "/"
    | trimmed => String.ofList (afterLastSlash trimmed)

/-- All but the last element of a path. -/
def dir (path : String) : String :=
  clean (String.ofList (path.toList.reverse.dropWhile (· ≠ '/')).reverse)

/-- The extension of the last element, with its dot. -/
def extension (path : String) : String :=
  let last := afterLastSlash path.toList
  let tail := last.reverse.takeWhile (· ≠ '.')
  if tail.length = last.length then "" else String.ofList ('.' :: tail.reverse)

/-- Drops the components that two paths begin with alike. -/
def dropCommon : List String → List String → List String × List String
  | a :: as, b :: bs => if a = b then dropCommon as bs else (a :: as, b :: bs)
  | as, bs => (as, bs)

/-- The path that leads from `base` to `target`, if their spellings tell. -/
def relative? (base target : String) : Option String :=
  if isAbsolute base != isAbsolute target then none
  else
    let (up, down) := dropCommon (cleanComponents base) (cleanComponents target)
    if up.contains ".." then none
    else some (ofComponents false (up.map (fun _ => "..") ++ down))

end Sift.Path
