import Sift.FileSystem
import Sift.Glob.Component

/-!
# Ignore files

A line of an ignore file is a pattern for paths below the directory of the file. A pattern that is
a single name looks for it anywhere below; one with a slash is taken from that directory on. The
last pattern that fits a path decides about it.
-/

namespace Sift

/-- A line of an ignore file. -/
structure IgnorePattern where
  /-- The directory of the file, by its names from the root of the repository. -/
  home : List String
  /-- Whether the pattern takes paths back in. -/
  includes : Bool
  /-- Whether the pattern is for directories only. -/
  dirsOnly : Bool
  /-- The names of the pattern. -/
  parts : List String
  deriving DecidableEq, Repr

namespace IgnorePattern

/-- Reads a line. -/
def ofLine (home : List String) (line : String) : IgnorePattern :=
  let includes := Text.startsWith line "!"
  let text := Text.dropLead line "!"
  let text := if Text.endsWith text "\\ " then text else Text.trimTail ' ' text
  { home, includes, dirsOnly := Text.endsWith text "/"
    parts := Text.splitAt '/' (Text.dropTail text "/") }

/-- Whether the first of the names that fits a pattern makes the path fit. -/
def fitsName (dirsOnly isDir : Bool) (pattern : String) : List String → Bool
  | [] => false
  | name :: rest =>
    if Glob.matchesName pattern name then !(dirsOnly && !isDir && rest.isEmpty)
    else fitsName dirsOnly isDir pattern rest

/-- The names after the first one that fits. -/
def afterFit? (pattern : String) : List String → Option (List String)
  | [] => none
  | name :: rest => if Glob.matchesName pattern name then some rest else afterFit? pattern rest

/-- Whether the parts of a pattern fit the names of a path from the left. `skips` says that names
may be passed over before the next part fits, and `fits` whether the parts so far do fit. -/
def fitsParts (dirsOnly isDir : Bool) (skips fits : Bool) : List String → List String → Bool
  | [], names => fits && !(dirsOnly && !isDir && names.isEmpty)
  | part :: parts, names =>
    if part = "" then fitsParts dirsOnly isDir false fits parts names
    else if part = "**" then fitsParts dirsOnly isDir true fits parts names
    else if Text.contains part "**" then false
    else
      match names with
      | [] => false
      | name :: rest =>
        if skips then
          match afterFit? part (name :: rest) with
          | some rest => fitsParts dirsOnly isDir false true parts rest
          | none => fitsParts dirsOnly isDir false false parts []
        else if Glob.matchesName part name then fitsParts dirsOnly isDir false true parts rest
        else false

/-- Whether a pattern fits a path, given by its names. -/
def fits (pattern : IgnorePattern) (path : List String) (isDir : Bool) : Bool :=
  pattern.home.length < path.length && pattern.home.isPrefixOf path &&
    let below := path.drop pattern.home.length
    match pattern.parts with
    | [single] => fitsName pattern.dirsOnly isDir single below
    | parts => fitsParts pattern.dirsOnly isDir false false parts below

/-- Whether a path is ignored: the last pattern that fits says so. -/
def ignores (patterns : List IgnorePattern) (path : List String) (isDir : Bool) : Bool :=
  match patterns.reverse.find? (·.fits path isDir) with
  | some pattern => !pattern.includes
  | none => false

/-- The lines of a file, without carriage returns at their ends. -/
def fileLines (content : Bytes) : List String :=
  (Text.splitAt '\n' (Utf8.toString content)).map (Text.dropTail · "\r")

/-- The patterns of a file; comments and blank lines are none. -/
def ofFile (fs : FileSystem) (home : List String) (path : String) : List IgnorePattern :=
  match fs.readFile path with
  | .error _ => []
  | .ok content =>
    ((fileLines content).filter fun line =>
      !Text.startsWith line "#" && Text.trim line ≠ "").map (ofLine home)

/-- The patterns of a directory and of the directories below it, outer ones first. -/
def collectBelow (fs : FileSystem) (root : String) : Nat → List String → List IgnorePattern
  | 0, _ => []
  | fuel + 1, home =>
    let dir := Path.join (root :: home)
    let inner := match fs.readDir dir with
      | .error _ => []
      | .ok entries => entries.flatMap fun (name, entry) =>
        if entry.isDir && name ≠ ".git" then collectBelow fs root fuel (home ++ [name]) else []
    ofFile fs home (Path.join [dir, ".git/info/exclude"]) ++
      ofFile fs home (Path.join [dir, ".gitignore"]) ++ inner

/-- All patterns of a repository, later ones with more force. -/
def collect (fs : FileSystem) (root : String) : List IgnorePattern :=
  collectBelow fs root FileSystem.depthLimit []

end IgnorePattern

end Sift
