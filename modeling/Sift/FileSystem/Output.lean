import Sift.FileSystem
import Sift.Text.Quoted

/-!
# Paths that users give

A path may begin at the user's home directory. A path for output may name a file, or a directory to
put one into.
-/

namespace Sift.FileSystem

/-- Why a path that a user gave cannot be used. -/
inductive PathFault where
  | noHome
  /-- The path of an output whose home directory is not known. -/
  | outputNoHome
  | outputStat (path : String) (error : FileError)
  | stat (error : FileError)
  | isDirectory (path : String)
  | notRegular (path : String)
  | makeFolder (path : String) (error : FileError)
  | checkFolder (path : String) (error : FileError)
  | openFile (error : FileError)
  | readFile (path : String) (error : FileError)
  deriving DecidableEq, Repr

namespace PathFault

/-- A fault in words. -/
def message : PathFault → String
  | noHome => "$HOME is not defined"
  | outputNoHome => "failed to unwrap path \"\": $HOME is not defined"
  | outputStat path error => "failed to unwrap path " ++ Text.quote path ++ ": " ++ error.message
  | stat error => "path stat error: " ++ error.message
  | isDirectory path => "path " ++ Text.quote path ++ " is a directory, not a file"
  | notRegular path => "path " ++ Text.quote path ++ " is not a regular file"
  | makeFolder path error => "unable to create folder " ++ Text.quote path ++ ": " ++ error.message
  | checkFolder path error => "unable to check folder " ++ Text.quote path ++ ": " ++ error.message
  | openFile error => error.message
  | readFile path error => "failed to read " ++ Text.quote path ++ ": " ++ error.message

/-- The refusal behind a fault. -/
def error? : PathFault → Option FileError
  | outputStat _ error | stat error | makeFolder _ error | checkFolder _ error | openFile error
  | readFile _ error => some error
  | _ => none

end PathFault

/-- A path with the home directory in place of a tilde. -/
def expandHome (home path : String) : Except PathFault String :=
  if Text.startsWith path "~/" then
    if home = "" then .error .noHome else .ok (Path.join [home, Text.dropLead path "~/"])
  else .ok path

/-- Checks that a path leads to a regular file. -/
def checkFile (fs : FileSystem) (path : String) : Except PathFault Unit :=
  match fs.stat path with
  | .error error => .error (.stat error)
  | .ok (.dir _) => .error (.isDirectory path)
  | .ok (.file _) => .ok ()
  | .ok _ => .error (.notRegular path)

/-- Makes a directory unless something is there. -/
def ensureFolder (fs : FileSystem) (path : String) : Except PathFault FileSystem :=
  match fs.stat path with
  | .ok _ => .ok fs
  | .error error =>
    if error.errno = .noEntry then
      match fs.makeDirAll path with
      | .ok fs => .ok fs
      | .error error => .error (.makeFolder path error)
    else .error (.checkFolder path error)

/-- A file for output and the directory it is put into. -/
structure Destination where
  file : String
  folder : String
  deriving DecidableEq, Repr

/-- Where output goes. A directory, or something missing whose name has no extension, gets a file
with the given name. -/
def destination (fs : FileSystem) (home path name : String) : Except PathFault Destination :=
  match expandHome home path with
  | .error _ => .error .outputNoHome
  | .ok path =>
    let inside : Destination := ⟨Path.join [path, name], path⟩
    let itself : Destination := ⟨path, Path.dir path⟩
    match fs.stat path with
    | .ok (.dir _) => .ok inside
    | .ok _ => .ok itself
    | .error error =>
      if error.errno ≠ .noEntry then .error (.outputStat path error)
      else if Path.extension path = "" then .ok inside
      else .ok itself

/-- How many bytes are looked at to tell text from other content. -/
def sniffLength : Nat := 8000

/-- Whether content is not text: it holds a zero byte near its beginning. -/
def looksBinary (content : Bytes) : Bool := (content.take sniffLength).contains 0

/-- Whether the content of a file is not text. -/
def isBinary (fs : FileSystem) (path : String) : Except PathFault Bool :=
  match fs.readFile path with
  | .ok content => .ok (looksBinary content)
  | .error error =>
    if error.operation = "open" then .error (.openFile error) else .error (.readFile path error)

end Sift.FileSystem
