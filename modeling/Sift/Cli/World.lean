import Sift.Cli.Arguments
import Sift.Config.Validation
import Sift.Outcome
import Sift.Repository

/-!
# What commands work on

A command reads files, repositories and the environment. It leaves files behind, and output, and
perhaps a failure.
-/

namespace Sift.Cli

/-- What a command works on. -/
structure World where
  workspace : Workspace
  env : Environment
  /-- The name of the run. -/
  runId : String

/-- What a command leaves behind. -/
structure Result where
  files : FileSystem
  output : String := ""
  failure : Option Failure := none

namespace World

/-- The files. -/
def files (world : World) : FileSystem := world.workspace.files

/-- A result with output only. -/
def printed (world : World) (output : String) : Result := { files := world.files, output }

/-- A result of a failed command. -/
def failed (world : World) (message : String) : Result :=
  { files := world.files, failure := some (.command Failure.codeError (some (.plain message))) }

end World

/-! ## Checks that commands share -/

/-- What can be wrong with the arguments of a command. -/
inductive CheckFault where
  | noTarget
  | missingTarget (path : String)
  | threads
  | exclude (pattern : String)
  | missingRules (path : String)
  | rulesNotDirectory (path : String)
  deriving DecidableEq, Repr

/-- A fault in words. -/
def CheckFault.message : CheckFault → String
  | noTarget => "at least one target path must be specified"
  | missingTarget path => "the target path does not exist: " ++ path
  | threads => "the 'threads' flag must be a positive integer"
  | exclude pattern => "invalid 'exclude' pattern: " ++ Text.quote pattern
  | missingRules path => "the rules path does not exist: " ++ path
  | rulesNotDirectory path => "the rules path is not a directory: " ++ path

/-- Whether there is nothing at a path; a path through a file is not looked into. -/
def isMissing (fs : FileSystem) (path : String) : Bool :=
  match fs.stat path with
  | .ok _ => false
  | .error error => error.errno = .noEntry

/-- Checks the paths to analyse. -/
def checkTargets (fs : FileSystem) (paths : List String) : Except CheckFault Unit :=
  if paths.isEmpty then .error .noTarget
  else
    match paths.find? (isMissing fs) with
    | some path => .error (.missingTarget path)
    | none => .ok ()

/-- Checks the number of files that are analysed at once. -/
def checkThreads (arguments : Arguments) : Except CheckFault Unit :=
  if arguments.number "threads" < 0 then .error .threads else .ok ()

/-- Checks the patterns of paths to skip. -/
def checkExclude (arguments : Arguments) : Except CheckFault Unit :=
  match (arguments.values "exclude").find? (!Glob.isValid ·) with
  | some pattern => .error (.exclude pattern)
  | none => .ok ()

/-- Checks the directory of custom rules. -/
def checkRulesPath (fs : FileSystem) (path : String) : Except CheckFault Unit :=
  match fs.stat path with
  | .error _ => .error (.missingRules path)
  | .ok entry => if entry.isDir then .ok () else .error (.rulesNotDirectory path)

end Sift.Cli
