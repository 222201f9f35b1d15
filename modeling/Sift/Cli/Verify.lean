import Sift.Cli.World
import Sift.Columns

/-!
# Checking rules from the command line

Rules are loaded from files and directories, and every definition that cannot be used is reported.
-/

namespace Sift.Cli.Verify

/-- What is wrong with the arguments. -/
inductive Fault where
  | nothing
  | emptyPath
  deriving DecidableEq, Repr

/-- A fault in words. -/
def Fault.message : Fault → String
  | nothing => "nothing to verify: specify rule paths or drop the 'no-default-rules' flag"
  | emptyPath => "rule paths cannot be empty"

/-- Checks the arguments. -/
def check (arguments : Arguments) : Except Fault Unit :=
  if arguments.switch "no-default-rules" && arguments.words.isEmpty then .error .nothing
  else if arguments.words.contains "" then .error .emptyPath
  else .ok ()

/-- Loads rules from a file or a directory. -/
def loadPath (fs : FileSystem) (set : RuleSet) (path : String) : RuleSet × List LoadError :=
  let unreadable (error : FileError) := (set, [LoadError.unreadable path (.file error)])
  let loaded (result : RuleSet × Option LoadFailure) := (result.1, LoadFailure.errorsOf result.2)
  match fs.stat path with
  | .error error => unreadable error
  | .ok (.dir _) => loaded (set.addDirectory fs path (Path.clean path))
  | .ok _ =>
    match fs.readFile path with
    | .error error => unreadable error
    | .ok content => loaded (set.add content (Path.clean path))

/-- Loads rules from all paths, one after the other. -/
def loadPaths (fs : FileSystem) (set : RuleSet) : List String → RuleSet × List LoadError
  | [] => (set, [])
  | path :: rest =>
    let (set, here) := loadPath fs set path
    let (set, later) := loadPaths fs set rest
    (set, here ++ later)

/-- Loads the bundled rules, unless they are left out, and those of the paths. -/
def load (fs : FileSystem) (config : Config) (arguments : Arguments) : RuleSet × List LoadError :=
  let empty : RuleSet := { recursive := config.recursive || arguments.switch "recursive" }
  let (set, fault) :=
    if arguments.switch "no-default-rules" then (empty, none) else Bundled.load empty
  let (set, errors) := loadPaths fs set arguments.words
  (set, LoadFailure.errorsOf fault ++ errors)

/-- A rule as a line of cells. -/
def ruleLine (rule : Rule) : String :=
  let languages := if rule.appliesTo.isEmpty then "*" else ",".intercalate rule.appliesTo
  "\t".intercalate [rule.id, rule.severity.text, languages, rule.name, rule.source] ++ "\n"

/-- A table of rules. -/
def ruleTable (rules : List Rule) : String :=
  Columns.layout ("ID\tSEVERITY\tLANGUAGES\tNAME\tSOURCE\n" ++ String.join (rules.map ruleLine))

/-- Runs the command. -/
def run (world : World) (config : Config) (arguments : Arguments) : Result :=
  match check arguments with
  | .error fault => world.failed fault.message
  | .ok _ =>
    let (set, errors) := load world.files config arguments
    let count := toString errors.length
    let table := if arguments.switch "list" then ruleTable set.rules else ""
    let summary := toString set.rules.length ++ " rule(s) loaded from " ++
      toString set.sourceNames.length ++ " source(s), " ++ count ++ " error(s)\n"
    let output := table ++ String.join (errors.map fun error => "error: " ++ error.message ++ "\n") ++
      summary
    if errors.isEmpty then world.printed output
    else { world.failed (count ++ " rule definition error(s)") with output }

end Sift.Cli.Verify
