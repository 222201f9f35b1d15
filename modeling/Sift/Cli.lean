import Sift.Cli.Command
import Sift.Cli.Verify
import Sift.Cli.Version
import Sift.Cli.Watch
import Sift.Config.Load

/-!
# The command line

The words on the command line name a command. Help is given before anything else is looked at; then
the configuration is loaded and checked, and the command runs.
-/

namespace Sift.Cli

/-- What a run of the program leaves behind. -/
structure Ending where
  files : FileSystem
  code : Int := Failure.codeOk
  output : String := ""
  errors : String := ""

/-- What a file holds after a run. -/
def Ending.content? (ending : Ending) (path : String) : Option Bytes :=
  (ending.files.readFile path).toOption

/-- A run of the program: it has ended, or goes on after its first output. -/
inductive Run where
  | ended (ending : Ending)
  | watching (output : String) (run : Watching)

/-- The end of a command. A failure is reported, unless it is only that issues were found. -/
def Result.ending (result : Result) : Ending :=
  let code := exitCode result.failure
  let errors :=
    match result.failure with
    | some failure =>
      if code = Failure.codeIssuesFound then ""
      else "Error executing command: " ++ failure.message ++ "\n"
    | none => ""
  { files := result.files, code, output := result.output, errors }

/-- The end of a run that failed before a command began. -/
def World.stopped (world : World) (errors : String) : Ending :=
  { files := world.files, code := Failure.codeError, errors }

/-- Loads and checks the configuration. -/
def configure (world : World) (arguments : Arguments) : Except Ending Config :=
  match Config.load world.files (arguments.text "config") with
  | .error fault =>
    .error (world.stopped ("initializing config file function is crashed - " ++ fault.message ++ " \n"))
  | .ok loaded =>
    match loaded.validate world.env with
    | (_, .error fault) => .error (world.stopped (fault.message ++ "\n"))
    | (config, .ok _) => .ok config

/-- The message for a word that is no command. -/
def unknownCommand (name : String) : String :=
  "unknown command " ++ Text.quote name ++ " for " ++ Text.quote programName

/-- Tells about the command that words name. -/
def helpOn (world : World) (words : List String) : Ending :=
  match findCommand words with
  | .ok (command, _) => (world.printed command.help).ending
  | .error _ =>
    { files := world.files
      errors := "Unknown help topic [" ++ " ".intercalate (words.map Text.quote) ++ "]\n" ++
        rootCommand.usage }

/-- Runs a command with a configuration. -/
def perform (world : World) (command : Command) (config : Config) (arguments : Arguments) : Run :=
  let bare := arguments.words.isEmpty && arguments.given.isEmpty
  let finish (result : Result) : Run := .ended result.ending
  match command.task with
  | .none => finish (world.printed command.help)
  | .help => .ended (helpOn world arguments.words)
  | .version => finish (Version.run world arguments)
  | .verify => finish (Verify.run world config arguments)
  | .analyse =>
    finish (if bare then world.printed command.help else Analyse.run world config arguments)
  | .watch =>
    if bare then finish (world.printed command.help)
    else
      match Watching.start world config arguments with
      | .error fault => finish (world.failed fault.message)
      | .ok (output, run) => .watching output run

/-- Runs the program with the words on the command line. -/
def run (world : World) (words : List String) : Run :=
  match findCommand words with
  | .error name => .ended (world.failed (unknownCommand name)).ending
  | .ok (command, words) =>
    match readArguments command.allFlags words with
    | .error fault => .ended (world.failed fault.message).ending
    | .ok arguments =>
      if arguments.switch "help" || command.task = .none then
        .ended (world.printed command.help).ending
      else
        match configure world arguments with
        | .error ending => .ended ending
        | .ok config => perform world command config arguments

/-- Runs the program while files change, until it is interrupted: what it prints each time it has
analysed them, and the end. -/
def runThrough (world : World) (words : List String) (changes : List FileSystem.Change) :
    List String × Ending :=
  match run world words with
  | .ended ending => ([], ending)
  | .watching output watching =>
    (output :: watching.followAll changes, { files := watching.workspace.files })

end Sift.Cli
