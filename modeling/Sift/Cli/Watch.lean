import Sift.Cli.Analyse
import Sift.Cli.Command
import Sift.Watch

/-!
# Analysing again and again

Files are analysed once at the start and again whenever custom rules have changed.
-/

namespace Sift.Cli

namespace Watching

/-- What can go wrong before anything is analysed. -/
inductive Fault where
  | check (fault : CheckFault)
  | noRulesPath
  | negativeQuiet
  | watcher (fault : Watcher.Fault)

/-- A fault in words. -/
def Fault.message : Fault → String
  | check fault => fault.message
  | noRulesPath => "the 'rules' flag or the custom_rules_path setting must be specified"
  | negativeQuiet => "the 'debounce' flag cannot be negative"
  | watcher fault => fault.message

/-- The directory of custom rules. -/
def rulesPath (config : Config) (arguments : Arguments) : String :=
  let given := arguments.text "rules"
  if given = "" then config.rules.customRulesPath else given

/-- Checks the arguments. -/
def check (fs : FileSystem) (config : Config) (arguments : Arguments) : Except Fault Unit := do
  let path := rulesPath config arguments
  (checkTargets fs arguments.words).mapError .check
  if path = "" then .error .noRulesPath
  (checkRulesPath fs path).mapError .check
  (checkThreads arguments).mapError .check
  if ((arguments.duration? "debounce").getD usualQuiet).nanoseconds < 0 then .error .negativeQuiet
  (checkExclude arguments).mapError .check

end Watching

/-- A run that goes on: the rules are watched, and the paths analysed whenever they change. -/
structure Watching where
  workspace : Workspace
  reloader : Reloader
  session : Session
  paths : List String

namespace Watching

/-- Analyses the paths: what is printed, and the run after it. -/
def analyse (run : Watching) : String × Watching :=
  let processor := run.reloader.processor
  let session := { run.session with analyzer := { run.session.analyzer with processor } }
  let (found, session) := session.paths run.workspace run.paths
  let report := Report.render { format := .text } (Report.recordsOf found)
  let summary := "-- " ++ toString found.issues.length ++ " issue(s) in " ++
    toString found.files.length ++ " file(s) with " ++ toString (Analyse.ruleCount processor) ++
    " rule(s)\n"
  (report ++ summary, { run with session })

/-- Begins a run: what is printed, and the run after it. -/
def start (world : World) (config : Config) (arguments : Arguments) :
    Except Fault (String × Watching) := do
  check world.files config arguments
  let settings := { Analyse.settings config arguments with
    useCustomRules := true, customRulesPath := rulesPath config arguments }
  let recursive := config.recursive || arguments.switch "recursive"
  let processor := Analyse.loadedProcessor world.files recursive settings
  let analyzer := Analyse.analyzer config arguments processor
  let reloader ←
    (Reloader.start world.files processor (some Bundled.load) settings recursive).mapError .watcher
  .ok ({ workspace := world.workspace, reloader, session := { analyzer }, paths := arguments.words :
    Watching }).analyse

/-- Follows a change: what is printed, if rules were loaded anew, and the run after it. -/
def follow (run : Watching) (change : FileSystem.Change) : Option String × Watching :=
  let (files, reloaded, reloader) := run.reloader.follow run.workspace.files change
  let run := { run with workspace := { run.workspace with files }, reloader }
  if reloaded then
    let (output, run) := ({ run with session := run.session.forget } : Watching).analyse
    (some output, run)
  else (none, run)

/-- Follows changes: what is printed each time rules are loaded anew. -/
def followAll (run : Watching) : List FileSystem.Change → List String
  | [] => []
  | change :: rest =>
    let (output, run) := run.follow change
    output.toList ++ run.followAll rest

end Watching

end Sift.Cli
