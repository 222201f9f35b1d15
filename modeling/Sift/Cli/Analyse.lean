import Sift.Analyzer.Session
import Sift.Baseline
import Sift.Cli.World
import Sift.Report

/-!
# Analysing files from the command line

The arguments are checked first. Then the rules are loaded, the files or the lines added between two
revisions are analysed, known issues are left out, and a report is written.
-/

namespace Sift.Cli.Analyse

/-- What can go wrong. -/
inductive Fault where
  | check (fault : CheckFault)
  | format (fault : Config.AnalysisFault)
  | pipelineAndRange
  | pipelineAndSeveral
  | halfRange
  | rangeAndSeveral
  | severity (name : String)
  | missingBaseline (path : String)
  | baselineIsDirectory (path : String)
  | pipeline (fault : Pipeline.Fault)
  | noRules
  | range (fault : Analyzer.DiffFault)
  | baseline (fault : Baseline.Fault)
  | outputPath (fault : FileSystem.PathFault)
  | outputFolder (fault : FileSystem.PathFault)
  | outputFile (path : String) (error : FileError)
  | unknownFormat (name : String)

/-- A fault in words. -/
def Fault.message : Fault → String
  | check fault => fault.message
  | format fault => "invalid 'format' flag: " ++ fault.message
  | pipelineAndRange => "the 'ci' flag cannot be used with 'base' and 'head'"
  | pipelineAndSeveral => "only one repository path can be analysed with 'ci'"
  | halfRange => "the 'base' and 'head' flags must be used together"
  | rangeAndSeveral => "only one repository path can be analysed with 'base' and 'head'"
  | severity name => "invalid 'severity' flag: " ++ (RuleFault.unknownSeverity name).message
  | missingBaseline path => "the baseline file does not exist: " ++ path
  | baselineIsDirectory path => "the baseline path is a directory: " ++ path
  | pipeline fault => fault.message
  | noRules => "no rules are loaded"
  | range fault => fault.message
  | baseline fault => fault.message
  | outputPath fault => "failed to determine output path: " ++ fault.message
  | outputFolder fault => fault.message
  | outputFile path error => "failed to create report " ++ Text.quote path ++ ": " ++ error.message
  | unknownFormat name => Report.Format.unknownMessage name

/-- Checks a file with known issues. -/
def checkBaseline (fs : FileSystem) (path : String) : Except Fault Unit :=
  if path = "" then .ok ()
  else
    match fs.stat path with
    | .error _ => .error (.missingBaseline path)
    | .ok entry => if entry.isDir then .error (.baselineIsDirectory path) else .ok ()

/-- Checks the arguments. -/
def check (fs : FileSystem) (arguments : Arguments) : Except Fault Unit := do
  let base := arguments.text "base"
  let head := arguments.text "head"
  let several := 1 < arguments.words.length
  (checkTargets fs arguments.words).mapError .check
  (Config.checkFormat (arguments.text "format")).mapError .format
  (checkThreads arguments).mapError .check
  if arguments.switch "ci" && (base ≠ "" || head ≠ "") then .error .pipelineAndRange
  if arguments.switch "ci" && several then .error .pipelineAndSeveral
  if (base = "") ≠ (head = "") then .error .halfRange
  if base ≠ "" && several then .error .rangeAndSeveral
  if let some name := (arguments.list "severity").find? fun name => (Severity.parse? name).isNone then
    .error (.severity name)
  (checkExclude arguments).mapError .check
  if arguments.text "rules" ≠ "" then
    (checkRulesPath fs (arguments.text "rules")).mapError .check
  checkBaseline fs (arguments.text "baseline")

/-- The settings of the configuration with what the flags say. -/
def settings (config : Config) (arguments : Arguments) : Settings :=
  let base := config.settings
  let base := if arguments.switch "no-default-rules" then { base with useBundledRules := false } else base
  let path := arguments.text "rules"
  if path = "" then base else { base with useCustomRules := true, customRulesPath := path }

/-- The severities that the flags name. -/
def severities (arguments : Arguments) : Severity :=
  ((arguments.list "severity").filterMap Severity.parse?).foldl Severity.union .none

/-- A processor with the rules that settings ask for. -/
def loadedProcessor (fs : FileSystem) (recursive : Bool) (settings : Settings) : Processor :=
  (({ rules := none } : Processor).reload fs (some Bundled.load) recursive settings).1

/-- How many rules a processor has. -/
def ruleCount (processor : Processor) : Nat := (processor.rules.map (·.rules.length)).getD 0

/-- An analyzer of files. -/
def analyzer (config : Config) (arguments : Arguments) (processor : Processor) : Analyzer :=
  { processor
    options :=
      { maxFileSize := config.maxFileSize
        exclude := config.analysis.exclude ++ arguments.values "exclude"
        useIgnoreFiles := config.useIgnoreFiles && !arguments.switch "no-git-ignore" } }

/-- The range of revisions: what the flags say, or the pipeline, which is given too. -/
def revisions (env : Environment) (arguments : Arguments) :
    Except Fault (Option Pipeline.Job × String × String) :=
  if arguments.switch "ci" then do
    let job ← (Pipeline.job env).mapError .pipeline
    let (base, head) ← job.range.mapError .pipeline
    .ok (some job, base, head)
  else .ok (none, arguments.text "base", arguments.text "head")

/-- The analysis of files, or of what was added between two revisions. -/
def analysis (world : World) (analyzer : Analyzer) (words : List String) (base head : String) :
    Except Fault Analysis :=
  let session : Session := { analyzer }
  if base ≠ "" && head ≠ "" then
    ((session.between world.workspace (words.head?.getD "") base head).mapError .range).map (·.1)
  else .ok (session.paths world.workspace words).1

/-- What is known about the repository of the first path. -/
def repository (world : World) (words : List String) : Option RepositoryInfo :=
  let target := words.head?.getD ""
  let dir :=
    match world.files.stat target with
    | .ok entry => if entry.isDir then target else Path.dir target
    | .error _ => target
  match world.workspace.describe dir with
  | (info, none) => some info
  | (_, some _) => none

/-- The name of report files without extension. -/
def reportName : String := "skim-report"

/-- Makes a file for a report: its path and the files with it. -/
def openReport (world : World) (path format : String) : Except Fault (String × FileSystem) := do
  let name := reportName ++ "." ++ Report.Format.extension format
  let place ← (world.files.destination (world.env.get "HOME") path name).mapError .outputPath
  let files ← (world.files.ensureFolder place.folder).mapError .outputFolder
  let files ← (files.writeFile place.file []).mapError (.outputFile place.file)
  .ok (place.file, files)

/-- Writes a report to a file or as output. -/
def writeReport (world : World) (path format : String) (locator : Locator) (analysis : Analysis) :
    Result :=
  let render (format : Report.Format) : String :=
    Report.render { format, locator, runId := world.runId } (Report.recordsOf analysis)
  let unknown := Fault.unknownFormat format
  if path = "" then
    match Report.Format.ofName? format with
    | none => world.failed unknown.message
    | some format => world.printed (render format)
  else
    match openReport world path format with
    | .error fault => world.failed fault.message
    | .ok (file, files) =>
      let result : Result := { files }
      match Report.Format.ofName? format with
      | none => { world.failed unknown.message with files }
      | some format =>
        match files.writeFile file (Utf8.ofString (render format)) with
        | .ok files => { result with files }
        | .error error => { world.failed (Fault.outputFile file error).message with files }

/-- The analysis without known issues. -/
def withoutKnown (fs : FileSystem) (path : String) (locator : Locator) (analysis : Analysis) :
    Except Fault Analysis :=
  if path = "" then .ok analysis
  else
    ((Baseline.load fs path).mapError .baseline).map fun known =>
      (Baseline.filter analysis known locator.uri).1

/-- Analyses and finds what there is to report: the format, the way to show paths, the issues. -/
def findings (world : World) (config : Config) (arguments : Arguments) :
    Except Fault (String × Locator × Analysis) := do
  check world.files arguments
  let (job, base, head) ← revisions world.env arguments
  let processor := loadedProcessor world.files config.recursive (settings config arguments)
  let mask := severities arguments
  let processor := if mask = .none then processor else processor.setSeverity mask
  if ruleCount processor = 0 then .error .noRules
  let found ← analysis world (analyzer config arguments processor) arguments.words base head
  let asked := arguments.text "format"
  let format := Unicode.lowerString (if asked = "" then config.format else asked)
  let known := arguments.text "baseline"
  let info := if format ≠ "text" || known ≠ "" then repository world arguments.words else none
  let info := match job with
    | some job => info.map job.enrich
    | none => info
  let locator := Locator.ofRepository world.files.workingDir info
  let found ← withoutKnown world.files known locator found
  .ok (format, locator, found)

/-- Runs the command. -/
def run (world : World) (config : Config) (arguments : Arguments) : Result :=
  match findings world config arguments with
  | .error fault => world.failed fault.message
  | .ok (format, locator, found) =>
    let result := writeReport world (arguments.text "output") format locator found
    let count := found.issues.length
    if result.failure.isNone && arguments.switch "fail-on-issues" && 0 < count then
      { result with failure := some (.command Failure.codeIssuesFound
          (some (.plain (toString count ++ " issue(s) found")))) }
    else result

end Sift.Cli.Analyse
