import Sift.Cli.Arguments

/-!
# Commands

The commands of the program with their flags, and the help on them.
-/

namespace Sift.Cli

/-- What a command does. -/
inductive Task where
  /-- Nothing by itself: the program without a command. -/
  | none
  | analyse
  | help
  | verify
  | version
  | watch
  deriving DecidableEq, Repr

/-- A command. -/
structure Command where
  task : Task
  name : String
  /-- How the command is called. -/
  use : String
  short : String
  /-- What the command does at length; the short form serves if this is empty. -/
  long : String := ""
  examples : String := ""
  flags : List Flag

/-- The name of the program. -/
def programName : String := "skim"

/-- The flag that all commands have. -/
def configFlag : Flag :=
  { name := "config", kind := .text, usage := "config file (default is config.yml)" }

/-- The flag that asks for help. -/
def helpFlag (usage : String) : Flag :=
  { name := "help", letter := some 'h', kind := .switch, usage }

/-! ## The commands -/

/-- The program without a command. -/
def rootCommand : Command where
  task := .none
  name := programName
  use := "skim [command]"
  short := "Skim is a rule-driven source code scanner."
  long := "Skim scans source text for security issues and bad practices using JSON rules
made of string, substring, word and regular expression patterns.
A default rule set is bundled with the binary. Custom rule directories can be
added on top of it and watched for changes."
  flags := [configFlag, helpFlag "help for skim"]

/-- The flag for how many files are analysed at once. -/
def threadsFlag : Flag :=
  { name := "threads", letter := some 'j', kind := .number
    usage := "Number of files analysed concurrently. Defaults to the configured value." }

/-- The flag for patterns of paths to skip. -/
def excludeFlag : Flag :=
  { name := "exclude", kind := .texts, usage := "Glob pattern of paths to skip. Can be repeated." }

/-- The flag that leaves the bundled rules out. -/
def noDefaultRulesFlag : Flag :=
  { name := "no-default-rules", kind := .switch, usage := "Do not load the bundled rules." }

/-- The flag that takes ignored files in. -/
def noIgnoreFilesFlag : Flag :=
  { name := "no-git-ignore", kind := .switch, usage := "Analyse files ignored by git." }

/-- Analyses files. -/
def analyseCommand : Command where
  task := .analyse
  name := "analyse"
  use := "analyse [--format/-f FORMAT] [--output/-o PATH] [-j THREADS] [--rules PATH] " ++
    "[--base REV --head REV] PATH..."
  short := "Analyse files, directories or a revision range against the rule set"
  long := "Analyse files, directories or a revision range against the rule set.

Directories are walked recursively. Files ignored by git, matched by an exclude
pattern, larger than the configured limit or detected as binary are skipped.
With --base and --head only the lines added between the two revisions are analysed."
  examples := "  # Analysing a project with the bundled rules
  skim analyse /path/to/my_project

  # Analysing several paths and writing a SARIF report into a directory
  skim analyse --format sarif --output /path/to/reports src/ scripts/deploy.sh

  # Adding custom rules and enabling best-practice findings
  skim analyse --rules /path/to/rules --severity best-practice /path/to/my_project

  # Analysing only the lines added between two revisions
  skim analyse --base origin/main --head HEAD /path/to/repository

  # Analysing the changes of the pull or merge request a CI job builds
  skim analyse --ci --format sarif --output results/ .

  # Failing a CI job when anything is found
  skim analyse --fail-on-issues --exclude \"**/vendor/**\" --exclude \"*.min.js\" .

  # Reporting only issues that are not in an earlier JSON report
  skim analyse --baseline skim-report.json --fail-on-issues ."
  flags := [
    { name := "format", letter := some 'f', kind := .text
      usage := "Report format: text, json or sarif. Defaults to the configured format." },
    { name := "output", letter := some 'o', kind := .text
      usage := "Path to the output file or directory. The report goes to stdout when omitted." },
    threadsFlag, excludeFlag,
    { name := "base", kind := .text
      usage := "Base revision of the range to analyse. Requires --head." },
    { name := "head", kind := .text
      usage := "Head revision of the range to analyse. Requires --base." },
    { name := "fail-on-issues", kind := .switch
      usage := "Exit with code 2 when any issue is found." },
    { name := "rules", kind := .text, usage := "Directory with custom rule files." },
    { name := "severity", kind := .list
      usage := "Severity levels to report, e.g. critical,important. " ++
        "Overrides the configured levels." },
    noDefaultRulesFlag, noIgnoreFilesFlag,
    { name := "ci", kind := .switch
      usage := "Take --base and --head from the pull or merge request the CI job builds." },
    { name := "baseline", kind := .text
      usage := "JSON report of an earlier run. Issues found in it are not reported again." },
    helpFlag "Show help for the analyse command."]

/-- Tells about commands. -/
def helpCommand : Command where
  task := .help
  name := "help"
  use := "help [command] [flags]"
  short := "Help about any command"
  long := "Help provides help for any command in the application.
Simply type skim help [path to command] for full details."
  flags := [helpFlag "help for help"]

/-- Checks rules. -/
def verifyCommand : Command where
  task := .verify
  name := "verify"
  use := "verify [--list] [--no-default-rules] [--recursive] [PATH...]"
  short := "Load rule files and report every definition that cannot be used"
  examples := "  # Checking the bundled rules
  skim verify

  # Checking a directory of custom rules together with the bundled ones
  skim verify /path/to/rules

  # Checking single rule files and listing every loaded rule
  skim verify --list --no-default-rules rules/secrets.json rules/web.json"
  flags := [
    { name := "list", kind := .switch, usage := "List every loaded rule." },
    noDefaultRulesFlag,
    { name := "recursive", letter := some 'r', kind := .switch
      usage := "Descend into subdirectories of rule directories." },
    helpFlag "Show help for the verify command."]

/-- Tells versions. -/
def versionCommand : Command where
  task := .version
  name := "version"
  use := "version [--json]"
  short := "Print the version number of the application and the bundled rule corpus"
  flags := [
    { name := "json", kind := .switch, usage := "Print version information as JSON." },
    helpFlag "help for version"]

/-- The quiet period after a change if nothing is said. -/
def usualQuiet : Duration := .ofMilliseconds 250

/-- Analyses files again and again. -/
def watchCommand : Command where
  task := .watch
  name := "watch"
  use := "watch --rules PATH [--recursive] [--debounce DURATION] PATH..."
  short := "Analyse paths again every time a custom rule file changes"
  long := "Analyse paths again every time a custom rule file changes.

The custom rules directory is watched for created, written, removed and renamed
rule files. Bursts of changes are collapsed into one reload. The command runs
until it is interrupted."
  examples := "  # Re-running the analysis of a project whenever a custom rule changes
  skim watch --rules /path/to/rules /path/to/my_project

  # Developing rules in nested folders without the bundled rules
  skim watch --rules ./rules --recursive --no-default-rules testdata/"
  flags := [
    { name := "rules", kind := .text
      usage := "Directory with custom rule files to watch. " ++
        "Defaults to the configured custom_rules_path." },
    threadsFlag, excludeFlag,
    { name := "debounce", kind := .duration, usual := usualQuiet.write
      usage := "Quiet period after the last change before rules are reloaded." },
    { name := "recursive", letter := some 'r', kind := .switch
      usage := "Watch and load subdirectories of the rules directory." },
    noDefaultRulesFlag, noIgnoreFilesFlag,
    helpFlag "Show help for the watch command."]

/-- The commands by name. -/
def commands : List Command :=
  [analyseCommand, helpCommand, verifyCommand, versionCommand, watchCommand]

/-- The flags of a command with those of the whole program. -/
def Command.allFlags (command : Command) : List Flag :=
  if command.task = .none then command.flags else configFlag :: command.flags

/-! ## Help -/

/-- A part of the help under a title. -/
def titled (title : String) (lines : List String) : List String := ["", title ++ ":"] ++ lines

/-- How a command is used. -/
def Command.usage (command : Command) : String :=
  let parts :=
    if command.task = .none then
      ["Usage:", "  " ++ command.use] ++
        titled "Available Commands" (commands.map fun other =>
          "  " ++ other.name ++ String.ofList (List.replicate (12 - other.name.length) ' ') ++
            other.short) ++
        titled "Flags" (flagLines command.flags) ++
        ["", "Use \"skim [command] --help\" for more information about a command."]
    else
      ["Usage:", "  " ++ programName ++ " " ++ command.use] ++
        (if command.examples = "" then [] else titled "Examples" [command.examples]) ++
        titled "Flags" (flagLines command.flags) ++ titled "Global Flags" (flagLines [configFlag])
  "\n".intercalate parts ++ "\n"

/-- The help on a command. -/
def Command.help (command : Command) : String :=
  (if command.long = "" then command.short else command.long) ++ "\n\n" ++ command.usage

/-! ## Finding a command -/

/-- The words that may name a command: those that are neither flags of the program nor their values.
A word that looks like a flag with a value takes the next word with it, unless that is the last. -/
def nameWords : List String → List String
  | [] => []
  | word :: rest =>
    let chars := word.toList
    let takesValue := !chars.contains '=' &&
      (Text.startsWith word "--" || (Text.startsWith word "-" && word.utf8ByteSize = 2))
    if word = "--" then []
    else if takesValue then
      match rest with
      | _ :: next :: later => nameWords (next :: later)
      | _ => []
    else if word ≠ "" && !Text.startsWith word "-" then word :: nameWords rest
    else nameWords rest

/-- The words without the first that is a name. -/
def dropFirst (name : String) : List String → List String
  | [] => []
  | word :: rest => if word = name then rest else word :: dropFirst name rest

/-- The command that words ask for and the words that are left for it. There is none if a word in its
place is no name. -/
def findCommand (words : List String) : Except String (Command × List String) :=
  match (nameWords words).head? with
  | none => .ok (rootCommand, words)
  | some name =>
    match commands.find? (·.name = name) with
    | some command => .ok (command, dropFirst name words)
    | none => .error name

end Sift.Cli
