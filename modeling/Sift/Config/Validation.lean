import Sift.Config
import Sift.FileSystem.Output
import Sift.Glob
import Sift.LogLevel

/-!
# Checking a configuration

The sections are checked one after the other, and the first fault counts. The environment may name
the directory of custom rules, which is then used in any case.
-/

namespace Sift.Config

/-- What is wrong with the rules' section. -/
inductive RulesFault where
  | cannotExpand (path : String) (fault : FileSystem.PathFault)
  | missingPath
  | negativeTimeout (timeout : Duration)
  | longTimeout (timeout : Duration)
  deriving DecidableEq, Repr

/-- What is wrong with the analysis' section. -/
inductive AnalysisFault where
  | threads (given : Int)
  | maxFileSize (given : Int)
  | format (given : String)
  | exclude (pattern : String)
  deriving DecidableEq, Repr

/-- What is wrong with a configuration. -/
inductive Fault where
  | absent
  | logLevel (level : String)
  | rules (fault : RulesFault)
  | analysis (fault : AnalysisFault)
  deriving DecidableEq, Repr

/-- The longest time that a pattern may be given. -/
def longestTimeout : Duration := .ofSeconds 60

/-- The most files that may be analysed at once. -/
def mostThreads : Int := 256

/-- The names of formats. -/
def formats : List String := ["text", "json", "sarif"]

/-- A fault in words. -/
def RulesFault.message : RulesFault → String
  | cannotExpand path fault =>
    "failed to expand custom rules path " ++ Text.quote path ++ ": " ++ fault.message
  | missingPath => "custom_rules_path must be set when use_custom_rules is enabled"
  | negativeTimeout timeout =>
    "invalid duration for \"match_timeout\": " ++ timeout.write ++ " cannot be negative"
  | longTimeout timeout =>
    "\"match_timeout\" duration is too long: " ++ timeout.write ++ " exceeds maximum of " ++
      longestTimeout.write

/-- A fault in words. -/
def AnalysisFault.message : AnalysisFault → String
  | threads given => "threads must be between 0 and " ++ toString mostThreads ++ ": " ++ toString given
  | maxFileSize given => "max_file_size cannot be negative: " ++ toString given
  | format given =>
    "unsupported format " ++ Text.quote given ++ ", expected one of: " ++ ", ".intercalate formats
  | exclude pattern => "invalid exclude pattern " ++ Text.quote pattern

/-- A fault in words. -/
def Fault.message : Fault → String
  | absent => "YAML global config: configuration object is nil"
  | logLevel level =>
    "YAML global config: logger directive is invalid: unknown log level " ++ Text.quote level
  | rules fault => "YAML global config: rules directive is invalid: " ++ fault.message
  | analysis fault => "YAML global config: analyse directive is invalid: " ++ fault.message

/-- The message for a section that is not there. -/
def absentSection (name : String) : String := name ++ " configuration is nil"

/-- Checks the name of a log level; none is fine. -/
def checkLogLevel (level : String) : Except Fault Unit :=
  if level = "" || (LogLevel.ofName? level).isSome then .ok () else .error (.logLevel level)

/-- Checks the name of a format; none is fine, and case does not matter. -/
def checkFormat (name : String) : Except AnalysisFault Unit :=
  if name = "" || formats.any (Unicode.equalFold name ·) then .ok () else .error (.format name)

/-- Checks the time that a pattern is given. -/
def checkTimeout (timeout : Duration) : Except RulesFault Unit :=
  if timeout.nanoseconds < 0 then .error (.negativeTimeout timeout)
  else if longestTimeout.nanoseconds < timeout.nanoseconds then .error (.longTimeout timeout)
  else .ok ()

/-- The variable that names the directory of custom rules. -/
def rulesPathVariable : String := "SKIM_CUSTOM_RULES_PATH"

/-- The rules' section with what the environment says. -/
def overrideRules (env : Environment) (rules : RulesConfig) : RulesConfig :=
  let given := env.get rulesPathVariable
  if given = "" then rules
  else { rules with customRulesPath := given, useCustomRules := some true }

/-- Checks the rules' section and completes it: what it is then, and what is wrong with it. -/
def checkRules (env : Environment) (given : RulesConfig) : RulesConfig × Except RulesFault Unit :=
  let rules := overrideRules env given
  match FileSystem.expandHome (env.get "HOME") rules.customRulesPath with
  | .error fault => (rules, .error (.cannotExpand rules.customRulesPath fault))
  | .ok path =>
    let rules := { rules with customRulesPath := path }
    if rules.useCustomRules.getD false && path = "" then (rules, .error .missingPath)
    else (rules, checkTimeout rules.matchTimeout)

/-- Checks the analysis' section. -/
def checkAnalysis (analysis : AnalysisConfig) : Except AnalysisFault Unit :=
  if analysis.threads < 0 || mostThreads < analysis.threads then .error (.threads analysis.threads)
  else if analysis.maxFileSize < 0 then .error (.maxFileSize analysis.maxFileSize)
  else
    match checkFormat analysis.format with
    | .error fault => .error fault
    | .ok () =>
      match analysis.exclude.find? (!Glob.isValid ·) with
      | some pattern => .error (.exclude pattern)
      | none => .ok ()

/-- Checks a configuration and completes it: what it is then, and what is wrong with it. -/
def validate (env : Environment) (config : Config) : Config × Except Fault Unit :=
  match checkLogLevel config.logger.level with
  | .error fault => (config, .error fault)
  | .ok () =>
    let (rules, checked) := checkRules env config.rules
    let config := { config with rules }
    match checked with
    | .error fault => (config, .error (.rules fault))
    | .ok () => (config, (checkAnalysis config.analysis).mapError .analysis)

end Sift.Config
