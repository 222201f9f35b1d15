import Sift.Duration
import Sift.Processor

/-!
# Configuration

What a configuration file says. Switches may be left open; sizes and texts that are zero or empty
are as good as left out.
-/

namespace Sift

/-- How the program logs. -/
structure LoggerConfig where
  level : String := ""
  disableTime : Option Bool := none
  jsonFormat : Option Bool := none
  includeLocation : Option Bool := none

/-- Which rules are used. -/
structure RulesConfig where
  useDefaultRules : Option Bool := none
  useCustomRules : Option Bool := none
  customRulesPath : String := ""
  recursive : Option Bool := none
  useIgnoreFiles : Option Bool := none
  important : Option Bool := none
  moderate : Option Bool := none
  bestPractice : Option Bool := none
  manualReview : Option Bool := none
  matchTimeout : Duration := ⟨0⟩

/-- How files are analysed. -/
structure AnalysisConfig where
  threads : Int := 0
  maxFileSize : Int := 0
  exclude : List String := []
  format : String := ""

/-- A configuration. -/
structure Config where
  logger : LoggerConfig := {}
  rules : RulesConfig := {}
  analysis : AnalysisConfig := {}

namespace Config

/-- How many files are analysed at once if nothing is said. -/
def defaultThreads : Int := 4

/-- The largest size of a file that is analysed if nothing is said. -/
def defaultMaxFileSize : Int := 1048576

/-- The format of reports if nothing is said. -/
def defaultFormat : String := "text"

/-- How long a pattern may take if nothing is said. -/
def defaultMatchTimeout : Duration := .ofSeconds 2

/-- The settings of the rules; what is left open takes its usual value. -/
def settings (config : Config) : Settings where
  useBundledRules := config.rules.useDefaultRules.getD true
  useCustomRules := config.rules.useCustomRules.getD false
  customRulesPath := config.rules.customRulesPath
  important := config.rules.important.getD true
  moderate := config.rules.moderate.getD true
  bestPractice := config.rules.bestPractice.getD false
  manualReview := config.rules.manualReview.getD false

/-- Whether files that a repository ignores are left out. -/
def useIgnoreFiles (config : Config) : Bool := config.rules.useIgnoreFiles.getD true

/-- Whether rules are also looked for in directories below. -/
def recursive (config : Config) : Bool := config.rules.recursive.getD false

/-- How long a pattern may take. -/
def matchTimeout (config : Config) : Duration :=
  if config.rules.matchTimeout = ⟨0⟩ then defaultMatchTimeout else config.rules.matchTimeout

/-- How many files are analysed at once. -/
def threads (config : Config) : Int :=
  if config.analysis.threads = 0 then defaultThreads else config.analysis.threads

/-- The largest size of a file that is analysed. -/
def maxFileSize (config : Config) : Int :=
  if config.analysis.maxFileSize = 0 then defaultMaxFileSize else config.analysis.maxFileSize

/-- The format of reports. -/
def format (config : Config) : String :=
  if config.analysis.format = "" then defaultFormat else config.analysis.format

/-- The switches of a configuration by section and name. -/
def switches (config : Config) : List (String × Option Bool) := [
  ("Logger.DisableTime", config.logger.disableTime),
  ("Logger.JSONFormat", config.logger.jsonFormat),
  ("Logger.IncludeLocation", config.logger.includeLocation),
  ("Rules.UseDefaultRules", config.rules.useDefaultRules),
  ("Rules.UseCustomRules", config.rules.useCustomRules),
  ("Rules.Recursive", config.rules.recursive),
  ("Rules.UseGitIgnore", config.rules.useIgnoreFiles),
  ("Rules.EnableImportantRules", config.rules.important),
  ("Rules.EnableModerateRules", config.rules.moderate),
  ("Rules.EnableBestPracticeRules", config.rules.bestPractice),
  ("Rules.EnableManualReviewRules", config.rules.manualReview)]

/-- A switch by section and name; `default` if it is left open or there is none of that name. -/
def switch (config : Config) (name : String) (default : Bool) : Bool :=
  ((config.switches.lookup name).getD none).getD default

end Config

end Sift
