import Sift.Config
import Sift.FileSystem
import Sift.Yaml.Decode

/-!
# Configuration files

A configuration is read from a file in YAML. Without a file in the usual place, it is empty.
-/

namespace Sift

open Yaml (Node)

/-- Reads a field of the logger's section. -/
def LoggerConfig.set (name : String) (node : Node) (config : LoggerConfig) : Option LoggerConfig :=
  match name with
  | "level" => node.string?.map fun level => { config with level }
  | "disable_time" => node.switch?.map fun disableTime => { config with disableTime }
  | "json_format" => node.switch?.map fun jsonFormat => { config with jsonFormat }
  | "include_location" => node.switch?.map fun includeLocation => { config with includeLocation }
  | _ => some config

/-- Reads a field of the rules' section. -/
def RulesConfig.set (name : String) (node : Node) (config : RulesConfig) : Option RulesConfig :=
  match name with
  | "use_default_rules" => node.switch?.map fun useDefaultRules => { config with useDefaultRules }
  | "use_custom_rules" => node.switch?.map fun useCustomRules => { config with useCustomRules }
  | "custom_rules_path" => node.string?.map fun customRulesPath => { config with customRulesPath }
  | "recursive" => node.switch?.map fun recursive => { config with recursive }
  | "use_git_ignore" => node.switch?.map fun useIgnoreFiles => { config with useIgnoreFiles }
  | "enable_important_rules" => node.switch?.map fun important => { config with important }
  | "enable_moderate_rules" => node.switch?.map fun moderate => { config with moderate }
  | "enable_best_practice_rules" => node.switch?.map fun bestPractice => { config with bestPractice }
  | "enable_manual_review_rules" => node.switch?.map fun manualReview => { config with manualReview }
  | "match_timeout" => node.duration?.map fun matchTimeout => { config with matchTimeout }
  | _ => some config

/-- Reads a field of the analysis' section. -/
def AnalysisConfig.set (name : String) (node : Node) (config : AnalysisConfig) :
    Option AnalysisConfig :=
  match name with
  | "threads" => node.int?.map fun threads => { config with threads }
  | "max_file_size" => node.int?.map fun maxFileSize => { config with maxFileSize }
  | "exclude" => node.strings?.map fun exclude => { config with exclude }
  | "format" => node.string?.map fun format => { config with format }
  | _ => some config

namespace Config

/-- Reads a section. -/
def set (name : String) (node : Node) (config : Config) : Option Config :=
  match name with
  | "logger" =>
    (node.fields? LoggerConfig.set {} config.logger).map fun logger => { config with logger }
  | "rules" => (node.fields? RulesConfig.set {} config.rules).map fun rules => { config with rules }
  | "analyse" =>
    (node.fields? AnalysisConfig.set {} config.analysis).map fun analysis => { config with analysis }
  | _ => some config

/-- Why a file cannot be read as a configuration. -/
inductive FileFault where
  | stat (error : FileError)
  | isDirectory (path : String)
  /-- There is nothing in the file. -/
  | empty (path : String)
  | malformed (path : String)
  deriving DecidableEq, Repr

/-- A fault in words. -/
def FileFault.message : FileFault → String
  | stat error => error.message
  | isDirectory path => "'" ++ path ++ "' is a directory, not a file"
  | empty path => "failed to decode " ++ Text.quote path ++ ": EOF"
  | malformed path => "failed to decode " ++ Text.quote path ++ ": <yaml>"

/-- Why no configuration was loaded. -/
structure LoadFault where
  path : String
  fault : FileFault
  deriving DecidableEq, Repr

/-- A fault in words. -/
def LoadFault.message (fault : LoadFault) : String :=
  "unable to load config " ++ Text.quote fault.path ++ ": " ++ fault.fault.message

/-- Reads a configuration from what a file holds. -/
def ofText (path : String) (content : Bytes) : Except FileFault Config :=
  if !Utf8.isValid content then .error (.malformed path)
  else
    match Node.ofText (Utf8.toString content).toList with
    | .nothing => .error (.empty path)
    | .malformed => .error (.malformed path)
    | .document node =>
      match node.fields? set {} {} with
      | some config => .ok config
      | none => .error (.malformed path)

/-- Reads a configuration from a file. -/
def ofFile (fs : FileSystem) (path : String) : Except FileFault Config :=
  match fs.stat path with
  | .error error => .error (.stat error)
  | .ok entry =>
    if entry.isDir then .error (.isDirectory path)
    else
      match fs.readFile path with
      | .error error => .error (.stat error)
      | .ok content => ofText path content

/-- Where the configuration is looked for if nothing is said. -/
def defaultPath : String := "config.yml"

/-- Loads a configuration. A missing file in the usual place is an empty one. -/
def load (fs : FileSystem) (given : String) : Except LoadFault Config :=
  let path := if given = "" then defaultPath else given
  match ofFile fs path with
  | .ok config => .ok config
  | .error (.stat error) =>
    if error.errno = .noEntry && path = defaultPath then .ok {} else .error ⟨path, .stat error⟩
  | .error fault => .error ⟨path, fault⟩

end Config

end Sift
