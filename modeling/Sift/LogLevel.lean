import Sift.Pipeline
import Sift.Unicode.Capital

/-!
# Log levels
-/

namespace Sift

/-- How much is logged. -/
inductive LogLevel where
  | trace
  | debug
  | info
  | warn
  | error
  deriving DecidableEq, Repr

namespace LogLevel

/-- The name of a level. -/
def name : LogLevel → String
  | trace => "trace"
  | debug => "debug"
  | info => "info"
  | warn => "warn"
  | error => "error"

/-- The level with a name in capitals. -/
def ofCapitals? : String → Option LogLevel
  | "TRACE" => some trace
  | "DEBUG" => some debug
  | "INFO" => some info
  | "WARN" => some warn
  | "ERROR" => some error
  | _ => none

/-- The level with a name. -/
def ofName? (name : String) : Option LogLevel := ofCapitals? (Unicode.asciiCapitals name)

/-- The level in force: the environment decides before the configuration, and a name that no level
has means `info`. -/
def choose (env : Environment) (configured : String) : LogLevel :=
  let given := env.get "SKIM_LOG_LEVEL"
  let name := if given = "" then configured else given
  if name = "" then info else (ofName? name).getD info

end LogLevel

end Sift
