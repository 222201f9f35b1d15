import Sift.Bundled
import Sift.Cli.World
import Sift.Json.Printer

/-!
# Telling versions
-/

namespace Sift.Cli.Version

/-- What is known about the program. -/
structure Versions where
  version : String := "unknown"
  /-- The version of the tools that it was built with. -/
  toolchain : String := "unknown"
  buildTime : String := "unknown"
  /-- How many rules are bundled. -/
  bundledRules : Nat

/-- The versions of this program. -/
def current : Versions :=
  match Bundled.load {} with
  | (set, none) => { bundledRules := set.rules.length }
  | (_, some _) => { bundledRules := 0 }

/-- The versions as JSON. -/
def Versions.toJson (versions : Versions) : Json :=
  .object [("version", .string versions.version), ("golang_version", .string versions.toolchain),
    ("build_time", .string versions.buildTime), ("default_rules", .nat versions.bundledRules)]

/-- The versions as text. -/
def Versions.toText (versions : Versions) : String :=
  String.join ["Core Version: v", versions.version, "\nDefault Rules: ",
    toString versions.bundledRules, "\nGo Version: ", versions.toolchain, "\nBuild Time: ",
    versions.buildTime, "\n"]

/-- Runs the command. -/
def run (world : World) (arguments : Arguments) : Result :=
  world.printed (if arguments.switch "json" then current.toJson.indented ++ "\n" else current.toText)

end Sift.Cli.Version
