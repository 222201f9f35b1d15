import Sift.Report.Lines
import Sift.Report.Document
import Sift.Report.Sarif

/-!
# Reports

A report is written in one of three formats to a destination, which is closed afterwards if it can
be.
-/

namespace Sift.Report

/-- The formats of reports. -/
inductive Format where
  | text
  | json
  | sarif
  deriving DecidableEq, Repr

namespace Format

/-- The format with a name; no name stands for text. -/
def ofName? (name : String) : Option Format :=
  match Unicode.lowerString name with
  | "text" | "" => some text
  | "json" => some json
  | "sarif" => some sarif
  | _ => none

/-- The extension of report files in a format; other names are taken for text. -/
def extension (name : String) : String :=
  match ofName? name with
  | some json => "json"
  | some sarif => "sarif"
  | _ => "txt"

/-- The message for a name that no format has. -/
def unknownMessage (name : String) : String := "unknown output format: " ++ Text.quote name

end Format

/-- What a report is made with. -/
structure Setup where
  format : Format
  tool : Tool := {}
  locator : Locator := {}
  /-- The name of the run. -/
  runId : String := ""

/-- The text of a report. -/
def render (setup : Setup) (records : List Record) : String :=
  match setup.format with
  | .text => String.join (records.map (line setup.locator))
  | .json => (document setup.runId setup.tool setup.locator records).indented ++ "\n"
  | .sarif => (Sarif.document setup.tool setup.locator records).indented

/-- Kinds of destinations. -/
inductive Sink where
  | plain
  | closing
  | failingToWrite
  | failingToClose
  deriving DecidableEq, Repr

/-- Why a report did not reach its destination. -/
inductive WriteFault where
  | write (format : Format)
  | close
  deriving DecidableEq, Repr

/-- A fault in words. -/
def WriteFault.message : WriteFault → String
  | write .text => "failed to flush text output: sink write failed"
  | write .json => "failed to encode JSON report: sink write failed"
  | write .sarif => "failed to write SARIF report: sink write failed"
  | close => "sink close failed"

/-- What became of a report. -/
structure Delivery where
  /-- How many bytes had been passed on when the last record was written. -/
  early : Nat
  fault : Option WriteFault
  /-- How often the destination was closed. -/
  closed : Nat
  output : String

/-- Writes a report to a destination. Only lines are passed on before the end. -/
def deliver (setup : Setup) (records : List Record) (sink : Sink) : Delivery :=
  let early := if setup.format = .text then (bufferAfter (records.map (line setup.locator))).passed
    else 0
  let output := render setup records
  match sink with
  | .plain => ⟨early, none, 0, output⟩
  | .closing => ⟨early, none, 1, output⟩
  | .failingToClose => ⟨early, some .close, 1, output⟩
  | .failingToWrite =>
    -- A report without a single line has nothing to write.
    if output = "" then ⟨0, none, 0, ""⟩ else ⟨0, some (.write setup.format), 0, ""⟩

end Sift.Report
