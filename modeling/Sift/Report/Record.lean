import Sift.Analysis
import Sift.Report.Locator
import Sift.Baseline.Fingerprint

/-!
# Records of a report

A report is made from records, each an issue and the file it was found in.
-/

namespace Sift.Report

/-- An issue and its file. -/
structure Record where
  path : String
  issue : Issue

/-- The records of a result, in order. -/
def recordsOf (analysis : Analysis) : List Record :=
  analysis.files.flatMap fun file => file.issues.map (⟨file.path, ·⟩)

/-- The name of the tool and its version. -/
structure Tool where
  name : String := "skim"
  version : String := "unknown"
  deriving DecidableEq, Repr

/-- The line on which an issue ends. -/
def endLine (issue : Issue) : Int :=
  (issue.lineNumber + .ofNat (Baseline.newlines issue.text)).toInt

/-- The column behind the end of an issue. -/
def endColumn (issue : Issue) : Nat :=
  let last := (issue.text.toList.reverse.takeWhile (· ≠ '\n')).reverse
  let length := (String.ofList last).utf8ByteSize
  if Baseline.newlines issue.text = 0 then issue.column + length else length + 1

/-- The most severe level of a rule in capitals. -/
def severityLabel (severity : Severity) : String := severity.highest.text.toUpper

end Sift.Report
