import Sift.Report.Record

/-!
# Reports for reading

One line for each issue.
-/

namespace Sift.Report

/-- The line of a record. -/
def line (locator : Locator) (record : Record) : String :=
  let issue := record.issue
  locator.uri record.path ++ ":" ++ toString issue.line ++ ":" ++ toString issue.column ++ " [" ++
    severityLabel issue.rule.severity ++ "] " ++ issue.rule.id ++ " " ++ issue.rule.name ++ "\n"

/-- How many bytes are held back before they are passed on. -/
def bufferSize : Nat := 4096

/-- A buffer: how many bytes it has passed on, and how many it holds. -/
structure Buffer where
  passed : Nat := 0
  held : Nat := 0
  deriving DecidableEq, Repr

/-- Takes in a line of `length` bytes. A line that does not fit fills the buffer, which is passed on;
a line that does not fit an empty buffer is passed on as it is. -/
def Buffer.take (buffer : Buffer) (length : Nat) : Buffer :=
  let room := bufferSize - buffer.held
  if length ≤ room then { buffer with held := buffer.held + length }
  else if buffer.held = 0 then { buffer with passed := buffer.passed + length }
  else
    let rest := length - room
    let passed := buffer.passed + bufferSize
    if rest ≤ bufferSize then ⟨passed, rest⟩ else ⟨passed + rest, 0⟩

/-- The state of the buffer after some lines. -/
def bufferAfter (lines : List String) : Buffer :=
  lines.foldl (fun buffer line => buffer.take line.utf8ByteSize) {}

end Sift.Report
