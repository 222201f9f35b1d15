import Sift.Diff.Script
import Sift.Text.Utf8

/-!
# Hunks

A hunk shows a change with a few unchanged lines around it. Each of its lines carries a mark: a
space for an unchanged line, a minus for a deleted and a plus for an added one. Changes with few
unchanged lines between them share a hunk.
-/

namespace Sift.Diff

/-- How many unchanged lines are shown around a change. -/
def contextLines : Nat := 3

/-- The number in the new text that the first line has, and the marked lines. -/
structure Hunk where
  start : Int
  lines : List Bytes
  deriving DecidableEq, Repr

/-- The lines of a text, each with its newline; `line` is the one being read, reversed. -/
def linesFrom (line : Bytes) : Bytes → List Bytes
  | [] => if line.isEmpty then [] else [line.reverse]
  | b :: rest => if b = 10 then (b :: line).reverse :: linesFrom [] rest else linesFrom (b :: line) rest

/-- The lines of a text, each with its newline. -/
def lines (text : Bytes) : List Bytes := linesFrom [] text

/-- The mark of a line. -/
def Change.mark : Change → UInt8
  | keep => 32
  | delete => 45
  | insert => 43

/-- What stands below a line that has no newline. -/
def noNewline : Bytes := Utf8.ofString "\\ No newline at end of file"

/-- A line as it is shown: marked, without its newline and without a carriage return before it. -/
def shown (change : Change) (line : Bytes) : List Bytes :=
  let bare := if line.getLast? = some 10 then line.dropLast else line
  let trimmed := if bare.getLast? = some 13 then bare.dropLast else bare
  (change.mark :: trimmed) :: if line.getLast? = some 10 then [] else [noNewline]

/-- Lines as they are shown. -/
def shownAll (change : Change) (lines : List Bytes) : List Bytes := lines.flatMap (shown change)

/-- Hunks being made: how many lines of the new text are passed, the unchanged lines since the last
hunk, and the hunk that is open. -/
structure Assembly where
  passed : Int := 0
  before : List Bytes := []
  current : Option Hunk := none

namespace Assembly

/-- The last lines of context before a change. -/
def context (assembly : Assembly) : List Bytes :=
  assembly.before.drop (assembly.before.length - contextLines)

/-- The open hunk, or a new one for a change. A deletion with nothing in front has the number of
what comes next in the new text, or zero if nothing comes. -/
def openHunk (assembly : Assembly) (change : Change) (isLast : Bool) : Hunk :=
  match assembly.current with
  | some hunk => hunk
  | none =>
    let context := assembly.context
    let start :=
      if change = .insert then assembly.passed - context.length
      else if context.length ≠ 0 then
        if (contextLines : Int) < assembly.passed then assembly.passed - contextLines + 1 else 1
      else if isLast then 0 else assembly.passed + 1
    ⟨start, shownAll .keep context⟩

/-- Adds lines to a hunk. -/
def extend (hunk : Hunk) (change : Change) (lines : List Bytes) : Hunk :=
  { hunk with lines := hunk.lines ++ shownAll change lines }

/-- Passes a run of lines; gives the hunk that it ends, if it ends one. -/
def pass (assembly : Assembly) (run : Run Bytes) (isLast : Bool) : Assembly × List Hunk :=
  let count : Int := run.items.length
  match run.change with
  | .keep =>
    let passed := assembly.passed + count
    match assembly.current with
    | none => ({ assembly with passed, before := assembly.before ++ run.items }, [])
    | some hunk =>
      if run.items.length ≤ 2 * contextLines && !isLast then
        ({ passed, current := some (extend hunk .keep run.items) }, [])
      else
        ({ passed, before := run.items.drop contextLines },
          [extend hunk .keep (run.items.take contextLines)])
  | .delete =>
    let hunk := assembly.openHunk .delete isLast
    ({ passed := assembly.passed, current := some (extend hunk .delete run.items) }, [])
  | .insert =>
    let first := if count = 0 then assembly.passed else assembly.passed + 1
    let hunk := { assembly with passed := first }.openHunk .insert isLast
    ({ passed := first + count - 1, current := some (extend hunk .insert run.items) }, [])

/-- The hunks of a script. -/
def hunks (assembly : Assembly) : List (Run Bytes) → List Hunk
  | [] => assembly.current.toList
  | run :: rest =>
    let (assembly, ended) := assembly.pass run rest.isEmpty
    ended ++ assembly.hunks rest

end Assembly

/-- The hunks that turn one text into another. -/
def hunks (old new : Bytes) : List Hunk := Assembly.hunks {} (script (lines old) (lines new))

/-- How many bytes are looked at to tell whether a text is binary. -/
def sniffLength : Nat := 8000

/-- Whether a text is binary, and so has no lines. -/
def isBinary (text : Bytes) : Bool := (text.take sniffLength).contains 0

end Sift.Diff
