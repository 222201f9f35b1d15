import Sift.Text.Blank
import Sift.Text.Quoted
import Sift.Json.Printer

/-!
# Severities

A severity is a set of levels. A rule may carry several, and what is reported is chosen by such a
set too.
-/

namespace Sift

/-- A set of levels, one bit each. -/
structure Severity where
  bits : UInt8
  deriving DecidableEq, Repr

namespace Severity

/-- No level. -/
def none : Severity := ⟨0⟩

def critical : Severity := ⟨1⟩
def important : Severity := ⟨2⟩
def moderate : Severity := ⟨4⟩
def bestPractice : Severity := ⟨8⟩
def manualReview : Severity := ⟨16⟩

/-- The levels with their names, the most severe first. -/
def levels : List (Severity × String) :=
  [(critical, "critical"), (important, "important"), (moderate, "moderate"),
   (bestPractice, "best-practice"), (manualReview, "manual-review")]

/-- All levels. -/
def all : Severity := ⟨31⟩

/-- The levels of both. -/
def union (a b : Severity) : Severity := ⟨a.bits ||| b.bits⟩

/-- Whether the two share a level. -/
def intersects (a b : Severity) : Bool := a.bits &&& b.bits != 0

/-- Whether `b` is not empty and all its levels are in `a`. -/
def has (a b : Severity) : Bool := b.bits != 0 && a.bits &&& b.bits == b.bits

/-- The most severe level. -/
def highest (s : Severity) : Severity :=
  match levels.find? fun level => s.intersects level.1 with
  | some level => level.1
  | Option.none => none

/-- The names of the levels, the most severe first. -/
def names (s : Severity) : List String :=
  (levels.filter fun level => s.intersects level.1).map (·.2)

/-- The names on one line. -/
def text (s : Severity) : String :=
  if s = none then "none" else "|".intercalate s.names

/-- A single name stands alone, several form a list. -/
def toJson (s : Severity) : Json :=
  match s.names with
  | [] => .null
  | [name] => .string name
  | names => .strings names

/-- A name as it is compared: trimmed, in lower case, words joined by hyphens. -/
def normalizeName (name : String) : String :=
  let joined := (Text.normalize name).map fun c => if c = '_' || c = ' ' then '-' else c
  if joined = "bestpractice" then "best-practice"
  else if joined = "manualreview" then "manual-review"
  else joined

/-- The level with a name. -/
def parse? (name : String) : Option Severity :=
  (levels.find? fun level => level.2 = normalizeName name).map (·.1)

end Severity

end Sift
