/-!
# Sets of code points

A set of code points is a list of inclusive ranges. The tables of this library are written as
numbers in base 36: for each range the gap since the range before it, then its length.
-/

namespace Sift.Unicode

/-- Inclusive ranges of code points. -/
abbrev Ranges := List (Nat × Nat)

namespace Ranges

/-- Whether `c` lies in one of the ranges. -/
def contains (ranges : Ranges) (c : Nat) : Bool :=
  ranges.any fun range => range.1 ≤ c && c ≤ range.2

end Ranges

/-- The value of a digit in base 36, zero for anything else. -/
def digitValue (c : Char) : Nat :=
  if '0' ≤ c ∧ c ≤ '9' then c.toNat - '0'.toNat
  else if 'a' ≤ c ∧ c ≤ 'z' then c.toNat - 'a'.toNat + 10
  else 0

/-- Reads blank-separated numbers in base 36; a leading minus sign makes a number negative. -/
def readNumbers (text : List Char) : List Int :=
  let close (negative : Bool) (value : Nat) : Int :=
    if negative then -(value : Int) else value
  let rec go (negative : Bool) (value : Option Nat) : List Char → List Int
    | [] => (value.map (close negative)).toList
    | c :: rest =>
      if c = ' ' then (value.map (close negative)).toList ++ go false none rest
      else if c = '-' then go true value rest
      else go negative (some (value.getD 0 * 36 + digitValue c)) rest
  go false none text

/-- Ranges from alternating gaps and lengths, `at` being the first code point not yet passed. -/
def rangesOfGaps (start : Nat) : List Int → Ranges
  | gap :: length :: rest =>
    let first := start + gap.toNat
    (first, first + length.toNat - 1) :: rangesOfGaps (first + length.toNat) rest
  | _ => []

/-- The ranges a table entry stands for. -/
def readRanges (lines : List String) : Ranges :=
  rangesOfGaps 0 (lines.flatMap fun line => readNumbers line.toList)

end Sift.Unicode
