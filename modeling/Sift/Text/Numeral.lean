/-!
# Whole numbers in notation

A number may have a sign, a base that its front tells (`0x`, `0o`, `0b`, or a plain `0` for octal), and
underscores between digits. It has to fit in 64 bits.
-/

namespace Sift.Numeral

/-- Why a text is no number. -/
inductive Fault where
  | malformed
  | outOfRange
  deriving DecidableEq, Repr

/-- The value of a digit in some base. -/
def digitIn? (base : Nat) (c : Char) : Option Nat :=
  let value :=
    if c.isDigit then c.toNat - '0'.toNat
    else if 'a' ≤ c && c ≤ 'z' then c.toNat - 'a'.toNat + 10
    else if 'A' ≤ c && c ≤ 'Z' then c.toNat - 'A'.toNat + 10
    else base
  if value < base then some value else none

/-- Reads digits behind those of a value. Underscores are passed over. -/
def digits (base value : Nat) : List Char → Except Fault Nat
  | [] => .ok value
  | c :: rest =>
    if c = '_' then digits base value rest
    else
      match digitIn? base c with
      | none => .error .malformed
      | some digit =>
        let next := base * value + digit
        if next < 1 <<< 64 then digits base next rest else .error .outOfRange

/-- The base that the front of a number tells, and what follows. -/
def cutBase : List Char → Nat × List Char
  | '0' :: c :: d :: rest =>
    if c = 'x' || c = 'X' then (16, d :: rest)
    else if c = 'o' || c = 'O' then (8, d :: rest)
    else if c = 'b' || c = 'B' then (2, d :: rest)
    else (8, c :: d :: rest)
  | '0' :: rest => (8, rest)
  | text => (10, text)

/-- Whether every underscore stands between digits, the first of which may be the sign of a base;
`afterDigit` tells what came before. -/
def separates (afterDigit : Bool) : List Char → Bool
  | [] => true
  | '_' :: c :: rest => afterDigit && c ≠ '_' && separates true rest
  | ['_'] => false
  | _ :: rest => separates true rest

/-- The value of a number without a sign. -/
def magnitude (text : List Char) : Except Fault Nat :=
  if text.isEmpty then .error .malformed
  else
    let (base, rest) := cutBase text
    match digits base 0 rest with
    | .error fault => .error fault
    | .ok value => if separates (base ≠ 10) rest then .ok value else .error .malformed

/-- Whether characters begin with a minus sign, and what follows a sign. -/
def cutSign : List Char → Bool × List Char
  | '-' :: rest => (true, rest)
  | '+' :: rest => (false, rest)
  | rest => (false, rest)

/-- The value of a number with or without a sign. -/
def int (text : List Char) : Except Fault Int :=
  let (negative, body) := cutSign text
  match magnitude body with
  | .error fault => .error fault
  | .ok value =>
    if negative then if value ≤ 1 <<< 63 then .ok (-value) else .error .outOfRange
    else if value < 1 <<< 63 then .ok value
    else .error .outOfRange

end Sift.Numeral
