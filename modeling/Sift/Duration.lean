import Sift.Binary64
import Sift.Text.Quoted

/-!
# Lengths of time

A length of time is a number of nanoseconds in 64 bits. It is written with units from hours to
nanoseconds, such as `1m0.5s`.
-/

namespace Sift

/-- A length of time in nanoseconds. -/
structure Duration where
  nanoseconds : Int
  deriving DecidableEq, Repr

namespace Duration

/-- A number of seconds. -/
def ofSeconds (n : Int) : Duration := ⟨n * 1000000000⟩

/-- A number of milliseconds. -/
def ofMilliseconds (n : Int) : Duration := ⟨n * 1000000⟩

/-! ## Writing -/

/-- The digits of `n` behind a point, `places` of them, without zeros at the end; nothing for zero. -/
def fraction (places n : Nat) : String :=
  let digits := (toString (Nat.pow 10 places + n % Nat.pow 10 places)).toList.tail
  let kept := (digits.reverse.dropWhile (· = '0')).reverse
  if kept.isEmpty then "" else "." ++ String.ofList kept

/-- A number of nanoseconds in units of which each has `10 ^ places`. -/
def inUnit (places n : Nat) (unit : String) : String :=
  toString (n / Nat.pow 10 places) ++ fraction places n ++ unit

/-- A number of nanoseconds in the largest units that fit. -/
def writeNat (n : Nat) : String :=
  if n = 0 then "0s"
  else if n < 1000 then inUnit 0 n "ns"
  else if n < 1000000 then inUnit 3 n "µs"
  else if n < 1000000000 then inUnit 6 n "ms"
  else
    let minutes := n / 60000000000
    let seconds := inUnit 9 (n % 60000000000) "s"
    if minutes = 0 then seconds
    else if minutes < 60 then toString minutes ++ "m" ++ seconds
    else toString (minutes / 60) ++ "h" ++ toString (minutes % 60) ++ "m" ++ seconds

/-- A length of time as it is shown. -/
def write (duration : Duration) : String :=
  (if duration.nanoseconds < 0 then "-" else "") ++ writeNat duration.nanoseconds.natAbs

/-! ## Reading -/

/-- Why a text is no length of time. -/
inductive Fault where
  | invalid (text : String)
  | missingUnit (text : String)
  | unknownUnit (unit text : String)
  deriving DecidableEq, Repr

namespace Fault

/-- Text in quotes; what is not printable ASCII is shown byte by byte. -/
def quoted (text : String) : String :=
  let shown (c : Char) : String :=
    if c < ' ' || 0x80 ≤ c.toNat then
      String.join ((Utf8.ofString c.toString).map fun b => "\\x" ++ Text.hex 2 b.toNat)
    else if c = '"' || c = '\\' then "\\" ++ c.toString
    else c.toString
  "\"" ++ String.join (text.toList.map shown) ++ "\""

/-- A fault in words. -/
def message : Fault → String
  | invalid text => "time: invalid duration " ++ quoted text
  | missingUnit text => "time: missing unit in duration " ++ quoted text
  | unknownUnit unit text => "time: unknown unit " ++ quoted unit ++ " in duration " ++ quoted text

end Fault

/-- The nanoseconds in a unit. -/
def unitSize? (unit : String) : Option Nat :=
  [("ns", 1), ("us", 1000), ("µs", 1000), ("μs", 1000), ("ms", 1000000), ("s", 1000000000),
    ("m", 60000000000), ("h", 3600000000000)].lookup unit

/-- The magnitude that no length of time exceeds. -/
def limit : Nat := 1 <<< 63

/-- The value of decimal digits. -/
def digitsValue (digits : List Char) : Nat :=
  digits.foldl (fun value c => 10 * value + (c.toNat - '0'.toNat)) 0

/-- The value of the digits after a point and the power of ten that they are parts of. Digits that do
not fit in 63 bits are left out. -/
def fractionValue (value scale : Nat) : List Char → Nat × Nat
  | [] => (value, scale)
  | c :: rest =>
    let next := 10 * value + (c.toNat - '0'.toNat)
    if (limit - 1) / 10 < value || limit < next then (value, scale)
    else fractionValue next (10 * scale) rest

/-- The whole nanoseconds in a part of a unit, in double precision. -/
def partOf (unit : Nat) (part : Nat × Nat) : Nat :=
  let share := Binary64.nearest unit part.2
  let all := Binary64.product (Binary64.nearest part.1 1) share
  all.1 / all.2

/-- Reads numbers with units one after the other and adds them to `total`. -/
def readParts (whole : String) (total : Nat) : Nat → List Char → Except Fault Nat
  | 0, _ => .ok total
  | _ + 1, [] => .ok total
  | fuel + 1, text =>
    let digits := text.takeWhile Char.isDigit
    let afterDigits := text.dropWhile Char.isDigit
    let (decimals, afterNumber) :=
      match afterDigits with
      | '.' :: rest => (rest.takeWhile Char.isDigit, rest.dropWhile Char.isDigit)
      | rest => ([], rest)
    let value := digitsValue digits
    let part := fractionValue 0 1 decimals
    let isUnit (c : Char) : Bool := c ≠ '.' && !c.isDigit
    let unit := String.ofList (afterNumber.takeWhile isUnit)
    if (digits.isEmpty && decimals.isEmpty) || limit < value then .error (.invalid whole)
    else if unit = "" then .error (.missingUnit whole)
    else
      match unitSize? unit with
      | none => .error (.unknownUnit unit whole)
      | some size =>
        let amount := value * size + partOf size part
        if limit / size < value || limit < amount || limit < total + amount then
          .error (.invalid whole)
        else readParts whole (total + amount) fuel (afterNumber.dropWhile isUnit)

/-- Reads a length of time. -/
def parse (text : String) : Except Fault Duration :=
  let (negative, body) :=
    match text.toList with
    | '-' :: rest => (true, rest)
    | '+' :: rest => (false, rest)
    | all => (false, all)
  if body = ['0'] then .ok ⟨0⟩
  else if body.isEmpty then .error (.invalid text)
  else
    match readParts text 0 body.length body with
    | .error fault => .error fault
    | .ok total =>
      if negative then .ok ⟨-total⟩
      else if limit ≤ total then .error (.invalid text)
      else .ok ⟨total⟩

end Duration

end Sift
