import Sift.Binary64
import Sift.Text.Numeral
import Sift.Yaml.Node

/-!
# The meaning of scalars

A plain scalar may be a number, a truth value or nothing at all. A tag says what it has to be.
-/

namespace Sift.Yaml

/-- What a scalar means. -/
inductive Scalar where
  | null
  | bool (value : Bool)
  | int (value : Int)
  /-- A number in floating point, by the whole number that it is cut to in 64 bits, if it can be. -/
  | float (whole : Option Int)
  | text (content : String)
  deriving DecidableEq, Repr

namespace Scalar

/-- The prefix of the tags that are built in. -/
def builtIn (name : String) : String := "tag:yaml.org,2002:" ++ name

/-- The tag of what a scalar means. -/
def tag : Scalar → String
  | null => builtIn "null"
  | bool _ => builtIn "bool"
  | int _ => builtIn "int"
  | float _ => builtIn "float"
  | text _ => builtIn "str"

/-- Words that mean something other than themselves. -/
def words : List (List String × Scalar) := [
  (["y", "Y", "yes", "Yes", "YES", "true", "True", "TRUE", "on", "On", "ON"], .bool true),
  (["n", "N", "no", "No", "NO", "false", "False", "FALSE", "off", "Off", "OFF"], .bool false),
  (["", "~", "null", "Null", "NULL"], .null),
  ([".nan", ".NaN", ".NAN", ".inf", ".Inf", ".INF", "+.inf", "+.Inf", "+.INF"], .float none),
  (["-.inf", "-.Inf", "-.INF"], .float (some (-(1 <<< 63 : Nat))))]

/-- The meaning of a word. -/
def ofWord? (text : String) : Option Scalar :=
  (words.find? fun (names, _) => names.contains text).map (·.2)

/-! ## Numbers -/

/-- The value of decimal digits; there has to be one. -/
def decimalDigits? (digits : List Char) : Option Nat :=
  if digits.isEmpty then none
  else
    digits.foldlM (fun value c => (Numeral.digitIn? 10 c).map (10 * value + ·)) 0

/-- A whole number of 64 bits, with a sign or without. -/
def int? (text : List Char) : Option Int :=
  match Numeral.int text with
  | .ok value => some value
  | .error _ => (Numeral.magnitude text).toOption.map Int.ofNat

/-- A number in decimal notation: its digits as a whole number, and the power of ten to multiply it
by. -/
def decimal? (text : List Char) : Option (Nat × Int) :=
  let whole := text.takeWhile Char.isDigit
  let afterWhole := text.dropWhile Char.isDigit
  let (part, afterPart) :=
    match afterWhole with
    | '.' :: rest => (rest.takeWhile Char.isDigit, rest.dropWhile Char.isDigit)
    | rest => ([], rest)
  let digits := whole ++ part
  if digits.isEmpty then none
  else
    (decimalDigits? digits).bind fun value =>
      match afterPart with
      | [] => some (value, -part.length)
      | e :: rest =>
        let (negative, power) := Numeral.cutSign rest
        if e ≠ 'e' && e ≠ 'E' then none
        else
          (decimalDigits? power).map fun power =>
            (value, (if negative then -(power : Int) else power) - part.length)

/-- A number in floating point; one beyond double precision is none. -/
def float? (text : List Char) : Option Scalar :=
  let (negative, digits) := Numeral.cutSign text
  (decimal? digits).bind fun (value, power) =>
    let magnitude : Int := (toString value).length + power
    if value = 0 || magnitude < -1 then some (.float (some 0))
    else if 309 < magnitude then none
    else
      let exact := (value * Nat.pow 10 power.toNat, Nat.pow 10 (-power).toNat)
      let near := Binary64.nearest exact.1 exact.2
      let cut := near.1 / near.2
      if 1 <<< 1024 ≤ cut then none
      else if negative then some (.float (some (-(min cut (1 <<< 63) : Nat))))
      else if cut < 1 <<< 63 then some (.float (some cut))
      else if near.1 = near.2 <<< 63 then some (.float (some (-(1 <<< 63 : Nat))))
      else some (.float none)

/-- A number that begins with a digit or a sign. -/
def number? (text : List Char) : Option Scalar :=
  let digits := text.filter (· ≠ '_')
  match int? digits with
  | some value => some (.int value)
  | none => float? digits

/-- What a plain scalar means. -/
def ofPlain (content : String) : Scalar :=
  match ofWord? content with
  | some meaning => meaning
  | none =>
    match content.toList with
    | '.' :: rest => (float? ('.' :: rest)).getD (.text content)
    | c :: rest =>
      if c.isDigit || c = '-' || c = '+' then (number? (c :: rest)).getD (.text content)
      else .text content
    | [] => .null

/-- A whole number as one in floating point. -/
def toFloat (value : Int) : Scalar :=
  let near := (Binary64.nearest value.natAbs 1).1
  if value < 0 then .float (some (-near)) else if near < 1 <<< 63 then .float (some near)
  else .float (if near = 1 <<< 63 then some (-(1 <<< 63 : Nat)) else none)

/-- What a scalar means; there is no meaning if the tag does not allow what is written. -/
def meaning? (tag : String) (plain : Bool) (content : String) : Option Scalar :=
  if tag = "" then some (if plain then ofPlain content else .text content)
  else if tag = builtIn "str" then some (.text content)
  else if tag = builtIn "binary" || tag = builtIn "timestamp" then none
  else if [builtIn "bool", builtIn "int", builtIn "float", builtIn "null"].contains tag then
    let found := ofPlain content
    if found.tag = tag then some found
    else
      match found with
      | .int value => if tag = builtIn "float" then some (toFloat value) else none
      | _ => none
  else some (.text content)

end Scalar

end Sift.Yaml
