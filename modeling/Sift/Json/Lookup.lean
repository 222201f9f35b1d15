import Sift.Json.Value

/-!
# Looking values up

A look-up by key never fails: what is missing, or of another kind than asked for, counts as empty.
Of a key that occurs twice, the last value counts.
-/

namespace Sift.Json

/-- The value as a string. -/
def asString : Json → String
  | .string s => s
  | _ => ""

/-- The value as a whole number. -/
def asInt : Json → Int
  | .number digits => digits.toInt?.getD 0
  | _ => 0

/-- The value as a truth value. -/
def asBool : Json → Bool
  | .bool b => b
  | _ => false

/-- The items of a list. -/
def items : Json → List Json
  | .array xs => xs
  | _ => []

/-- The fields of an object. -/
def fields : Json → List (String × Json)
  | .object xs => xs
  | _ => []

/-- Whether the value is null. -/
def isNull : Json → Bool
  | .null => true
  | _ => false

/-- The value of a key. -/
def get (value : Json) (key : String) : Json := (value.fields.reverse.lookup key).getD .null

/-- The string at a key. -/
def str (value : Json) (key : String) : String := (value.get key).asString

/-- The whole number at a key. -/
def num (value : Json) (key : String) : Int := (value.get key).asInt

/-- The truth value at a key. -/
def flag (value : Json) (key : String) : Bool := (value.get key).asBool

/-- The items of the list at a key. -/
def list (value : Json) (key : String) : List Json := (value.get key).items

/-- The fields of the object at a key. -/
def dict (value : Json) (key : String) : List (String × Json) := (value.get key).fields

/-- The strings in the list at a key. -/
def strs (value : Json) (key : String) : List String := (value.list key).map asString

/-- Whether there is nothing at a key. -/
def lacks (value : Json) (key : String) : Bool := (value.get key).isNull

end Sift.Json
