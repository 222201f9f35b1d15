/-!
# JSON values

Numbers keep the digits they were written with. Fields keep their order, and a key may occur more
than once.
-/

namespace Sift

/-- A JSON value. -/
inductive Json where
  | null
  | bool (b : Bool)
  | number (digits : String)
  | string (s : String)
  | array (items : List Json)
  | object (fields : List (String × Json))

namespace Json

/-- A whole number. -/
def int (n : Int) : Json := .number (ToString.toString n)

/-- A natural number. -/
def nat (n : Nat) : Json := .number (ToString.toString n)

/-- A list of strings. -/
def strings (items : List String) : Json := .array (items.map .string)

end Json

end Sift
