import Sift.Json.Value
import Sift.Unicode.Folding

/-!
# Reading the fields of records

A record is read field by field. Names are compared without regard to case, a later field counts
over an earlier one, and `null` leaves what is there. A value of the wrong type leaves what is there
too, but the record as a whole is then malformed. The items of a list are read over those of an
earlier list, also over those that a shorter one in between has hidden.
-/

namespace Sift.Json

/-- Whether a key names a field. -/
def names (key field : String) : Bool := Unicode.equalFold key field

/-- The number that digits with an optional sign stand for, if it fits into sixty-four bits. -/
def integer? (digits : String) : Option Int :=
  let (negative, cs) :=
    match digits.toList with
    | '-' :: rest => (true, rest)
    | cs => (false, cs)
  if !cs.isEmpty && cs.all Char.isDigit then
    let size := cs.foldl (fun n c => n * 10 + (c.toNat - '0'.toNat)) 0
    if negative then if size ≤ 1 <<< 63 then some (-(size : Int)) else none
    else if size < 1 <<< 63 then some size else none
  else none

/-- The items of a list, and the items of longer lists before it that it hides. -/
structure Slots (α : Type) where
  items : List α := []
  hidden : List α := []

/-- All items, those that are hidden behind the others. -/
def Slots.all {α : Type} (slots : Slots α) : List α := slots.items ++ slots.hidden

/-- A value read so far, and whether all of it had the right types. -/
structure Reading (α : Type) where
  value : α
  sound : Bool := true

namespace Reading

/-- Reads a string over an old one. -/
def string (old : String) : Json → Reading String
  | .string s => ⟨s, true⟩
  | .null => ⟨old, true⟩
  | _ => ⟨old, false⟩

/-- Reads a truth value over an old one. -/
def bool (old : Bool) : Json → Reading Bool
  | .bool b => ⟨b, true⟩
  | .null => ⟨old, true⟩
  | _ => ⟨old, false⟩

/-- Reads a whole number over an old one. -/
def int (old : Int) : Json → Reading Int
  | .number digits =>
    match integer? digits with
    | some n => ⟨n, true⟩
    | none => ⟨old, false⟩
  | .null => ⟨old, true⟩
  | _ => ⟨old, false⟩

/-- Reads the items of a list, each over the old item in its place, or over `blank`. -/
def items {α : Type} (blank : α) (item : α → Json → Reading α) :
    List α → List Json → Reading (List α)
  | _, [] => ⟨[], true⟩
  | old, value :: rest =>
    let first := item (old.headD blank) value
    let others := items blank item old.tail rest
    ⟨first.value :: others.value, first.sound && others.sound⟩

/-- Reads a list over an old one; `null` makes it absent. -/
def list {α : Type} (blank : α) (item : α → Json → Reading α) (old : Option (Slots α)) :
    Json → Reading (Option (Slots α))
  | .null => ⟨none, true⟩
  | .array values =>
    let slots := (old.getD {}).all
    let read := items blank item slots values
    -- A list without items begins anew.
    let hidden := if values.isEmpty then [] else slots.drop values.length
    ⟨some ⟨read.value, hidden⟩, read.sound⟩
  | _ => ⟨old, false⟩

/-- Reads a list of strings over an old one. -/
def strings (old : Option (Slots String)) (value : Json) : Reading (Option (Slots String)) :=
  list "" string old value

/-- Applies a function to the value. -/
def map {α β : Type} (f : α → β) (reading : Reading α) : Reading β := ⟨f reading.value, reading.sound⟩

/-- Keeps in mind that something before was not sound. -/
def after {α : Type} (sound : Bool) (reading : Reading α) : Reading α :=
  ⟨reading.value, sound && reading.sound⟩

end Reading

end Sift.Json
