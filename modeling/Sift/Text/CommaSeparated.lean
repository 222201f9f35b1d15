import Sift.Text.Utf8

/-!
# Lists in a text

The items of a list are separated by commas. An item in quotes may hold commas and line ends, and a
quote in it is written twice. Only the first line that is not empty counts.
-/

namespace Sift.CommaSeparated

/-- A place in a text: its line and its byte in the line, both from one. -/
structure Place where
  line : Nat
  column : Nat
  deriving DecidableEq, Repr

/-- The place behind a character. -/
def Place.next (place : Place) (c : Char) : Place :=
  if c = '\n' then ⟨place.line + 1, 1⟩ else ⟨place.line, place.column + c.utf8Size⟩

/-- Why a text is no list. -/
inductive Fault where
  /-- There is no line that is not empty. -/
  | nothing
  /-- A quote in an item without quotes. -/
  | bareQuote (first : Nat) (place : Place)
  /-- A quote that is missing, or one too many. -/
  | quote (first : Nat) (place : Place)
  deriving DecidableEq, Repr

/-- Where a fault is, for an item that begins on line `first`. -/
def Fault.position (first : Nat) (place : Place) : String :=
  (if first = place.line then "" else s!"record on line {first}; ") ++
    s!"parse error on line {place.line}, column {place.column}: "

/-- A fault in words. -/
def Fault.message : Fault → String
  | nothing => "EOF"
  | bareQuote first place => position first place ++ "bare \" in non-quoted field"
  | quote first place => position first place ++ "extraneous or missing \" in quoted-field"

/-- Where the reading of an item stands. -/
inductive Mode where
  | start
  | plain
  | quoted
  /-- Behind a quote at a place, in an item with quotes. -/
  | quoteSeen (place : Place)

/-- Reads items; `item` is the one being read, reversed. -/
def read (first : Nat) (mode : Mode) (item : List Char) (place : Place) :
    List Char → Except Fault (List String)
  | [] =>
    match mode with
    | .quoted => .error (.quote first place)
    | _ => .ok [String.ofList item.reverse]
  | c :: rest =>
    let after := place.next c
    let done (later : Except Fault (List String)) := later.map (String.ofList item.reverse :: ·)
    match mode with
    | .quoted =>
      if c = '"' then read first (.quoteSeen place) item after rest
      else read first .quoted (c :: item) after rest
    | .quoteSeen seen =>
      if c = '"' then read first .quoted (c :: item) after rest
      else if c = ',' then done (read first .start [] after rest)
      else if c = '\n' then .ok [String.ofList item.reverse]
      else .error (.quote first seen)
    | .start =>
      if c = '"' then read first .quoted item after rest
      else if c = ',' then done (read first .start [] after rest)
      else if c = '\n' then .ok [String.ofList item.reverse]
      else read first .plain (c :: item) after rest
    | .plain =>
      if c = '"' then .error (.bareQuote first place)
      else if c = ',' then done (read first .start [] after rest)
      else if c = '\n' then .ok [String.ofList item.reverse]
      else read first .plain (c :: item) after rest

/-- Lines end with a line feed only: carriage returns in front of it and at the end go. -/
def unifyLines : List Char → List Char
  | '\r' :: '\n' :: rest => '\n' :: unifyLines rest
  | ['\r'] => []
  | c :: rest => c :: unifyLines rest
  | [] => []

/-- The items of a list; an empty text has none. -/
def parse (text : String) : Except Fault (List String) :=
  if text = "" then .ok []
  else
    let all := unifyLines text.toList
    let body := all.dropWhile (· = '\n')
    let line := all.length - body.length + 1
    if body.isEmpty then .error .nothing else read line .start [] ⟨line, 1⟩ body

end Sift.CommaSeparated
