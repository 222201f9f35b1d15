import Sift.Json.Value
import Sift.Text.Utf8
import Sift.Pattern.Lexeme

/-!
# Reading JSON

The whole text must be one value with nothing but white space around it. Bytes that are not valid
UTF-8 are read as replacement characters, and so are halves of surrogate pairs.
-/

namespace Sift.Json

/-- White space between the parts of a value. -/
def isBlank (c : Char) : Bool := c = ' ' || c = '\t' || c = '\n' || c = '\r'

/-- Drops white space. -/
def skip (text : List Char) : List Char := text.dropWhile isBlank

/-- Four hexadecimal digits. -/
def hex4? : List Char → Option (Nat × List Char)
  | a :: b :: c :: d :: rest => do
    let a ← Pattern.hexDigit? a
    let b ← Pattern.hexDigit? b
    let c ← Pattern.hexDigit? c
    let d ← Pattern.hexDigit? d
    return (((a * 16 + b) * 16 + c) * 16 + d, rest)
  | _ => none

/-- The code point of two surrogates. -/
def pairCode? (high low : Nat) : Option Nat :=
  if 0xD800 ≤ high && high < 0xDC00 && 0xDC00 ≤ low && low < 0xE000 then
    some ((high - 0xD800) * 1024 + (low - 0xDC00) + 0x10000)
  else none

/-- The character that `\u` and four digits stand for; a second half is used when it fits. -/
def unicodeEscape? (rest : List Char) : Option (Char × List Char) := do
  let (code, rest) ← hex4? rest
  if 0xD800 ≤ code && code < 0xE000 then
    match rest with
    | '\\' :: 'u' :: more =>
      match hex4? more with
      | some (low, after) =>
        match pairCode? code low with
        | some pair => return (Char.ofNat pair, after)
        | none => return (Char.ofNat 0xFFFD, rest)
      | none => return (Char.ofNat 0xFFFD, rest)
    | _ => return (Char.ofNat 0xFFFD, rest)
  else return (Char.ofNat code, rest)

/-- The character a letter after a backslash stands for. -/
def simpleEscape? (c : Char) : Option Char :=
  match c with
  | '"' | '\\' | '/' => some c
  | 'b' => some (Char.ofNat 8)
  | 'f' => some (Char.ofNat 12)
  | 'n' => some '\n'
  | 'r' => some '\r'
  | 't' => some '\t'
  | _ => none

/-- Reads a string whose opening quote has been read; `read` holds what was read, reversed. -/
def stringFrom : Nat → List Char → List Char → Option (String × List Char)
  | 0, _, _ => none
  | fuel + 1, read, text =>
    match text with
    | [] => none
    | '"' :: rest => some (String.ofList read.reverse, rest)
    | '\\' :: 'u' :: rest => do
      let (c, rest) ← unicodeEscape? rest
      stringFrom fuel (c :: read) rest
    | '\\' :: c :: rest => do
      let c ← simpleEscape? c
      stringFrom fuel (c :: read) rest
    | c :: rest => if c.toNat < 32 then none else stringFrom fuel (c :: read) rest

/-- At least one digit. -/
def digits? (text : List Char) : Option (List Char × List Char) :=
  match text.takeWhile Pattern.isDigit with
  | [] => none
  | digits => some (digits, text.dropWhile Pattern.isDigit)

/-- The part of a number before its point. -/
def wholePart? (text : List Char) : Option (List Char × List Char) :=
  match text with
  | '0' :: rest => some (['0'], rest)
  | _ => digits? text

/-- The part of a number after its point, if there is one. -/
def fraction? (text : List Char) : Option (List Char × List Char) :=
  match text with
  | '.' :: rest => (digits? rest).map fun (digits, rest) => ('.' :: digits, rest)
  | _ => some ([], text)

/-- The power of ten, if there is one. -/
def exponent? (text : List Char) : Option (List Char × List Char) :=
  match text with
  | [] => some ([], [])
  | e :: rest =>
    if e = 'e' || e = 'E' then
      match rest with
      | sign :: more =>
        if sign = '+' || sign = '-' then
          (digits? more).map fun (digits, rest) => (e :: sign :: digits, rest)
        else (digits? rest).map fun (digits, rest) => (e :: digits, rest)
      | [] => none
    else some ([], text)

/-- Reads a number. -/
def number? (text : List Char) : Option (String × List Char) := do
  let (sign, text) :=
    match text with
    | '-' :: rest => (['-'], rest)
    | _ => ([], text)
  let (whole, text) ← wholePart? text
  let (fraction, text) ← fraction? text
  let (exponent, text) ← exponent? text
  return (String.ofList (sign ++ whole ++ fraction ++ exponent), text)

/-- How deep values may be nested. -/
def depthLimit : Nat := 10000

mutual

/-- Reads a value. Every call reads a character, so the length of the text bounds `fuel`. -/
def valueFrom (depth : Nat) : Nat → List Char → Option (Json × List Char)
  | 0, _ => none
  | fuel + 1, text =>
    match text with
    | 'n' :: 'u' :: 'l' :: 'l' :: rest => some (.null, rest)
    | 't' :: 'r' :: 'u' :: 'e' :: rest => some (.bool true, rest)
    | 'f' :: 'a' :: 'l' :: 's' :: 'e' :: rest => some (.bool false, rest)
    | '"' :: rest => (stringFrom (rest.length + 1) [] rest).map fun (s, rest) => (.string s, rest)
    | '[' :: rest =>
      if depthLimit ≤ depth then none
      else
        match skip rest with
        | ']' :: rest => some (.array [], rest)
        | rest => (itemsFrom (depth + 1) fuel [] rest).map fun (items, rest) => (.array items, rest)
    | '{' :: rest =>
      if depthLimit ≤ depth then none
      else
        match skip rest with
        | '}' :: rest => some (.object [], rest)
        | rest =>
          (fieldsFrom (depth + 1) fuel [] rest).map fun (fields, rest) => (.object fields, rest)
    | _ => (number? text).map fun (digits, rest) => (.number digits, rest)

/-- Reads the items of a list up to its closing bracket; `read` is reversed. -/
def itemsFrom (depth : Nat) : Nat → List Json → List Char → Option (List Json × List Char)
  | 0, _, _ => none
  | fuel + 1, read, text => do
    let (item, rest) ← valueFrom depth fuel (skip text)
    match skip rest with
    | ',' :: rest => itemsFrom depth fuel (item :: read) rest
    | ']' :: rest => some ((item :: read).reverse, rest)
    | _ => none

/-- Reads the fields of an object up to its closing brace; `read` is reversed. -/
def fieldsFrom (depth : Nat) : Nat → List (String × Json) → List Char →
    Option (List (String × Json) × List Char)
  | 0, _, _ => none
  | fuel + 1, read, text =>
    match skip text with
    | '"' :: rest => do
      let (key, rest) ← stringFrom (rest.length + 1) [] rest
      match skip rest with
      | ':' :: rest => do
        let (value, rest) ← valueFrom depth fuel (skip rest)
        match skip rest with
        | ',' :: rest => fieldsFrom depth fuel ((key, value) :: read) rest
        | '}' :: rest => some (((key, value) :: read).reverse, rest)
        | _ => none
      | _ => none
    | _ => none

end

/-- Reads a value that makes up the whole text. -/
def parseChars (text : List Char) : Option Json := do
  let (value, rest) ← valueFrom 0 (2 * text.length + 2) (skip text)
  if (skip rest).isEmpty then return value else none

/-- Reads a value from a stored text. -/
def parse (text : Bytes) : Option Json :=
  parseChars ((Utf8.codePoints text).map Char.ofNat)

end Sift.Json
