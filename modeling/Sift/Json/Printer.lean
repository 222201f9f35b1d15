import Sift.Json.Value
import Sift.Text.Quoted

/-!
# Writing JSON

Strings are written so that they can stand inside a web page: angle brackets and the ampersand are
escaped, and so are the two line separators.
-/

namespace Sift.Json

/-- One character inside a string. -/
def escapeChar (c : Char) : List Char :=
  if c = '"' then ['\\', '"']
  else if c = '\\' then ['\\', '\\']
  else if c.toNat = 8 then ['\\', 'b']
  else if c.toNat = 12 then ['\\', 'f']
  else if c.toNat = 10 then ['\\', 'n']
  else if c.toNat = 13 then ['\\', 'r']
  else if c.toNat = 9 then ['\\', 't']
  else if c.toNat < 32 || c = '<' || c = '>' || c = '&' || c.toNat = 0x2028 || c.toNat = 0x2029 then
    '\\' :: 'u' :: (Text.hex 4 c.toNat).toList
  else [c]

/-- A string between quotes. -/
def quoteChars (s : String) : List Char := '"' :: (s.toList.flatMap escapeChar ++ ['"'])

/-- A line break followed by two blanks for each level. -/
def newline (level : Nat) : List Char := '\n' :: List.replicate (2 * level) ' '

mutual

/-- A value on one line. -/
def compactChars : Json → List Char
  | .null => "null".toList
  | .bool b => (if b then "true" else "false").toList
  | .number digits => digits.toList
  | .string s => quoteChars s
  | .array items => '[' :: (compactItems items ++ [']'])
  | .object fields => '{' :: (compactFields fields ++ ['}'])

/-- Items separated by commas. -/
def compactItems : List Json → List Char
  | [] => []
  | [item] => compactChars item
  | item :: rest => compactChars item ++ ',' :: compactItems rest

/-- Fields separated by commas. -/
def compactFields : List (String × Json) → List Char
  | [] => []
  | [(key, value)] => quoteChars key ++ ':' :: compactChars value
  | (key, value) :: rest => quoteChars key ++ ':' :: (compactChars value ++ ',' :: compactFields rest)

end

mutual

/-- A value with one item or field a line, indented by two blanks for each level. -/
def indentedChars (level : Nat) : Json → List Char
  | .null => "null".toList
  | .bool b => (if b then "true" else "false").toList
  | .number digits => digits.toList
  | .string s => quoteChars s
  | .array [] => ['[', ']']
  | .array (item :: rest) =>
    '[' :: (indentedItems (level + 1) (item :: rest) ++ newline level ++ [']'])
  | .object [] => ['{', '}']
  | .object (field :: rest) =>
    '{' :: (indentedFields (level + 1) (field :: rest) ++ newline level ++ ['}'])

/-- Items, each on its own line. -/
def indentedItems (level : Nat) : List Json → List Char
  | [] => []
  | [item] => newline level ++ indentedChars level item
  | item :: rest => newline level ++ indentedChars level item ++ ',' :: indentedItems level rest

/-- Fields, each on its own line. -/
def indentedFields (level : Nat) : List (String × Json) → List Char
  | [] => []
  | [(key, value)] => newline level ++ quoteChars key ++ ':' :: ' ' :: indentedChars level value
  | (key, value) :: rest =>
    newline level ++ quoteChars key ++ ':' :: ' ' ::
      (indentedChars level value ++ ',' :: indentedFields level rest)

end

/-- A value on one line. -/
def compact (value : Json) : String := String.ofList (compactChars value)

/-- A value over several lines. -/
def indented (value : Json) : String := String.ofList (indentedChars 0 value)

end Sift.Json
