import Sift.Unicode.Category
import Sift.Unicode.Lowercase
import Sift.Text.Utf8

/-!
# White space in strings

Trimming and splitting at white space, which is Unicode's.
-/

namespace Sift.Text

/-- Whether a character is white space. -/
def isBlank (c : Char) : Bool := Unicode.isSpace c.toNat

/-- Characters without the white space at their front. -/
def trimFront (cs : List Char) : List Char := cs.dropWhile isBlank

/-- Characters without the white space around them. -/
def trimChars (cs : List Char) : List Char :=
  (trimFront (trimFront cs).reverse).reverse

/-- A string without the white space around it. -/
def trim (s : String) : String := String.ofList (trimChars s.toList)

/-- Splits characters at runs of white space; `field` is the field being read, reversed. -/
def fieldsFrom (field : List Char) : List Char → List (List Char)
  | [] => if field.isEmpty then [] else [field.reverse]
  | c :: rest =>
    if isBlank c then
      if field.isEmpty then fieldsFrom [] rest else field.reverse :: fieldsFrom [] rest
    else fieldsFrom (c :: field) rest

/-- The pieces of a string between runs of white space. -/
def fields (s : String) : List String :=
  (fieldsFrom [] s.toList).map String.ofList

/-- Splits stored text at runs of white space, with the runes that it is read as; `field` is the
field being read, reversed. -/
def byteFieldsFrom (field : Bytes) : List Utf8.Rune → Bytes → List Bytes
  | [], _ => if field.isEmpty then [] else [field.reverse]
  | rune :: runes, text =>
    let rest := text.drop rune.width
    if Unicode.isSpace rune.code then
      if field.isEmpty then byteFieldsFrom [] runes rest
      else field.reverse :: byteFieldsFrom [] runes rest
    else byteFieldsFrom ((text.take rune.width).reverse ++ field) runes rest

/-- The pieces of stored text between runs of white space. -/
def byteFields (text : Bytes) : List Bytes := byteFieldsFrom [] (Utf8.runes text) text

/-- A string trimmed and in lower case. -/
def normalize (s : String) : String := Unicode.lowerString (trim s)

/-- Splits characters at every occurrence of a separator character. -/
def splitChars (sep : Char) : List Char → List (List Char)
  | [] => [[]]
  | c :: rest =>
    if c = sep then [] :: splitChars sep rest
    else
      match splitChars sep rest with
      | [] => [[c]]
      | piece :: pieces => (c :: piece) :: pieces

/-- The pieces of a string between occurrences of a separator character. -/
def splitAt (sep : Char) (s : String) : List String :=
  (splitChars sep s.toList).map String.ofList

/-- Whether `s` begins with `lead`. -/
def startsWith (s lead : String) : Bool := lead.toList.isPrefixOf s.toList

/-- Whether `s` ends with `tail`. -/
def endsWith (s tail : String) : Bool := tail.toList.reverse.isPrefixOf s.toList.reverse

/-- `s` without `lead` at its front, if it is there. -/
def dropLead (s lead : String) : String :=
  if startsWith s lead then String.ofList (s.toList.drop lead.toList.length) else s

/-- `s` without `tail` at its end, if it is there. -/
def dropTail (s tail : String) : String :=
  if endsWith s tail then String.ofList (s.toList.take (s.toList.length - tail.toList.length)) else s

/-- `s` without any `c` at its end. -/
def trimTail (c : Char) (s : String) : String :=
  String.ofList (s.toList.reverse.dropWhile (· = c)).reverse

/-- The characters before and after the first `c`. -/
def cutChars (c : Char) : List Char → Option (List Char × List Char)
  | [] => none
  | d :: rest => if d = c then some ([], rest) else (cutChars c rest).map fun (a, b) => (d :: a, b)

/-- The characters before and after the last `c`. -/
def cutLastChars (c : Char) (cs : List Char) : Option (List Char × List Char) :=
  (cutChars c cs.reverse).map fun (after, before) => (before.reverse, after.reverse)

/-- Whether `part` occurs in `cs`. -/
def containsChars (part : List Char) : List Char → Bool
  | [] => part.isEmpty
  | c :: rest => part.isPrefixOf (c :: rest) || containsChars part rest

/-- Whether `part` occurs in `s`. -/
def contains (s part : String) : Bool := containsChars part.toList s.toList

end Sift.Text
