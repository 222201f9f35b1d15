import Sift.Text.Utf8

/-!
# Tokens of YAML

A document is a row of tokens. Indentation shows up as tokens that begin and end block collections;
a key token stands in front of every key, also where only the colon after it tells that it is one.
-/

namespace Sift.Yaml

/-- A token. -/
inductive Token where
  | blockSequenceStart
  | blockMappingStart
  | blockEnd
  | blockEntry
  | key
  | value
  | flowSequenceStart
  | flowSequenceEnd
  | flowMappingStart
  | flowMappingEnd
  | flowEntry
  | documentStart
  | documentEnd
  /-- The directive that gives the version of the language. -/
  | version (major minor : Nat)
  /-- The directive that gives a handle of tags and what it stands for. -/
  | tagHandle (handle lead : String)
  | alias (name : String)
  | anchor (name : String)
  | tag (handle suffix : String)
  | scalar (plain : Bool) (text : String)
  /-- The end of the text. -/
  | finish
  /-- Text that is no token. -/
  | invalid
  deriving DecidableEq, Repr

/-- Whether a character ends a line. -/
def isBreak (c : Char) : Bool :=
  c = '\n' || c = '\r' || c.toNat = 0x85 || c.toNat = 0x2028 || c.toNat = 0x2029

/-- Whether a character is a space or a tab. -/
def isBlank (c : Char) : Bool := c = ' ' || c = '\t'

/-- Whether a character is a letter, a digit, a low line or a hyphen. -/
def isWord (c : Char) : Bool := c.isAlphanum || c = '_' || c = '-'

/-- Whether a character may occur at all. -/
def isAllowed (c : Char) : Bool :=
  c = '\t' || c = '\n' || c = '\r' || (0x20 ≤ c.toNat && c.toNat ≤ 0x7e) || c.toNat = 0x85 ||
    (0xa0 ≤ c.toNat && c.toNat ≤ 0xd7ff) || (0xe000 ≤ c.toNat && c.toNat ≤ 0xfffd) || 0x10000 ≤ c.toNat

/-- The mark that may stand at the front of a text or of a line. -/
def byteOrderMark : Char := Char.ofNat 0xfeff

/-! ## Places in a text -/

/-- What is left of a text, and where it begins. -/
structure Cursor where
  rest : List Char
  line : Nat := 0
  column : Nat := 0
  /-- How many characters came before. -/
  index : Nat := 0

namespace Cursor

/-- The character `n` places on. -/
def peek (cursor : Cursor) (n : Nat) : Option Char := cursor.rest[n]?

/-- Whether there is a certain character here. -/
def at? (cursor : Cursor) (c : Char) : Bool := cursor.peek 0 = some c

/-- Whether a line ends `n` places on, or the text. -/
def breakAt (cursor : Cursor) (n : Nat) : Bool := (cursor.peek n).all isBreak

/-- Whether there is a blank `n` places on, or a line ends there. -/
def blankAt (cursor : Cursor) (n : Nat) : Bool :=
  (cursor.peek n).all fun c => isBlank c || isBreak c

/-- Passes over a character. -/
def skip (cursor : Cursor) : Cursor :=
  { cursor with rest := cursor.rest.tail, column := cursor.column + 1, index := cursor.index + 1 }

/-- Passes over characters. -/
def skipMany (cursor : Cursor) : Nat → Cursor
  | 0 => cursor
  | n + 1 => cursor.skip.skipMany n

/-- Passes over the end of a line; says what it stands for. -/
def skipLine (cursor : Cursor) : String × Cursor :=
  match cursor.rest with
  | '\r' :: '\n' :: rest => ("\n", ⟨rest, cursor.line + 1, 0, cursor.index + 2⟩)
  | c :: rest =>
    let shown := if c.toNat = 0x2028 || c.toNat = 0x2029 then String.singleton c else "\n"
    (shown, ⟨rest, cursor.line + 1, 0, cursor.index + 1⟩)
  | [] => ("", cursor)

/-- Passes over characters as long as a test holds; `fuel` bounds their number. -/
def skipWhile (p : Char → Bool) : Nat → Cursor → Cursor
  | 0, cursor => cursor
  | fuel + 1, cursor => if (cursor.peek 0).any p then skipWhile p fuel cursor.skip else cursor

/-- Passes over the rest of a line. -/
def skipToBreak (cursor : Cursor) : Cursor :=
  skipWhile (fun c => !isBreak c) cursor.rest.length cursor

/-- Passes over blanks. -/
def skipBlanks (cursor : Cursor) : Cursor := skipWhile isBlank cursor.rest.length cursor

/-- Whether a line with a document marker begins here. -/
def atMarker (cursor : Cursor) : Bool :=
  cursor.column = 0 && (['-', '-', '-'].isPrefixOf cursor.rest || ['.', '.', '.'].isPrefixOf cursor.rest) &&
    cursor.blankAt 3

end Cursor

end Sift.Yaml
