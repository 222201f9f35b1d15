import Sift.Text.Utf8

/-!
# Texts prepared for a search

Patterns are matched against code points, and everything is reported in bytes. A document holds a
text with both views of it, and knows its lines. A table leads from code points to bytes, unless each
code point takes one byte.
-/

namespace Sift

/-- A text with its code points. -/
structure Document where
  bytes : Bytes
  codes : Array Nat
  /-- The offset of each code point, and the length of the text at the end. There is no table where
  the text has as many code points as bytes. -/
  offsets : Option (Array Nat)
  /-- The offsets of the line breaks. -/
  newlines : List Nat
  size : Nat

namespace Document

/-- The offsets of runes that begin at `offset`, and of their end. -/
def offsetsFrom (offset : Nat) : List Utf8.Rune → List Nat
  | [] => [offset]
  | rune :: rest => offset :: offsetsFrom (offset + rune.width) rest

/-- The offsets of line breaks in a text that begins at `offset`. -/
def newlinesFrom (offset : Nat) : Bytes → List Nat
  | [] => []
  | b :: rest => if b = 10 then offset :: newlinesFrom (offset + 1) rest else newlinesFrom (offset + 1) rest

/-- Prepares a text. -/
def ofBytes (bytes : Bytes) : Document :=
  let runes := Utf8.runes bytes
  { bytes
    codes := (runes.map (·.code)).toArray
    offsets := if runes.length = bytes.length then none else some (offsetsFrom 0 runes).toArray
    newlines := newlinesFrom 0 bytes
    size := bytes.length }

/-- The byte at which a code point begins. -/
def byteOffset (doc : Document) (place : Nat) : Nat :=
  match doc.offsets with
  | none => place
  | some table => (table[place]?).getD doc.size

/-- The byte at which a place lies that may be beside the text. Without a table each place is its own
offset; a table has nothing for a place before the text. -/
def placeOffset? (doc : Document) (place : Int) : Option Int :=
  match doc.offsets with
  | none => some place
  | some _ => if 0 ≤ place then some (doc.byteOffset place.toNat) else none

/-- The line breaks before an offset. -/
def newlinesBefore (doc : Document) (offset : Nat) : List Nat :=
  doc.newlines.takeWhile (· < offset)

/-- The line of an offset, counted from zero. -/
def lineOf (doc : Document) (offset : Nat) : Nat := (doc.newlinesBefore offset).length

/-- Where the line of an offset begins. -/
def lineStart (doc : Document) (offset : Nat) : Nat :=
  match (doc.newlinesBefore offset).getLast? with
  | some newline => newline + 1
  | none => 0

/-- Where the line of an offset ends, its line break not included. -/
def lineEnd (doc : Document) (offset : Nat) : Nat :=
  (doc.newlines.find? (offset ≤ ·)).getD doc.size

/-- The bytes from `start` up to `stop`. -/
def slice (doc : Document) (start stop : Nat) : Bytes := (doc.bytes.drop start).take (stop - start)

/-- The bytes from `start` up to `stop`, if the text has them. -/
def slice? (doc : Document) (start stop : Int) : Option Bytes :=
  if 0 ≤ start ∧ start ≤ stop ∧ stop ≤ doc.size then some (doc.slice start.toNat stop.toNat) else none

end Document

end Sift
