import Sift.Unicode.Category
import Sift.Text.Utf8

/-!
# Quoted strings

A string between double quotes on one line, as error messages show it. Printable characters stand
for themselves; the others are escaped.
-/

namespace Sift.Text

/-- `digits` hexadecimal digits of `n`, padded with zeros. -/
def hex (digits n : Nat) : String :=
  let shown := Nat.toDigits 16 n
  String.ofList (List.replicate (digits - shown.length) '0' ++ shown)

/-- One character inside a quoted string. -/
def quoteChar (c : Char) : String :=
  if c = '"' then "\\\""
  else if c = '\\' then "\\\\"
  else if Unicode.isPrintable c.toNat then String.singleton c
  else if c.toNat = 7 then "\\a"
  else if c.toNat = 8 then "\\b"
  else if c.toNat = 12 then "\\f"
  else if c.toNat = 10 then "\\n"
  else if c.toNat = 13 then "\\r"
  else if c.toNat = 9 then "\\t"
  else if c.toNat = 11 then "\\v"
  else if c.toNat < 32 || c.toNat = 127 then "\\x" ++ hex 2 c.toNat
  else if c.toNat < 0x10000 then "\\u" ++ hex 4 c.toNat
  else "\\U" ++ hex 8 c.toNat

/-- A string between double quotes. -/
def quote (s : String) : String :=
  "\"" ++ String.join (s.toList.map quoteChar) ++ "\""

/-- One code point inside a quoted string; a byte that is not UTF-8 is shown by its digits. -/
def quoteRune (byte : UInt8) (rune : Utf8.Rune) : String :=
  if rune.valid then quoteChar (Char.ofNat rune.code) else "\\x" ++ hex 2 byte.toNat

/-- Stored text between double quotes, its first `skip` bytes left out. -/
def quoteBytesAfter : Nat → Bytes → String
  | _, [] => ""
  | skip + 1, _ :: rest => quoteBytesAfter skip rest
  | 0, b :: rest =>
    let rune := Utf8.head b rest
    quoteRune b rune ++ quoteBytesAfter (rune.width - 1) rest

/-- Stored text between double quotes. -/
def quoteBytes (text : Bytes) : String := "\"" ++ quoteBytesAfter 0 text ++ "\""

end Sift.Text
