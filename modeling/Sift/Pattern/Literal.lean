import Sift.Text.Quoted

/-!
# Literal text as a pattern

Escapes text so that, as a pattern, it stands for itself.
-/

namespace Sift.Pattern

/-- The characters with a meaning of their own. -/
def metaChars : List Char := "\\.+*?()|[]\x7b\x7d^$# ".toList

/-- One character as a pattern. -/
def escapeChar (c : Char) : List Char :=
  if Unicode.isPrintable c.toNat then
    if metaChars.contains c then ['\\', c] else [c]
  else if c.toNat = 7 then ['\\', 'a']
  else if c.toNat = 12 then ['\\', 'f']
  else if c.toNat = 10 then ['\\', 'n']
  else if c.toNat = 13 then ['\\', 'r']
  else if c.toNat = 9 then ['\\', 't']
  else if c.toNat = 11 then ['\\', 'v']
  else if c.toNat < 256 then '\\' :: 'x' :: (Text.hex 2 c.toNat).toList
  else '\\' :: 'u' :: Nat.toDigits 16 c.toNat

/-- Text as a pattern. -/
def literal (text : String) : String := String.ofList (text.toList.flatMap escapeChar)

end Sift.Pattern
