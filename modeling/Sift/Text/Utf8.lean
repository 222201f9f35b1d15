/-!
# Byte strings and their code points

A text is a list of bytes that need not be valid UTF-8. Decoding reads it from the left; a byte
that does not begin a valid sequence stands for the replacement character, alone.
-/

namespace Sift

/-- A text as it is stored. -/
abbrev Bytes := List UInt8

namespace Utf8

/-- What decoding finds at one place of a text. -/
structure Rune where
  code : Nat
  width : Nat
  valid : Bool
  deriving DecidableEq, Repr

/-- The replacement character. -/
def replacement : Nat := 0xFFFD

/-- A byte that begins no valid sequence. -/
def invalidRune : Rune := ⟨replacement, 1, false⟩

/-- Whether `b` continues a sequence. -/
def isTail (b : UInt8) : Bool := 0x80 ≤ b && b ≤ 0xBF

/-- The six bits a continuation byte carries. -/
def tailBits (b : UInt8) : Nat := b.toNat - 0x80

/-- Decodes the sequence that begins with `b`. -/
def head (b : UInt8) (rest : Bytes) : Rune :=
  if b < 0x80 then ⟨b.toNat, 1, true⟩
  else if 0xC2 ≤ b && b ≤ 0xDF then
    match rest with
    | b1 :: _ =>
      if isTail b1 then ⟨(b.toNat - 0xC0) * 64 + tailBits b1, 2, true⟩ else invalidRune
    | [] => invalidRune
  else if 0xE0 ≤ b && b ≤ 0xEF then
    match rest with
    | b1 :: b2 :: _ =>
      let low : UInt8 := if b == 0xE0 then 0xA0 else 0x80
      let high : UInt8 := if b == 0xED then 0x9F else 0xBF
      if low ≤ b1 && b1 ≤ high && isTail b2 then
        ⟨(b.toNat - 0xE0) * 4096 + tailBits b1 * 64 + tailBits b2, 3, true⟩
      else invalidRune
    | _ => invalidRune
  else if 0xF0 ≤ b && b ≤ 0xF4 then
    match rest with
    | b1 :: b2 :: b3 :: _ =>
      let low : UInt8 := if b == 0xF0 then 0x90 else 0x80
      let high : UInt8 := if b == 0xF4 then 0x8F else 0xBF
      if low ≤ b1 && b1 ≤ high && isTail b2 && isTail b3 then
        ⟨(b.toNat - 0xF0) * 262144 + tailBits b1 * 4096 + tailBits b2 * 64 + tailBits b3, 4, true⟩
      else invalidRune
    | _ => invalidRune
  else invalidRune

/-- Decodes a text whose first `skip` bytes belong to the sequence before it. -/
def runesAfter : Nat → Bytes → List Rune
  | _, [] => []
  | skip + 1, _ :: rest => runesAfter skip rest
  | 0, b :: rest =>
    let rune := head b rest
    rune :: runesAfter (rune.width - 1) rest

/-- The runes of a text. -/
def runes (text : Bytes) : List Rune := runesAfter 0 text

/-- The code points of a text, one replacement character for each invalid byte. -/
def codePoints (text : Bytes) : List Nat := (runes text).map (·.code)

/-- Whether the whole text is valid UTF-8. -/
def isValid (text : Bytes) : Bool := (runes text).all (·.valid)

/-- The bytes of a string. -/
def ofString (s : String) : Bytes := s.toUTF8.toList

/-- The string of a text, one replacement character for each invalid byte. -/
def toString (text : Bytes) : String :=
  String.ofList ((codePoints text).map Char.ofNat)

/-- Drops every invalid rune that follows another one. -/
def mergeInvalid : Bool → List Rune → List Nat
  | _, [] => []
  | afterInvalid, rune :: rest =>
    if rune.valid then rune.code :: mergeInvalid false rest
    else if afterInvalid then mergeInvalid true rest
    else replacement :: mergeInvalid true rest

/-- The string of a text, one replacement character for each run of invalid bytes. -/
def toValidString (text : Bytes) : String :=
  String.ofList ((mergeInvalid false (runes text)).map Char.ofNat)

end Utf8

end Sift
