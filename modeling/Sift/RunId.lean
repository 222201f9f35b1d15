import Sift.Text.Utf8

/-!
# Names of runs

A run is named by sixteen random bytes. Six bits of them say that they are random; the rest is as it
was drawn. They are written in hexadecimal, in five groups.
-/

namespace Sift.RunId

/-- A byte as two hexadecimal digits. -/
def hex (byte : UInt8) : String :=
  String.ofList [Nat.digitChar (byte.toNat / 16), Nat.digitChar (byte.toNat % 16)]

/-- Marks bytes as random: the seventh byte begins with 4, and the ninth with the bits 10. -/
def mark (bytes : List UInt8) : List UInt8 :=
  (bytes.modify 6 fun byte => (byte &&& 0x0f) ||| 0x40).modify 8 fun byte => (byte &&& 0x3f) ||| 0x80

/-- The bytes from one place to another, in hexadecimal. -/
def group (bytes : List UInt8) (start stop : Nat) : String :=
  String.join (((bytes.drop start).take (stop - start)).map hex)

/-- The name of a run from sixteen random bytes. -/
def ofBytes (random : List UInt8) : String :=
  let bytes := mark random
  "-".intercalate
    [group bytes 0 4, group bytes 4 6, group bytes 6 8, group bytes 8 10, group bytes 10 16]

end Sift.RunId
