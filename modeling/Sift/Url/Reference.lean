import Sift.Url

/-!
# References

A reference is how a link is written: a URL, or a path that is read from where one is, and behind it a
fragment. Path and fragment are decoded to bytes.
-/

namespace Sift.Url

/-- The parts of a reference that are looked at. -/
structure Reference where
  scheme : String := ""
  /-- Host and port. -/
  authority : String := ""
  path : Bytes := []
  fragment : Bytes := []
  deriving DecidableEq, Repr

namespace Reference

/-- Resolves the percent escapes of a path or a fragment. -/
def decode (cs : List Char) : Except Fault Bytes := unescape .path (Utf8.ofString (String.ofList cs))

/-- Reads what stands before the fragment. -/
def readMain (main : List Char) : Except Fault Reference := do
  if main.any fun c => c.toNat < 32 || c.toNat = 127 then throw .controlCharacter
  if main = ['*'] then return { path := Utf8.ofString "*" }
  let (scheme, rest) ← splitScheme main
  let scheme := (String.ofList scheme).toLower
  let rest := rest.takeWhile (· ≠ '?')
  match rest with
  | '/' :: '/' :: more =>
    if scheme = "" && more.head? = some '/' then return { path := ← decode rest }
    else
      let authority ← readAuthority (more.takeWhile (· ≠ '/'))
      return { scheme, authority, path := ← decode (more.dropWhile (· ≠ '/')) }
  | '/' :: _ => return { scheme, path := ← decode rest }
  | _ =>
    if scheme ≠ "" then return { scheme }
    else if (rest.takeWhile (· ≠ '/')).contains ':' then throw .colonInFirstSegment
    else return { path := ← decode rest }

/-- Reads a reference. What stands behind the first `#` is its fragment. -/
def parse (text : String) : Except Fault Reference := do
  let (main, fragment) := (Text.cutChars '#' text.toList).getD (text.toList, [])
  let reference ← readMain main
  return { reference with fragment := ← decode fragment }

end Reference

end Sift.Url
