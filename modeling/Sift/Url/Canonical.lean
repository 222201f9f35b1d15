import Sift.Url

/-!
# Canonical URLs

Reading a URL and writing it again gives a form in which everything that has to be escaped is. A
path or fragment that was escaped more than it has to be stays as it was.
-/

namespace Sift.Url

/-- A byte as an escape. -/
def escapeByte (byte : UInt8) : String := "%" ++ (Text.hex 2 byte.toNat).toUpper

/-- Escapes the bytes that may not stand as they are. -/
def escape (plain : UInt8 → Bool) (bytes : Bytes) : String :=
  String.join (bytes.map fun byte =>
    if plain byte then String.singleton (Char.ofNat byte.toNat) else escapeByte byte)

/-- Whether a byte is a letter, a digit or one of the given characters. -/
def plainBut (others : String) (byte : UInt8) : Bool :=
  let c := Char.ofNat byte.toNat
  byte < 0x80 && (isAlnum c || others.toList.contains c)

/-- Bytes that stand as they are in a path. -/
def plainInPath : UInt8 → Bool := plainBut "-_.~$&+,/:;=@"

/-- Bytes that stand as they are in a fragment. -/
def plainInFragment : UInt8 → Bool := plainBut "-_.~$&+,/:;=?@!()*"

/-- Bytes that stand as they are in a user's name. -/
def plainInUser : UInt8 → Bool := plainBut "-_.~$&+,;="

/-- Bytes that are left alone where they were written. -/
def toleratedByte (plain : UInt8 → Bool) (byte : UInt8) : Bool :=
  plain byte || plainBut "!$&'()*+,;=:@[]%" byte

/-- Writes an escaped part anew. -/
def canonicalPart (plain : UInt8 → Bool) (part : List Char) : Except Fault String := do
  let bytes := Utf8.ofString (String.ofList part)
  let decoded ← unescape .path bytes
  if bytes.all (toleratedByte plain) then return String.ofList part
  else return escape plain decoded

/-- Writes the user of a URL anew. -/
def canonicalUser (user : List Char) : Except Fault String := do
  let write (part : List Char) : Except Fault String := do
    let bytes ← unescape .user (Utf8.ofString (String.ofList part))
    return escape plainInUser bytes
  match Text.cutChars ':' user with
  | none => return (← write user) ++ "@"
  | some (name, secret) => return (← write name) ++ ":" ++ (← write secret) ++ "@"

/-- Writes user and host anew. -/
def canonicalAuthority (authority : List Char) : Except Fault (Option String) := do
  let host ← readAuthority authority
  if host = "" then return none
  let hostText := escape (fun byte => byte < 0x80 && plainInHost byte) (Utf8.ofString host)
  match Text.cutLastChars '@' authority with
  | none => return some hostText
  | some (user, _) => return some ((← canonicalUser user) ++ hostText)

/-- Writes a URL anew, if it has a scheme and a host. -/
def canonical? (url : String) : Option String :=
  let (main, fragment) := (Text.cutChars '#' url.toList).getD (url.toList, [])
  let result : Except Fault (Option String) := do
    if main.any fun c => c.toNat < 32 || c.toNat = 127 then throw .controlCharacter
    let (scheme, rest) ← splitScheme main
    let (rest, query) :=
      match Text.cutChars '?' rest with
      | some (rest, query) => (rest, "?" ++ String.ofList query)
      | none => (rest, "")
    match scheme, rest with
    | _ :: _, '/' :: '/' :: more =>
      let authority ← canonicalAuthority (more.takeWhile (· ≠ '/'))
      let path ← canonicalPart plainInPath (more.dropWhile (· ≠ '/'))
      let fragment ← canonicalPart plainInFragment fragment
      let tail := if fragment = "" then "" else "#" ++ fragment
      return authority.map fun authority =>
        (String.ofList scheme).toLower ++ "://" ++ authority ++ path ++ query ++ tail
    | _, _ => return none
  match result with
  | .ok text => text
  | .error _ => none

end Sift.Url
