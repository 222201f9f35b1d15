import Sift.Url.Address

/-!
# Absolute URLs

A URL is divided into scheme, user, host and path, and percent escapes are resolved. It must either
begin with a scheme or with a slash; a fragment is not set apart.
-/

namespace Sift

/-- The parts of a URL that are looked at. -/
structure Url where
  scheme : String
  /-- Host and port. -/
  authority : String
  path : String
  deriving DecidableEq, Repr

namespace Url

/-- Why a URL cannot be read. -/
inductive Fault where
  | controlCharacter
  | empty
  | missingScheme
  | notAbsolute
  | colonInFirstSegment
  | invalidUser
  | missingBracket
  | invalidPort (port : String)
  | invalidEscape (escape : Bytes)
  | invalidHostChar (byte : UInt8)
  | invalidAddress (address : String) (fault : Address.Fault)
  | invalidLiteral
  deriving DecidableEq, Repr

/-- A fault in words. -/
def Fault.text : Fault → String
  | controlCharacter => "net/url: invalid control character in URL"
  | empty => "empty url"
  | missingScheme => "missing protocol scheme"
  | notAbsolute => "invalid URI for request"
  | colonInFirstSegment => "first path segment in URL cannot contain colon"
  | invalidUser => "net/url: invalid userinfo"
  | missingBracket => "missing ']' in host"
  | invalidPort port => "invalid port " ++ Text.quote port ++ " after host"
  | invalidEscape escape => "invalid URL escape " ++ Text.quoteBytes escape
  | invalidHostChar byte => "invalid character " ++ Text.quoteBytes [byte] ++ " in host name"
  | invalidAddress address fault => "invalid host: " ++ fault.message address
  | invalidLiteral => "invalid IP-literal"

/-- The message for a fault in `url`. -/
def Fault.message (url : String) (fault : Fault) : String :=
  "parse " ++ Text.quote url ++ ": " ++ fault.text

/-- Which rules an escaped part follows. -/
inductive Part where
  | path
  | user
  | host
  | zone
  deriving DecidableEq, Repr

/-- Letters and digits. -/
def isAlnum (c : Char) : Bool := c.isAlpha || c.isDigit

/-- Whether an ASCII byte may stand in a host unescaped. -/
def plainInHost (byte : UInt8) : Bool :=
  let c := Char.ofNat byte.toNat
  isAlnum c || "!$&'()*+,;=:[]<>\"-_.~".toList.contains c

/-- Whether an escape of `byte` is allowed in a part. In a host only bytes outside ASCII and the
percent sign are escaped. -/
def escapeAllowed (part : Part) (byte : UInt8) : Bool :=
  match part with
  | .host => 0x80 ≤ byte || byte = 37
  | .zone => byte = 37 || byte = 32 || (byte < 0x80 && plainInHost byte)
  | _ => true

/-- The byte that two hexadecimal digits stand for. -/
def escapedByte? (high low : UInt8) : Option UInt8 := do
  let high ← Pattern.hexDigit? (Char.ofNat high.toNat)
  let low ← Pattern.hexDigit? (Char.ofNat low.toNat)
  return UInt8.ofNat (high * 16 + low)

/-- Resolves the percent escapes of a part. -/
def unescape (part : Part) : Bytes → Except Fault Bytes
  | [] => .ok []
  | b :: rest =>
    if b = 37 then
      match rest with
      | high :: low :: rest' =>
        match escapedByte? high low with
        | none => .error (.invalidEscape [b, high, low])
        | some byte =>
          if escapeAllowed part byte then (unescape part rest').map (byte :: ·)
          else .error (.invalidEscape [b, high, low])
      | _ => .error (.invalidEscape (b :: rest))
    else if (part = .host || part = .zone) && b < 0x80 && !plainInHost b then
      .error (.invalidHostChar b)
    else (unescape part rest).map (b :: ·)

/-- Resolves the percent escapes of a part given by its characters. -/
def unescapeChars (part : Part) (cs : List Char) : Except Fault String :=
  (unescape part (Utf8.ofString (String.ofList cs))).map Utf8.toString

/-- Whether characters are empty or a port with its colon. -/
def isPort : List Char → Bool
  | [] => true
  | c :: rest => c = ':' && rest.all Pattern.isDigit

/-- Reads a host that holds an opening bracket. -/
def literalHost (host : List Char) : Except Fault String := do
  match Text.cutLastChars ']' host with
  | none => throw .missingBracket
  | some (before, port) =>
    if !isPort port then throw (.invalidPort (String.ofList port))
    match before with
    | '[' :: inside =>
      let cut := (inside.findIdx? (· = '%')).getD inside.length
      let address ← unescapeChars .host (inside.take cut)
      let zone ← unescapeChars .zone (inside.drop cut)
      let whole := address ++ zone
      match Address.check whole with
      | .error fault => throw (.invalidAddress whole fault)
      | .ok true => throw .invalidLiteral
      | .ok false => return "[" ++ whole ++ "]" ++ String.ofList port
    | _ => throw .invalidLiteral

/-- Reads host and port. -/
def readHost (host : List Char) : Except Fault String := do
  if host.contains '[' then literalHost host
  else
    if let some (_, port) := Text.cutLastChars ':' host then
      if !isPort (':' :: port) then throw (.invalidPort (String.ofList (':' :: port)))
    unescapeChars .host host

/-- Whether a character may stand in the user part. -/
def isUserChar (c : Char) : Bool := isAlnum c || "-._:~!$&'()*+,;=%@".toList.contains c

/-- Reads what stands between the two slashes and the path. -/
def readAuthority (authority : List Char) : Except Fault String := do
  match Text.cutLastChars '@' authority with
  | none => readHost authority
  | some (user, host) =>
    let host ← readHost host
    if !user.all isUserChar then throw .invalidUser
    let _ ← unescapeChars .user user
    return host

/-- The scheme and what follows its colon. -/
def splitScheme (url : List Char) : Except Fault (List Char × List Char) :=
  let isSchemeChar := fun c => isAlnum c || c = '+' || c = '-' || c = '.'
  match url.takeWhile isSchemeChar, url.dropWhile isSchemeChar with
  | [], ':' :: _ => .error .missingScheme
  | first :: scheme, ':' :: rest =>
    if first.isAlpha then .ok (first :: scheme, rest) else .ok ([], url)
  | _, _ => .ok ([], url)

/-- Reads a URL. -/
def parse (url : String) : Except Fault Url := do
  let chars := url.toList
  if chars.any fun c => c.toNat < 32 || c.toNat = 127 then throw .controlCharacter
  if chars.isEmpty then throw .empty
  if url = "*" then return ⟨"", "", "*"⟩
  let (scheme, rest) ← splitScheme chars
  let scheme := (String.ofList scheme).toLower
  let rest := rest.takeWhile (· ≠ '?')
  match rest with
  | '/' :: '/' :: more =>
    if scheme = "" then
      return ⟨scheme, "", ← unescapeChars .path rest⟩
    else
      let authority ← readAuthority (more.takeWhile (· ≠ '/'))
      return ⟨scheme, authority, ← unescapeChars .path (more.dropWhile (· ≠ '/'))⟩
  | '/' :: _ => return ⟨scheme, "", ← unescapeChars .path rest⟩
  | _ => if scheme = "" then throw .notAbsolute else return ⟨scheme, "", ""⟩

/-- The host without port and brackets. -/
def host (url : Url) : String :=
  let cs := url.authority.toList
  let cs :=
    match Text.cutLastChars ':' cs with
    | some (host, port) => if isPort (':' :: port) then host else cs
    | none => cs
  match cs, cs.getLast? with
  | '[' :: inside, some ']' => String.ofList inside.dropLast
  | _, _ => String.ofList cs

end Url

end Sift
