import Sift.Pattern.Lexeme
import Sift.Text.Blank
import Sift.Text.Quoted

/-!
# Addresses in brackets

The host of a URL may be an address of eight groups of hexadecimal digits between brackets. One run
of zero groups may be left out, the last two groups may be written as four decimal numbers, and a
zone may follow a percent sign.
-/

namespace Sift.Url.Address

/-- Why an address cannot be read, and from where on. -/
structure Fault where
  text : String
  rest : List Char := []
  deriving DecidableEq, Repr

/-- A fault in words. -/
def Fault.message (address : String) (fault : Fault) : String :=
  let place := if fault.rest.isEmpty then "" else " (at " ++ Text.quote (String.ofList fault.rest) ++ ")"
  "ParseAddr(" ++ Text.quote address ++ "): " ++ fault.text ++ place

/-- Checks four decimal numbers from the given one on. `digits` counts the digits of the current
number, which is `value` so far. -/
def checkDecimal (count value digits : Nat) : List Char → Option Fault
  | [] =>
    if digits = 0 then some ⟨"IPv4 field must have at least one digit", []⟩
    else if count < 3 then some ⟨"IPv4 address too short", []⟩
    else none
  | c :: rest =>
    if Pattern.isDigit c then
      let value' := value * 10 + (c.toNat - '0'.toNat)
      if digits = 1 && value = 0 then some ⟨"IPv4 field has octet with leading zero", []⟩
      else if 255 < value' then some ⟨"IPv4 field has value >255", []⟩
      else checkDecimal count value' (digits + 1) rest
    else if c = '.' then
      if digits = 0 then some ⟨"IPv4 field must have at least one digit", c :: rest⟩
      else if rest.isEmpty then some ⟨"IPv4 field must have at least one digit", c :: rest⟩
      else if count = 3 then some ⟨"IPv4 address too long", []⟩
      else checkDecimal (count + 1) 0 0 rest
    else some ⟨"unexpected character", c :: rest⟩

/-- What the groups of an address come to. -/
structure Groups where
  /-- How many bytes they give. -/
  bytes : Nat
  /-- Whether a run of zeros was left out. -/
  gap : Bool
  /-- What was not read. -/
  rest : List Char

/-- Reads groups; `bytes` have been read, and every step reads at least one character. -/
def groupsFrom : Nat → Nat → Bool → List Char → Except Fault Groups
  | 0, bytes, gap, text => .ok ⟨bytes, gap, text⟩
  | fuel + 1, bytes, gap, text =>
    if 16 ≤ bytes then .ok ⟨bytes, gap, text⟩
    else
      let isHex := fun c => (Pattern.hexDigit? c).isSome
      let digits := text.takeWhile isHex
      let after := text.dropWhile isHex
      if 4 < digits.length then .error ⟨"each group must have 4 or less digits", text⟩
      else if digits.isEmpty then
        .error ⟨"each colon-separated field must have at least one digit", text⟩
      else
        match after with
        | [] => .ok ⟨bytes + 2, gap, []⟩
        | '.' :: _ =>
          if !gap && bytes ≠ 12 then
            .error ⟨"embedded IPv4 address must replace the final 2 fields of the address", text⟩
          else if 12 < bytes then
            .error ⟨"too many hex fields to fit an embedded IPv4 at the end of the address", text⟩
          else
            match checkDecimal 0 0 0 text with
            | some fault => .error fault
            | none => .ok ⟨bytes + 4, gap, []⟩
        | [':'] => .error ⟨"colon must be followed by more characters", after⟩
        | ':' :: ':' :: rest =>
          if gap then .error ⟨"multiple :: in address", ':' :: rest⟩
          else if rest.isEmpty then .ok ⟨bytes + 2, true, []⟩
          else groupsFrom fuel (bytes + 2) true rest
        | ':' :: rest => groupsFrom fuel (bytes + 2) gap rest
        | _ => .error ⟨"unexpected character, want colon", after⟩

/-- Checks the groups of an address. -/
def checkGroups (text : List Char) : Except Fault Unit := do
  match text with
  | [':', ':'] => return
  | _ =>
    let (gap, rest) :=
      match text with
      | ':' :: ':' :: rest => (true, rest)
      | _ => (false, text)
    let groups ← groupsFrom (rest.length + 1) 0 gap rest
    if !groups.rest.isEmpty then throw ⟨"trailing garbage after address", groups.rest⟩
    if groups.bytes < 16 && !groups.gap then throw ⟨"address string too short", []⟩
    if 16 ≤ groups.bytes && groups.gap then
      throw ⟨"the :: must expand to at least one field of zeros", []⟩

/-- Checks an address. The result tells whether it is one of four decimal numbers. -/
def check (address : String) : Except Fault Bool := do
  let chars := address.toList
  match chars.find? fun c => c = '.' || c = ':' || c = '%' with
  | some '.' =>
    match checkDecimal 0 0 0 chars with
    | some fault => throw fault
    | none => return true
  | some ':' =>
    match Text.cutChars '%' chars with
    | none => checkGroups chars; return false
    | some (_, []) => throw ⟨"zone must be a non-empty string", []⟩
    | some (groups, _) => checkGroups groups; return false
  | some _ => throw ⟨"missing IPv6 address", []⟩
  | none => throw ⟨"unable to parse IP", []⟩

end Sift.Url.Address
