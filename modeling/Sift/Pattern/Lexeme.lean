import Sift.Pattern.Error
import Sift.Pattern.CharClass

/-!
# The small pieces of pattern syntax

Numbers, names, escapes, properties, comments and character classes. Each function reads from the
front of what is left of the pattern and returns the rest.
-/

namespace Sift.Pattern

/-- Whether a character may be part of a group name. -/
def isNameChar (c : Char) : Bool := Unicode.isWord c.toNat

/-- Whether a character is an ASCII digit. -/
def isDigit (c : Char) : Bool := '0' ≤ c && c ≤ '9'

/-- The value of a hexadecimal digit. -/
def hexDigit? (c : Char) : Option Nat :=
  if isDigit c then some (c.toNat - '0'.toNat)
  else if 'a' ≤ c && c ≤ 'f' then some (c.toNat - 'a'.toNat + 10)
  else if 'A' ≤ c && c ≤ 'F' then some (c.toNat - 'A'.toNat + 10)
  else none

/-- The character with a code, the replacement character if there is none. -/
def charOfCode (code : Nat) : Char :=
  if code.isValidChar then Char.ofNat code else Char.ofNat 0xFFFD

/-- The greatest number that may be written. -/
def numberLimit : Nat := 2147483647

/-- Reads digits onto `value`. -/
def decimalFrom (value : Nat) : List Char → Except SyntaxError (Nat × List Char)
  | [] => .ok (value, [])
  | c :: rest =>
    if isDigit c then
      let next := value * 10 + (c.toNat - '0'.toNat)
      if numberLimit < next then .error .groupOutOfRange else decimalFrom next rest
    else .ok (value, c :: rest)

/-- Reads a number, zero if there are no digits. -/
def decimal (rest : List Char) : Except SyntaxError (Nat × List Char) := decimalFrom 0 rest

/-- Reads a name, which may be empty. -/
def name (rest : List Char) : String × List Char :=
  (String.ofList (rest.takeWhile isNameChar), rest.dropWhile isNameChar)

/-- Reads exactly `count` hexadecimal digits onto `value`. -/
def hexDigits (value : Nat) : Nat → List Char → Except SyntaxError (Nat × List Char)
  | 0, rest => .ok (value, rest)
  | count + 1, c :: rest =>
    match hexDigit? c with
    | some digit => hexDigits (value * 16 + digit) count rest
    | none => .error .tooFewHexDigits
  | _ + 1, [] => .error .tooFewHexDigits

/-- Reads hexadecimal digits up to a closing brace. -/
def bracedHex (value : Nat) (some? : Bool) : List Char → Except SyntaxError (Nat × List Char)
  | [] => .error .missingBrace
  | c :: rest =>
    if c = '}' then if some? then .ok (value, rest) else .error .tooFewHexDigits
    else
      match hexDigit? c with
      | none => .error .missingBrace
      | some digit =>
        if 0x10FFFF < value * 16 + digit then .error .hexTooLarge
        else bracedHex (value * 16 + digit) true rest

/-- Reads up to `count` octal digits onto `value`. -/
def octalDigits (value : Nat) : Nat → List Char → Nat × List Char
  | 0, rest => (value % 256, rest)
  | count + 1, c :: rest =>
    if '0' ≤ c && c ≤ '7' then octalDigits (value * 8 + (c.toNat - '0'.toNat)) count rest
    else (value % 256, c :: rest)
  | _ + 1, [] => (value % 256, [])

/-- Reads the control character named by a letter. -/
def control : List Char → Except SyntaxError (Nat × List Char)
  | [] => .error .missingControl
  | c :: rest =>
    let upper := if 'a' ≤ c && c ≤ 'z' then c.toNat - 32 else c.toNat
    if 64 ≤ upper && upper < 96 then .ok (upper - 64, rest) else .error .unrecognizedControl

/-- Reads, after a backslash, an escape that stands for one character. -/
def charEscape : List Char → Except SyntaxError (Nat × List Char)
  | [] => .error .escapeAtEnd
  | c :: rest =>
    if '0' ≤ c && c ≤ '7' then .ok (octalDigits 0 3 (c :: rest))
    else
      match c with
      | 'x' =>
        match rest with
        | '{' :: inner => bracedHex 0 false inner
        | _ => hexDigits 0 2 rest
      | 'u' => hexDigits 0 4 rest
      | 'a' => .ok (7, rest)
      | 'b' => .ok (8, rest)
      | 'e' => .ok (27, rest)
      | 'f' => .ok (12, rest)
      | 'n' => .ok (10, rest)
      | 'r' => .ok (13, rest)
      | 't' => .ok (9, rest)
      | 'v' => .ok (11, rest)
      | 'c' => control rest
      | _ => if isNameChar c then .error (.unrecognizedEscape c) else .ok (c.toNat, rest)

/-- Looks a category, script or property up. -/
def propertyNamed (name : String) : Except SyntaxError (String × Unicode.Ranges) :=
  match Unicode.namedRanges? name with
  | some ranges => .ok (name, ranges)
  | none => .error (.unknownProperty name)

/-- Reads the name of a property: one letter, or a name in braces. -/
def property : List Char → Except SyntaxError ((String × Unicode.Ranges) × List Char)
  | '{' :: a :: b :: more => do
    let inner := a :: b :: more
    let isPropertyChar := fun c => isNameChar c || c = '-'
    match inner.dropWhile isPropertyChar with
    | '}' :: rest =>
      let found ← propertyNamed (String.ofList (inner.takeWhile isPropertyChar))
      return (found, rest)
    | _ => .error .incompleteProperty
  | '{' :: _ => .error .incompleteProperty
  | c :: rest => do
    let found ← propertyNamed (String.singleton c)
    return (found, rest)
  | [] => .error .incompleteProperty

/-- White space that an extended pattern skips. -/
def isPatternBlank (c : Char) : Bool := (9 ≤ c.toNat && c.toNat ≤ 13) || c = ' '

/-- Where skipping stands. -/
inductive Skipping where
  | between
  | line
  | comment

/-- Skips comments and, in an extended pattern, white space and line comments. -/
def skipFrom (extended : Bool) : Skipping → List Char → Except SyntaxError (List Char)
  | .between, [] => .ok []
  | .between, '(' :: '?' :: '#' :: rest => skipFrom extended .comment rest
  | .between, c :: rest =>
    if extended && isPatternBlank c then skipFrom extended .between rest
    else if extended && c = '#' then skipFrom extended .line rest
    else .ok (c :: rest)
  | .line, [] => .ok []
  | .line, c :: rest =>
    if c = '\n' then skipFrom extended .between rest else skipFrom extended .line rest
  | .comment, [] => .error .unterminatedComment
  | .comment, c :: rest =>
    if c = ')' then skipFrom extended .between rest else skipFrom extended .comment rest

/-- Skips what does not belong to the pattern itself. -/
def skipBlank (extended : Bool) (rest : List Char) : Except SyntaxError (List Char) :=
  skipFrom extended .between rest

/-- Passes over a bracketed class name such as `[:alpha:]`, which has no meaning of its own. -/
def skipClassName (rest : List Char) : List Char :=
  match rest with
  | ':' :: inner =>
    let inner' :=
      match inner with
      | '^' :: c :: more => c :: more
      | _ => inner
    match inner'.dropWhile isNameChar with
    | ':' :: ']' :: after => after
    | _ => rest
  | _ => rest

/-- A class as far as it has been read. -/
structure ClassDraft where
  layer : Layer := {}
  without : List Layer := []
  /-- The first end of a range whose second end is still to come. -/
  pending : Option Nat := none
  atFirst : Bool := true

/-- The class a finished draft stands for. -/
def ClassDraft.close (draft : ClassDraft) (ignoreCase : Bool) : CharClass :=
  ⟨if ignoreCase then draft.layer.lowered else draft.layer, draft.without⟩

/-- An element of a class that is being read. -/
inductive ClassElement where
  | category (letter : Char) (category : Category)
  | named (letter : Char) (name : String) (ranges : Unicode.Ranges) (negated : Bool)
  | hyphen
  | code (code : Nat) (escaped : Bool)

/-- Reads one element of a class; an opening bracket may be followed by a class name. -/
def classElement (inRange : Bool) : List Char → Except SyntaxError (ClassElement × List Char)
  | [] => .error .unterminatedClass
  | '\\' :: letter :: rest =>
    match letter with
    | 'd' => .ok (.category letter (.digit false), rest)
    | 'D' => .ok (.category letter (.digit true), rest)
    | 's' => .ok (.category letter (.space false), rest)
    | 'S' => .ok (.category letter (.space true), rest)
    | 'w' => .ok (.category letter (.word false), rest)
    | 'W' => .ok (.category letter (.word true), rest)
    | 'p' | 'P' =>
      if inRange then .error (.classInRange letter.toNat)
      else do
        let (found, rest') ← property rest
        return (.named letter found.1 found.2 (letter = 'P'), rest')
    | '-' => .ok (.hyphen, rest)
    | _ => do
      let (code, rest') ← charEscape (letter :: rest)
      return (.code code true, rest')
  | '[' :: rest => .ok (.code '['.toNat false, if inRange then rest else skipClassName rest)
  | c :: rest => .ok (.code c.toNat false, rest)

/-- Drops a circumflex and says whether there was one. -/
def classNegation : List Char → Bool × List Char
  | '^' :: rest => (true, rest)
  | rest => (false, rest)

/-- Reads a class up to and including its closing bracket. Every round reads a character, so the
length of the pattern bounds `fuel`. -/
def charClassFrom (ignoreCase : Bool) : Nat → ClassDraft → List Char →
    Except SyntaxError (CharClass × List Char)
  | 0, _, _ => .error .unterminatedClass
  | fuel + 1, draft, rest =>
    match draft.atFirst, rest with
    | false, ']' :: after => .ok (draft.close ignoreCase, after)
    | _, _ => do
      let (element, rest) ← classElement draft.pending.isSome rest
      let later := { draft with atFirst := false }
      match element with
      | .hyphen =>
        charClassFrom ignoreCase fuel { later with layer := draft.layer.addRange 45 45 } rest
      | .category letter category =>
        if draft.pending.isSome then .error (.classInRange letter.toNat)
        else
          charClassFrom ignoreCase fuel { later with layer := draft.layer.addCategory category } rest
      | .named _ name ranges negated =>
        charClassFrom ignoreCase fuel
          { later with layer := draft.layer.addNamed name ranges negated ignoreCase } rest
      | .code code escaped =>
        let opensClass := code == '['.toNat && !escaped && !draft.atFirst
        match draft.pending with
        | some first =>
          if opensClass then
            subtract fuel { later with layer := draft.layer.addRange first first, pending := none } rest
          else if code < first then
            .error (.reversedRange (charOfCode first) (charOfCode code))
          else
            charClassFrom ignoreCase fuel
              { later with layer := draft.layer.addRange first code, pending := none } rest
        | none =>
          match rest with
          | '-' :: c :: after =>
            if c = ']' then
              charClassFrom ignoreCase fuel { later with layer := draft.layer.addRange code code } rest
            else charClassFrom ignoreCase fuel { later with pending := some code } (c :: after)
          | '[' :: after =>
            if code == '-'.toNat && !escaped && !draft.atFirst then subtract fuel later after
            else
              charClassFrom ignoreCase fuel { later with layer := draft.layer.addRange code code } rest
          | _ =>
            charClassFrom ignoreCase fuel { later with layer := draft.layer.addRange code code } rest
where
  /-- Reads the class taken away, which must be the last element. -/
  subtract (fuel : Nat) (draft : ClassDraft) (rest : List Char) :
      Except SyntaxError (CharClass × List Char) :=
    match fuel with
    | 0 => .error .unterminatedClass
    | fuel + 1 => do
      let (negated, rest) := classNegation rest
      let (inner, rest) ← charClassFrom ignoreCase fuel { layer := { negated := negated } } rest
      match rest with
      | ']' :: _ | [] =>
        charClassFrom ignoreCase fuel { draft with without := inner.layer :: inner.without } rest
      | _ => .error .subtractionNotLast

/-- Reads a class whose opening bracket has been read. -/
def charClass (ignoreCase : Bool) (rest : List Char) : Except SyntaxError (CharClass × List Char) :=
  let (negated, rest') := classNegation rest
  charClassFrom ignoreCase (rest.length + 1) { layer := { negated := negated } } rest'

end Sift.Pattern
