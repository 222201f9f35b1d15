import Sift.Yaml.Token
import Sift.Pattern.Lexeme

/-!
# Texts of YAML scalars

The five ways to write a scalar: plain, between single or double quotes, and as a block that keeps or
folds its lines.
-/

namespace Sift.Yaml

/-- White space between two parts of a scalar: the blanks of a line, or line ends with what they
stand for. -/
structure Gap where
  blanks : String := ""
  /-- The first line end, if there is one. -/
  first : Option String := none
  /-- The other line ends. -/
  others : String := ""

namespace Gap

/-- Whether a line ends in the gap. -/
def hasBreak (gap : Gap) : Bool := gap.first.isSome

/-- What a gap comes to: a single line end is a space, the first of several is dropped. -/
def fold (gap : Gap) : String :=
  match gap.first with
  | none => gap.blanks
  | some first =>
    if first = "\n" then if gap.others = "" then " " else gap.others else first ++ gap.others

/-- Adds a line end. -/
def addBreak (gap : Gap) (shown : String) : Gap :=
  if gap.hasBreak then { gap with others := gap.others ++ shown }
  else { gap with blanks := "", first := some shown }

/-- Adds a blank; at the front of a line blanks do not count. -/
def addBlank (gap : Gap) (c : Char) : Gap :=
  if gap.hasBreak then gap else { gap with blanks := gap.blanks.push c }

end Gap

/-- Reads a gap. A tab in the indentation, before the column `indent`, is refused. -/
def gapAt (indent : Nat) : Nat → Gap → Cursor → Option (Gap × Cursor)
  | 0, gap, cursor => some (gap, cursor)
  | fuel + 1, gap, cursor =>
    match cursor.peek 0 with
    | none => some (gap, cursor)
    | some c =>
      if isBlank c then
        if gap.hasBreak && cursor.column < indent && c = '\t' then none
        else gapAt indent fuel (gap.addBlank c) cursor.skip
      else if isBreak c then
        let (shown, cursor) := cursor.skipLine
        gapAt indent fuel (gap.addBreak shown) cursor
      else some (gap, cursor)

/-! ## Plain scalars -/

/-- Whether a plain scalar ends at this character. -/
def endsPlain (inFlow : Bool) (cursor : Cursor) : Bool :=
  (cursor.at? ':' && cursor.blankAt 1) ||
    (inFlow && (cursor.peek 0).any fun c => [',', '?', '[', ']', '\x7b', '\x7d'].contains c)

/-- The characters of a plain scalar up to a blank; `read` is reversed. -/
def plainWord (inFlow : Bool) : Nat → List Char → Cursor → List Char × Cursor
  | 0, read, cursor => (read, cursor)
  | fuel + 1, read, cursor =>
    match cursor.peek 0 with
    | none => (read, cursor)
    | some c =>
      if isBlank c || isBreak c || endsPlain inFlow cursor then (read, cursor)
      else plainWord inFlow fuel (c :: read) cursor.skip

/-- A plain scalar: words with gaps between them. Lines that go on with it stand at the column
`indent` or farther right, unless the scalar is inside brackets. The flag says whether a line ends
after it. -/
def plainFrom (inFlow : Bool) (indent : Nat) :
    Nat → String → Gap → Cursor → Option (String × Bool × Cursor)
  | 0, _, _, _ => none
  | fuel + 1, text, gap, cursor =>
    let stop := some (text, gap.hasBreak, cursor)
    if cursor.atMarker || cursor.at? '#' then stop
    else
      let (word, next) := plainWord inFlow cursor.rest.length [] cursor
      if word.isEmpty then stop
      else
        let text := text ++ gap.fold ++ String.ofList word.reverse
        if !(next.peek 0).any fun c => isBlank c || isBreak c then some (text, false, next)
        else
          match gapAt indent next.rest.length {} next with
          | none => none
          | some (gap, next) =>
            if !inFlow && next.column < indent then some (text, gap.hasBreak, next)
            else plainFrom inFlow indent fuel text gap next

/-! ## Quoted scalars -/

/-- What a backslash and a letter stand for. -/
def escape? : Char → Option Char
  | '0' => some (Char.ofNat 0)
  | 'a' => some (Char.ofNat 7)
  | 'b' => some (Char.ofNat 8)
  | 't' => some '\t'
  | '\t' => some '\t'
  | 'n' => some '\n'
  | 'v' => some (Char.ofNat 11)
  | 'f' => some (Char.ofNat 12)
  | 'r' => some '\r'
  | 'e' => some (Char.ofNat 27)
  | ' ' => some ' '
  | '"' => some '"'
  | '\'' => some '\''
  | '\\' => some '\\'
  | 'N' => some (Char.ofNat 0x85)
  | '_' => some (Char.ofNat 0xa0)
  | 'L' => some (Char.ofNat 0x2028)
  | 'P' => some (Char.ofNat 0x2029)
  | _ => none

/-- How many hexadecimal digits follow a letter. -/
def escapeDigits? : Char → Option Nat
  | 'x' => some 2
  | 'u' => some 4
  | 'U' => some 8
  | _ => none

/-- A character by its code in hexadecimal digits. -/
def codeChar? (digits : List Char) : Option Char := do
  let values ← digits.mapM Pattern.hexDigit?
  let code := values.foldl (fun n d => n * 16 + d) 0
  if (0xd800 ≤ code && code ≤ 0xdfff) || 0x10ffff < code then none else some (Char.ofNat code)

/-- The characters of a quoted scalar up to a blank or the closing quote; `read` is reversed. The flag
says that an escaped line end was met. -/
def quotedWord (single : Bool) : Nat → List Char → Cursor → Option (List Char × Bool × Cursor)
  | 0, _, _ => none
  | fuel + 1, read, cursor =>
    match cursor.peek 0 with
    | none => some (read, false, cursor)
    | some c =>
      if isBlank c || isBreak c then some (read, false, cursor)
      else if single && c = '\'' then
        if cursor.peek 1 = some '\'' then quotedWord single fuel ('\'' :: read) (cursor.skipMany 2)
        else some (read, false, cursor)
      else if !single && c = '"' then some (read, false, cursor)
      else if !single && c = '\\' then
        match cursor.peek 1 with
        | none => none
        | some letter =>
          if isBreak letter then some (read, true, cursor.skip.skipLine.2)
          else
            match escape? letter, escapeDigits? letter with
            | some c, _ => quotedWord single fuel (c :: read) (cursor.skipMany 2)
            | none, some count =>
              let digits := (cursor.rest.drop 2).take count
              if digits.length < count then none
              else (codeChar? digits).bind fun c =>
                quotedWord single fuel (c :: read) (cursor.skipMany (2 + count))
            | none, none => none
      else quotedWord single fuel (c :: read) cursor.skip

/-- The rest of a quoted scalar, up to and with its closing quote. -/
def quotedFrom (single : Bool) : Nat → String → Cursor → Option (String × Cursor)
  | 0, _, _ => none
  | fuel + 1, text, cursor =>
    if cursor.atMarker || cursor.rest.isEmpty then none
    else
      match quotedWord single (cursor.rest.length + 1) [] cursor with
      | none => none
      | some (word, escaped, next) =>
        let text := text ++ String.ofList word.reverse
        if !escaped && next.at? (if single then '\'' else '"') then some (text, next.skip)
        else
          let start : Gap := if escaped then { first := some "" } else {}
          match gapAt 0 next.rest.length start next with
          | none => none
          | some (gap, next) => quotedFrom single fuel (text ++ gap.fold) next

/-! ## Block scalars -/

/-- What becomes of the line ends after a block. -/
inductive Chomping where
  | strip
  | clip
  | keep
  deriving DecidableEq, Repr

/-- What stands after the indicator of a block: what becomes of line ends, and by how much the block
is indented, if that is said. -/
def blockHeader? (cursor : Cursor) : Option (Chomping × Option Nat × Cursor) :=
  let sign (c : Char) : Option Chomping :=
    if c = '+' then some .keep else if c = '-' then some .strip else none
  let digit (c : Char) : Option Nat := if c.isDigit then some (c.toNat - 48) else none
  let sound (count : Option Nat) (result : Chomping × Option Nat × Cursor) :=
    if count = some 0 then none else some result
  match (cursor.peek 0).bind sign with
  | some chomping =>
    match (cursor.peek 1).bind digit with
    | some count => sound (some count) (chomping, some count, cursor.skipMany 2)
    | none => some (chomping, none, cursor.skip)
  | none =>
    match (cursor.peek 0).bind digit with
    | some count =>
      match (cursor.peek 1).bind sign with
      | some chomping => sound (some count) (chomping, some count, cursor.skipMany 2)
      | none => sound (some count) (.clip, some count, cursor.skip)
    | none => some (.clip, none, cursor)

/-- Passes over the indentation of a line, up to the column `indent` if there is one. -/
def skipIndent (indent : Option Nat) (cursor : Cursor) : Cursor :=
  match indent with
  | none => Cursor.skipWhile (· = ' ') cursor.rest.length cursor
  | some indent => Cursor.skipWhile (· = ' ') (indent - cursor.column) cursor

/-- Blank lines of a block: their line ends, the farthest column they reach, and where they end. -/
def blockBreaks (indent : Option Nat) :
    Nat → String → Nat → Cursor → Option (String × Nat × Cursor)
  | 0, _, _, _ => none
  | fuel + 1, breaks, farthest, cursor =>
    let cursor := skipIndent indent cursor
    let farthest := max farthest cursor.column
    if indent.all (cursor.column < ·) && cursor.at? '\t' then none
    else if (cursor.peek 0).any isBreak then
      let (shown, cursor) := cursor.skipLine
      blockBreaks indent fuel (breaks ++ shown) farthest cursor
    else some (breaks, farthest, cursor)

/-- The lines of a block. `lastBreak` is the line end before, `breaks` those of blank lines after
it, and `lastBlank` says whether the line before began with a blank. -/
def blockLines (literal : Bool) (indent : Nat) :
    Nat → String → String → String → Bool → Cursor → Option (String × String × String × Cursor)
  | 0, _, _, _, _, _ => none
  | fuel + 1, text, lastBreak, breaks, lastBlank, cursor =>
    if cursor.column ≠ indent || cursor.rest.isEmpty then some (text, lastBreak, breaks, cursor)
    else
      let blank := (cursor.peek 0).any isBlank
      let joint :=
        if !literal && lastBreak = "\n" && !lastBlank && !blank then
          if breaks = "" then " " else ""
        else lastBreak
      let next := cursor.skipToBreak
      let line := String.ofList (cursor.rest.take (next.index - cursor.index))
      let (lastBreak, next) := next.skipLine
      match blockBreaks (some indent) (next.rest.length + 1) "" 0 next with
      | none => none
      | some (after, _, next) =>
        blockLines literal indent fuel (text ++ joint ++ breaks ++ line) lastBreak after blank next

/-- A block from after its indicator; `parent` is the indentation around it. -/
def blockScalar (literal : Bool) (parent : Int) (cursor : Cursor) : Option (String × Cursor) := do
  let (chomping, count, cursor) ← blockHeader? cursor
  let cursor := cursor.skipBlanks
  let cursor := if cursor.at? '#' then cursor.skipToBreak else cursor
  if !cursor.breakAt 0 then none
  else
    let cursor := cursor.skipLine.2
    let outer := parent.toNat
    let fuel := cursor.rest.length + 2
    let (breaks, farthest, cursor) ← blockBreaks (count.map (outer + ·)) fuel "" 0 cursor
    let indent := match count with
      | some count => outer + count
      | none => max (max farthest (parent + 1).toNat) 1
    let (text, lastBreak, breaks, cursor) ← blockLines literal indent fuel "" "" breaks false cursor
    let tail := match chomping with
      | .strip => ""
      | .clip => lastBreak
      | .keep => lastBreak ++ breaks
    some (text ++ tail, cursor)

end Sift.Yaml
