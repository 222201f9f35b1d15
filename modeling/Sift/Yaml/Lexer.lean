import Sift.Yaml.ScalarText

/-!
# Reading tokens of YAML

Tokens are read from left to right. Where a key may begin, its place is remembered; a colon on the
same line then puts the key token there. A token that is no token ends the reading.
-/

namespace Sift.Yaml

/-- Where a key may have begun. -/
structure KeyPlace where
  /-- Whether there must be a key. -/
  required : Bool
  /-- How many tokens came before. -/
  token : Nat
  line : Nat
  column : Nat
  index : Nat

/-- How far a colon may be from the beginning of its key. -/
def keyLimit : Nat := 1024

/-- Tokens read so far, and what the next ones depend on. -/
structure Lexer where
  cursor : Cursor
  tokens : Array Token := #[]
  /-- The indentation of the innermost block collection; -1 outside of all. -/
  indent : Int := -1
  /-- The indentations of those around it. -/
  outer : List Int := []
  /-- The place of a possible key, for each open bracket and outside of all, innermost first. -/
  keys : List (Option KeyPlace) := [none]
  /-- Whether a key may begin here. -/
  keyAllowed : Bool := true

namespace Lexer

/-- Whether there are open brackets. -/
def inFlow (lexer : Lexer) : Bool := 1 < lexer.keys.length

/-- Adds a token. -/
def add (lexer : Lexer) (token : Token) : Lexer := { lexer with tokens := lexer.tokens.push token }

/-- Puts a token at a place among those read. -/
def insert (lexer : Lexer) (place : Nat) (token : Token) : Lexer :=
  { lexer with tokens := (lexer.tokens.toList.insertIdx place token).toArray }

/-- Begins a block collection if the column is farther right than the one around. -/
def deepen (lexer : Lexer) (column place : Nat) (token : Token) : Lexer :=
  if !lexer.inFlow && lexer.indent < column then
    { lexer.insert place token with indent := column, outer := lexer.indent :: lexer.outer }
  else lexer

/-- Ends the block collections that are farther right than a column; `outer` are the indentations
around. -/
def shallow (column : Int) (tokens : Array Token) (indent : Int) :
    List Int → Array Token × Int × List Int
  | [] => (tokens, indent, [])
  | next :: outer =>
    if column < indent then shallow column (tokens.push .blockEnd) next outer
    else (tokens, indent, next :: outer)

/-- Ends the block collections that are farther right than a column. -/
def unwind (lexer : Lexer) (column : Int) : Lexer :=
  if lexer.inFlow then lexer
  else
    let (tokens, indent, outer) := shallow column lexer.tokens lexer.indent lexer.outer
    { lexer with tokens, indent, outer }

/-- Gives up a possible key; none if it had to be one. -/
def dropKey (lexer : Lexer) : Option Lexer :=
  match lexer.keys with
  | some key :: keys => if key.required then none else some { lexer with keys := none :: keys }
  | _ => some lexer

/-- Remembers that a key may begin here. -/
def markKey (lexer : Lexer) : Option Lexer :=
  if !lexer.keyAllowed then some lexer
  else
    match lexer.dropKey with
    | none => none
    | some lexer =>
      let cursor := lexer.cursor
      let required := !lexer.inFlow && lexer.indent = cursor.column
      let key : KeyPlace :=
        ⟨required, lexer.tokens.size, cursor.line, cursor.column, cursor.index⟩
      some { lexer with keys := some key :: lexer.keys.tail }

/-- Gives up possible keys that ended with their line or are too long. -/
def dropStaleKeys (lexer : Lexer) : Option Lexer :=
  let stale (key : KeyPlace) : Bool :=
    key.line < lexer.cursor.line || key.index + keyLimit < lexer.cursor.index
  if lexer.keys.any fun key => key.any fun key => stale key && key.required then none
  else some { lexer with keys := lexer.keys.map fun key => key.filter (!stale ·) }

/-- Passes over blanks, comments and line ends. -/
def skipSpace : Nat → Lexer → Lexer
  | 0, lexer => lexer
  | fuel + 1, lexer =>
    let cursor := lexer.cursor
    let cursor := if cursor.column = 0 && cursor.at? byteOrderMark then cursor.skip else cursor
    let tabs := lexer.inFlow || !lexer.keyAllowed
    let cursor := Cursor.skipWhile (fun c => c = ' ' || (tabs && c = '\t')) cursor.rest.length cursor
    let cursor := if cursor.at? '#' then cursor.skipToBreak else cursor
    if (cursor.peek 0).any isBreak then
      skipSpace fuel { lexer with cursor := cursor.skipLine.2
                                  keyAllowed := lexer.keyAllowed || !lexer.inFlow }
    else { lexer with cursor }

/-- A token of `n` characters. -/
def take (lexer : Lexer) (n : Nat) (token : Token) : Lexer :=
  { lexer.add token with cursor := lexer.cursor.skipMany n }

/-- A scalar that ends at a cursor. -/
def takeScalar (lexer : Lexer) (plain : Bool) (text : String) (cursor : Cursor) : Lexer :=
  { lexer.add (.scalar plain text) with cursor }

/-! ## Directives, tags and names -/

/-- The characters of a tag, escapes resolved; `read` is reversed. A handle has words only. -/
def tagText (uri : Bool) : Nat → List Char → Cursor → Option (List Char × Cursor)
  | 0, read, cursor => some (read, cursor)
  | fuel + 1, read, cursor =>
    match cursor.peek 0 with
    | none => some (read, cursor)
    | some c =>
      if isWord c || (uri && ";/?:@&=+$,.!~*'()[]".toList.contains c) then
        tagText uri fuel (c :: read) cursor.skip
      else if uri && c = '%' then
        match codeChar? ((cursor.rest.drop 1).take 2) with
        | some c => tagText uri fuel (c :: read) (cursor.skipMany 3)
        | none => none
      else some (read, cursor)

/-- A handle: an exclamation mark, and words up to another one. -/
def handle? (cursor : Cursor) : Option (String × Cursor) :=
  if !cursor.at? '!' then none
  else
    match tagText false cursor.rest.length ['!'] cursor.skip with
    | none => none
    | some (read, next) =>
      if next.at? '!' then some (String.ofList ('!' :: read).reverse, next.skip)
      else some (String.ofList read.reverse, next)

/-- A tag: its handle and the rest. -/
def tag? (cursor : Cursor) : Option (String × String × Cursor) :=
  let full := cursor.rest.length
  let result : Option (String × String × Cursor) :=
    if cursor.peek 1 = some '<' then
      (tagText true full [] (cursor.skipMany 2)).bind fun (read, next) =>
        if next.at? '>' && !read.isEmpty then some ("", String.ofList read.reverse, next.skip) else none
    else
      (handle? cursor).bind fun (handle, next) =>
        if 2 ≤ handle.length && handle.endsWith "!" then
          (tagText true full [] next).bind fun (read, next) =>
            if read.isEmpty then none else some (handle, String.ofList read.reverse, next)
        else
          (tagText true full [] next).map fun (read, next) =>
            let suffix := String.ofList (handle.toList.drop 1 ++ read.reverse)
            if suffix = "" then ("", "!", next) else ("!", suffix, next)
  result.bind fun (handle, suffix, next) =>
    if next.blankAt 0 then some (handle, suffix, next) else none

/-- The end of a directive's line. -/
def endDirective (cursor : Cursor) : Option Cursor :=
  let cursor := cursor.skipBlanks
  let cursor := if cursor.at? '#' then cursor.skipToBreak else cursor
  if cursor.breakAt 0 then some cursor.skipLine.2 else none

/-- A number of a version, of two digits at most. -/
def versionNumber? (cursor : Cursor) : Option (Nat × Cursor) :=
  let next := Cursor.skipWhile Char.isDigit 3 cursor
  let digits := cursor.rest.take (next.index - cursor.index)
  if digits.isEmpty || 2 < digits.length then none
  else some (digits.foldl (fun n c => 10 * n + (c.toNat - '0'.toNat)) 0, next)

/-- A directive. -/
def directive? (cursor : Cursor) : Option (Token × Cursor) := do
  let next := Cursor.skipWhile isWord cursor.rest.length cursor.skip
  let name := String.ofList ((cursor.rest.drop 1).take (next.index - cursor.index - 1))
  if name = "" || !next.blankAt 0 then none
  else if name = "YAML" then
    let (major, next) ← versionNumber? next.skipBlanks
    if !next.at? '.' then none
    else
      let (minor, next) ← versionNumber? next.skip
      (endDirective next).map fun next => (.version major minor, next)
  else if name = "TAG" then
    let (handle, next) ← handle? next.skipBlanks
    if !(next.peek 0).any isBlank then none
    else
      let (read, next) ← tagText true next.rest.length [] next.skipBlanks
      if !next.blankAt 0 then none
      else (endDirective next).map fun next =>
        (.tagHandle handle (String.ofList read.reverse), next)
  else none

/-- The name of an anchor or an alias. -/
def name? (cursor : Cursor) : Option (String × Cursor) :=
  let next := Cursor.skipWhile isWord cursor.rest.length cursor
  let name := String.ofList (cursor.rest.take (next.index - cursor.index))
  let ends := next.blankAt 0 || (next.peek 0).any fun c => "?:,]\x7d%@`".toList.contains c
  if name = "" || !ends then none else some (name, next)

/-! ## Tokens -/

/-- A value token; it may turn what was read on this line into a key. -/
def value (lexer : Lexer) : Option Lexer :=
  match lexer.keys with
  | some key :: keys =>
    let lexer := lexer.insert key.token .key
    let lexer := lexer.deepen key.column key.token .blockMappingStart
    some { lexer.take 1 .value with keys := none :: keys, keyAllowed := false }
  | _ =>
    if !lexer.inFlow && !lexer.keyAllowed then none
    else
      let lexer := lexer.deepen lexer.cursor.column lexer.tokens.size .blockMappingStart
      some { lexer.take 1 .value with keyAllowed := !lexer.inFlow }

/-- Whether a plain scalar may begin here. -/
def startsPlain (lexer : Lexer) (c : Char) : Bool :=
  let next := lexer.cursor.peek 1
  !"-?:,[]\x7b\x7d#&*!|>'\"%@`".toList.contains c && !isBlank c && !isBreak c ||
    (c = '-' && !next.any isBlank) ||
    (!lexer.inFlow && (c = '?' || c = ':') && !lexer.cursor.blankAt 1)

/-- A token that begins with a character. -/
def token (lexer : Lexer) (c : Char) : Option Lexer :=
  let cursor := lexer.cursor
  if cursor.column = 0 && c = '%' then do
    let lexer ← (lexer.unwind (-1)).dropKey
    let (token, cursor) ← directive? cursor
    some { lexer.add token with cursor, keyAllowed := false }
  else if cursor.atMarker then do
    let lexer ← (lexer.unwind (-1)).dropKey
    some { lexer.take 3 (if c = '-' then .documentStart else .documentEnd) with keyAllowed := false }
  else if c = '[' || c = '\x7b' then do
    let lexer ← lexer.markKey
    some { lexer.take 1 (if c = '[' then .flowSequenceStart else .flowMappingStart) with
      keys := none :: lexer.keys, keyAllowed := true }
  else if c = ']' || c = '\x7d' then do
    let lexer ← lexer.dropKey
    let keys := if lexer.inFlow then lexer.keys.tail else lexer.keys
    some { lexer.take 1 (if c = ']' then .flowSequenceEnd else .flowMappingEnd) with
      keys, keyAllowed := false }
  else if c = ',' then do
    let lexer ← lexer.dropKey
    some { lexer.take 1 .flowEntry with keyAllowed := true }
  else if c = '-' && cursor.blankAt 1 then
    if !lexer.inFlow && !lexer.keyAllowed then none
    else do
      let lexer := lexer.deepen cursor.column lexer.tokens.size .blockSequenceStart
      let lexer ← lexer.dropKey
      some { lexer.take 1 .blockEntry with keyAllowed := true }
  else if c = '?' && (lexer.inFlow || cursor.blankAt 1) then
    if !lexer.inFlow && !lexer.keyAllowed then none
    else do
      let lexer := lexer.deepen cursor.column lexer.tokens.size .blockMappingStart
      let lexer ← lexer.dropKey
      some { lexer.take 1 .key with keyAllowed := !lexer.inFlow }
  else if c = ':' && (lexer.inFlow || cursor.blankAt 1) then lexer.value
  else if c = '*' || c = '&' then do
    let lexer ← lexer.markKey
    let (name, cursor) ← name? cursor.skip
    some { lexer.add (if c = '*' then .alias name else .anchor name) with cursor, keyAllowed := false }
  else if c = '!' then do
    let lexer ← lexer.markKey
    let (handle, suffix, cursor) ← tag? cursor
    some { lexer.add (.tag handle suffix) with cursor, keyAllowed := false }
  else if (c = '|' || c = '>') && !lexer.inFlow then do
    let lexer ← lexer.dropKey
    let (text, cursor) ← blockScalar (c = '|') lexer.indent cursor.skip
    some { lexer.takeScalar false text cursor with keyAllowed := true }
  else if c = '\'' || c = '"' then do
    let lexer ← lexer.markKey
    let (text, cursor) ← quotedFrom (c = '\'') (cursor.rest.length + 1) "" cursor.skip
    some { lexer.takeScalar false text cursor with keyAllowed := false }
  else if lexer.startsPlain c then do
    let lexer ← lexer.markKey
    let (text, lineEnded, cursor) ←
      plainFrom lexer.inFlow (lexer.indent + 1).toNat (cursor.rest.length + 1) "" {} cursor
    some { lexer.takeScalar true text cursor with keyAllowed := lineEnded }
  else none

/-- The end of a text. -/
def finish (lexer : Lexer) : Option Lexer :=
  ((lexer.unwind (-1)).dropKey).map (·.add .finish)

/-- Reads all tokens; `fuel` bounds their number. -/
def run : Nat → Lexer → Array Token
  | 0, lexer => lexer.tokens.push .invalid
  | fuel + 1, lexer =>
    let spaced := skipSpace (lexer.cursor.rest.length + 1) lexer
    match spaced.dropStaleKeys with
    | none => spaced.tokens.push .invalid
    | some lexer =>
      let lexer := lexer.unwind lexer.cursor.column
      match lexer.cursor.peek 0 with
      | none =>
        match lexer.finish with
        | some lexer => lexer.tokens
        | none => lexer.tokens.push .invalid
      | some c =>
        match lexer.token c with
        | none => lexer.tokens.push .invalid
        | some next => run fuel next

end Lexer

/-- The tokens of a text; the last one says whether all of it was read. -/
def tokens (text : List Char) : List Token :=
  let body := if text.head? = some byteOrderMark then text.tail else text
  if text.all isAllowed || body.all isAllowed then
    (Lexer.run (body.length + 2) { cursor := { rest := body } }).toList
  else [.invalid]

end Sift.Yaml
