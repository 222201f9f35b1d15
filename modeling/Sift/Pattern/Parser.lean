import Sift.Pattern.Lexeme
import Sift.Pattern.Node

/-!
# Reading patterns

A pattern is read twice. The first reading finds the capture groups: unnamed groups are numbered
from the left, and the named ones take the numbers that are left over. The second reading builds
the tree.
-/

namespace Sift.Pattern

/-- Options in force at a place of a pattern. -/
structure Options where
  ignoreCase : Bool := false
  multiline : Bool := false
  explicitCapture : Bool := false
  singleline : Bool := false
  extended : Bool := false
  backward : Bool := false
  deriving DecidableEq, Repr

namespace Options

/-- How a piece read under these options reads the text. -/
def mode (options : Options) : Mode := ⟨options.ignoreCase, options.backward⟩

/-- Switches the option that a letter names; `none` for a letter that names none. -/
def switch? (options : Options) (on : Bool) (letter : Char) : Option Options :=
  match letter with
  | 'i' | 'I' => some { options with ignoreCase := on }
  | 'm' | 'M' => some { options with multiline := on }
  | 'n' | 'N' => some { options with explicitCapture := on }
  | 's' | 'S' => some { options with singleline := on }
  | 'x' | 'X' => some { options with extended := on }
  | 'd' | 'D' | 'u' | 'U' => some options
  | _ => none

/-- Reads option letters; a minus sign switches off what follows it. -/
def readFrom (on : Bool) (options : Options) : List Char → Options × List Char
  | [] => (options, [])
  | c :: rest =>
    if c = '-' then readFrom false options rest
    else if c = '+' then readFrom true options rest
    else
      match options.switch? on c with
      | some switched => readFrom on switched rest
      | none => (options, c :: rest)

/-- Reads option letters. -/
def read (options : Options) (rest : List Char) : Options × List Char := readFrom true options rest

/-- A code point as these options compare it. -/
def fold (options : Options) (c : Nat) : Nat := if options.ignoreCase then Unicode.toLower c else c

/-- The node that reads one given character. -/
def charNode (options : Options) (c : Nat) : Node := .char options.mode (.char (options.fold c))

/-- The node that reads a character of a class. -/
def classNode (options : Options) (cls : CharClass) : Node :=
  .char options.mode (CharTest.ofClass cls)

end Options

/-! ## Capture groups -/

/-- The capture groups of a pattern. -/
structure Groups where
  numbers : List Nat := [0]
  names : List (String × Nat) := []

namespace Groups

/-- Whether a number names a group. -/
def hasNumber (groups : Groups) (number : Nat) : Bool := groups.numbers.contains number

/-- The number of a named group. -/
def number? (groups : Groups) (name : String) : Option Nat := groups.names.lookup name

/-- Adds a number. -/
def note (groups : Groups) (number : Nat) : Groups :=
  if groups.hasNumber number then groups else { groups with numbers := groups.numbers ++ [number] }

/-- The first number from `start` on that names no group. Some number within the count of groups
is free. -/
def freeFrom (groups : Groups) : Nat → Nat → Nat
  | 0, start => start
  | fuel + 1, start => if groups.hasNumber start then groups.freeFrom fuel (start + 1) else start

/-- Gives each name a free number, in order. -/
def assign (groups : Groups) (start : Nat) : List String → Groups
  | [] => groups
  | name :: rest =>
    let number := groups.freeFrom (groups.numbers.length + 1) start
    let named := { groups.note number with names := groups.names ++ [(name, number)] }
    named.assign (number + 1) rest

end Groups

/-- What the first reading has found so far. -/
structure Census where
  groups : Groups := {}
  names : List String := []
  next : Nat := 1
  options : Options := {}
  /-- The options of the enclosing groups. -/
  outer : List Options := []
  /-- The next parenthesis is the condition of an alternation. -/
  atCondition : Bool := false

/-- Reads what may be options after `(?`. -/
def Census.readOptions (census : Census) (rest : List Char) : Census × List Char :=
  let (options, rest') := census.options.read rest
  let switched := { census with options }
  match rest' with
  | ')' :: more => ({ switched with outer := census.outer.drop 1, atCondition := false }, more)
  | '(' :: _ => ({ switched with atCondition := true }, rest')
  | _ => ({ switched with atCondition := false }, rest')

/-- Passes over an escape whose backslash has been read. -/
def skipEscape (rest : List Char) : List Char :=
  match rest with
  | [] => []
  | c :: after =>
    if "bBAGZzwWsSdD".toList.contains c then after
    else if c = 'p' || c = 'P' then
      match property after with
      | .ok (_, rest') => rest'
      | .error _ => after
    else if c = 'k' || c = '<' || c = '\'' then
      let opened := if c = 'k' then after else rest
      match opened with
      | open' :: inner =>
        let close := if open' = '\'' then '\'' else '>'
        match (open' = '<' || open' = '\''), inner.dropWhile isNameChar with
        | true, c' :: rest' => if c' = close && inner.head? ≠ some close then rest' else after
        | _, _ => after
      | [] => after
    else if '1' ≤ c && c ≤ '9' then rest.dropWhile isDigit
    else
      match charEscape rest with
      | .ok (_, rest') => rest'
      | .error _ => after

/-- Passes over a class; a class taken away after a finished element is passed over with it. -/
def skipClassFrom : Nat → (inRange atFirst : Bool) → List Char → List Char
  | 0, _, _, rest => rest
  | fuel + 1, inRange, atFirst, rest =>
    match atFirst, rest with
    | _, [] => []
    | false, ']' :: after => after
    | _, _ =>
      match classElement false rest with
      | .error _ => rest.drop 2
      | .ok (.code code escaped, after) =>
        if inRange then skipClassFrom fuel false false after
        else
          match after with
          | '-' :: c :: more =>
            if c = ']' then skipClassFrom fuel false false after
            else skipClassFrom fuel true false (c :: more)
          | '[' :: more =>
            if code == '-'.toNat && !escaped && !atFirst then
              skipClassFrom fuel false false
                (skipClassFrom fuel false true (classNegation more).2)
            else skipClassFrom fuel false false after
          | _ => skipClassFrom fuel false false after
      | .ok (_, after) => skipClassFrom fuel inRange false after

/-- Finds the groups of the rest of a pattern. Every round reads a character. -/
def censusFrom : Nat → Census → List Char → Except SyntaxError Census
  | 0, census, _ => .ok census
  | _ + 1, census, [] => .ok census
  | fuel + 1, census, c :: rest =>
    let skipped (text : List Char) := (skipBlank census.options.extended text).toOption.getD []
    match c with
    | '\\' => censusFrom fuel census (skipEscape rest)
    | '#' => censusFrom fuel census (if census.options.extended then skipped (c :: rest) else rest)
    | '[' => censusFrom fuel census
        (skipClassFrom (rest.length + 1) false true (classNegation rest).2)
    | ')' =>
      match census.outer with
      | [] => censusFrom fuel census rest
      | options :: outer => censusFrom fuel { census with options, outer } rest
    | '(' =>
      let pushed := { census with outer := census.options :: census.outer }
      let plain := { pushed with atCondition := false }
      match rest with
      | '?' :: '#' :: _ => censusFrom fuel { census with atCondition := false } (skipped (c :: rest))
      | '?' :: quote :: c' :: more =>
        if quote = '<' || quote = '\'' then
          if c' ≠ '0' && isNameChar c' then
            if isDigit c' then do
              let (number, rest') ← decimal (c' :: more)
              censusFrom fuel { plain with groups := plain.groups.note number } rest'
            else
              let (found, rest') := name (c' :: more)
              let names := if plain.names.contains found then plain.names else plain.names ++ [found]
              censusFrom fuel { plain with names } rest'
          else censusFrom fuel plain (c' :: more)
        else
          let (census, rest) := pushed.readOptions (quote :: c' :: more)
          censusFrom fuel census rest
      | '?' :: more =>
        let (census, rest) := pushed.readOptions more
        censusFrom fuel census rest
      | _ =>
        if census.options.explicitCapture || census.atCondition then censusFrom fuel plain rest
        else
          censusFrom fuel
            { plain with groups := plain.groups.note plain.next, next := plain.next + 1 } rest
    | _ => censusFrom fuel census rest

/-- The capture groups of a pattern. -/
def groupsOf (options : Options) (pattern : List Char) : Except SyntaxError Groups := do
  let census ← censusFrom pattern.length { options } pattern
  return census.groups.assign census.next census.names

/-! ## The tree -/

/-- Whether a character begins a repetition. -/
def isRepeatChar (c : Char) : Bool := c = '*' || c = '+' || c = '?' || c = '{'

/-- Whether a character ends a run of ordinary characters. -/
def isSpecial (c : Char) : Bool := isRepeatChar c || "$().[\\^|".toList.contains c

/-- Whether a repetition begins here; a brace only counts with a proper count. -/
def beginsRepeat : List Char → Bool
  | '{' :: rest =>
    match rest.takeWhile isDigit, rest.dropWhile isDigit with
    | [], _ => false
    | _, '}' :: _ => true
    | _, ',' :: more => (more.dropWhile isDigit).head? == some '}'
    | _, _ => false
  | c :: _ => isRepeatChar c
  | [] => false

/-- Takes ordinary characters from the front. -/
def ordinary (extended : Bool) : List Char → List Char × List Char
  | [] => ([], [])
  | c :: rest =>
    let stops := isSpecial c || (extended && (isPatternBlank c || c = '#'))
    if stops && !(c = '{' && !beginsRepeat (c :: rest)) then ([], c :: rest)
    else
      let (run, after) := ordinary extended rest
      (c :: run, after)

/-- Reads a repetition, after which a question mark asks for as few rounds as possible. -/
def repetition (extended : Bool) : List Char → Except SyntaxError (Repeat × List Char)
  | [] => .error .missingRepeatArgument
  | c :: rest => do
    let (least, most, rest) ← counts c rest
    let rest ← skipBlank extended rest
    let bounded := if most = Node.countLimit then none else some most
    match rest with
    | '?' :: after =>
      if most < least then .error .invalidRepeatCount else return (⟨least, bounded, true⟩, after)
    | _ => if most < least then .error .invalidRepeatCount else return (⟨least, bounded, false⟩, rest)
where
  /-- The least and greatest count. -/
  counts (c : Char) (rest : List Char) : Except SyntaxError (Nat × Nat × List Char) :=
    match c with
    | '*' => .ok (0, Node.countLimit, rest)
    | '?' => .ok (0, 1, rest)
    | '+' => .ok (1, Node.countLimit, rest)
    | _ => do
      let (least, rest) ← decimal rest
      match rest with
      | ',' :: '}' :: after => return (least, Node.countLimit, after)
      | ',' :: more => do
        let (most, rest) ← decimal more
        return (least, most, rest.drop 1)
      | _ => return (least, least, rest.drop 1)

/-- What an opening parenthesis begins. -/
inductive Opening where
  | capture (group released : Option Nat)
  | plain
  | look (positive : Bool)
  | atomic
  | ifGroup (group : Nat)
  | ifMatch
  deriving DecidableEq, Repr

/-- What is left to read, with all that changes on the way. -/
structure Place where
  rest : List Char
  options : Options
  next : Nat := 1
  /-- The next plain parenthesis does not capture. -/
  atCondition : Bool := false

/-- Reads a number or a name of a group to be given up. -/
def releasedGroup (groups : Groups) (close : Char) :
    List Char → Except SyntaxError (Nat × List Char)
  | [] => .error .invalidGroupName
  | c :: more => do
    if isDigit c then
      let (number, rest) ← decimal (c :: more)
      if !groups.hasNumber number then .error (.undefinedGroupNumber number)
      ends number rest
    else if isNameChar c then
      let (found, rest) := name (c :: more)
      match groups.number? found with
      | none => .error (.undefinedGroupName found)
      | some number => ends number rest
    else .error .invalidGroupName
where
  /-- The terminator must follow. -/
  ends (number : Nat) (rest : List Char) : Except SyntaxError (Nat × List Char) :=
    match rest with
    | c :: _ => if c = close then .ok (number, rest) else .error .invalidGroupName
    | [] => .ok (number, rest)

/-- Reads the name of a capture group, up to and including its terminator; `none` stands for a
construct that cannot be recognized, with what is left of the pattern. -/
def namedOpening (groups : Groups) (close : Char) (rest : List Char) :
    Except SyntaxError (Option Opening × List Char) := do
  let (group, rest, mayRelease) ← firstPart rest
  let (released, rest) ←
    match mayRelease, rest with
    | true, '-' :: more => do
      let (number, rest) ← releasedGroup groups close more
      pure (some number, rest)
    | _, _ => pure (none, rest)
  if group.isSome || released.isSome then
    match rest with
    | c :: after =>
      if c = close then return (some (.capture group released), after) else return (none, after)
    | [] => return (none, [])
  else return (none, rest)
where
  /-- The part before a hyphen. -/
  firstPart (rest : List Char) : Except SyntaxError (Option Nat × List Char × Bool) := do
    match rest with
    | [] => .error .invalidGroupName
    | c :: more =>
      let ends (rest : List Char) : Bool :=
        match rest with
        | c :: _ => c = close || c = '-'
        | [] => true
      if isDigit c then
        let (number, rest) ← decimal (c :: more)
        let group := if groups.hasNumber number then some number else none
        if !ends rest then .error .invalidGroupName
        else if group = some 0 then .error .groupNumberZero
        else return (group, rest, group.isSome)
      else if isNameChar c then
        let (found, rest) := name (c :: more)
        let group := groups.number? found
        if !ends rest then .error .invalidGroupName else return (group, rest, group.isSome)
      else if c = '-' then return (none, rest, true)
      else .error .invalidGroupName

/-- Reads the condition of an alternation when it is a group number or name. -/
def conditionGroup (groups : Groups) (inner : List Char) :
    Except SyntaxError (Option (Nat × List Char)) := do
  match inner with
  | [] => return none
  | c :: _ =>
    if isDigit c then
      let (number, rest) ← decimal inner
      match rest with
      | ')' :: after =>
        if groups.hasNumber number then return some (number, after)
        else .error (.undefinedReference number)
      | _ => .error (.malformedReference number)
    else if isNameChar c then
      let (found, rest) := name inner
      match groups.number? found, rest with
      | some number, ')' :: after => return some (number, after)
      | _, _ => return none
    else return none

/-- A condition may be neither a comment nor a named group. -/
def checkCondition (inner : List Char) : Except SyntaxError Unit :=
  match inner with
  | '?' :: '#' :: _ => .error .conditionComment
  | '?' :: '\'' :: _ => .error .conditionCaptures
  | '?' :: '<' :: c :: _ => if c = '!' || c = '=' then .ok () else .error .conditionCaptures
  | _ => .ok ()

/-- Reads what follows an opening parenthesis; `none` stands for options that were switched in
place. Directly inside an alternation with a condition no options may be given. -/
def opening (groups : Groups) (inCondition : Bool) (place : Place) :
    Except SyntaxError (Option Opening × Place) := do
  let start := place.rest
  let unrecognized {α : Type} (rest : List Char) : Except SyntaxError α :=
    .error (.unrecognizedGrouping (String.ofList (start.take (start.length - rest.length))))
  let found (kind : Opening) (rest : List Char) : Except SyntaxError (Option Opening × Place) :=
    return (some kind, { place with rest })
  let turned (backward positive : Bool) (rest : List Char) :
      Except SyntaxError (Option Opening × Place) :=
    return (some (.look positive), { place with rest, options := { place.options with backward } })
  let plainParen : Except SyntaxError (Option Opening × Place) :=
    if place.options.explicitCapture || place.atCondition then
      return (some .plain, { place with atCondition := false })
    else
      return (some (.capture (some place.next) none), { place with next := place.next + 1 })
  let named (close : Char) (rest : List Char) : Except SyntaxError (Option Opening × Place) := do
    let (kind, rest) ← namedOpening groups close rest
    match kind with
    | some kind => found kind rest
    | none => unrecognized rest
  match start with
  | '?' :: ')' :: _ => plainParen
  | '?' :: rest =>
    match rest with
    | [] => unrecognized []
    | ':' :: after => found .plain after
    | '=' :: after => turned false true after
    | '!' :: after => turned false false after
    | '>' :: after => found .atomic after
    | '<' :: '=' :: after => turned true true after
    | '<' :: '!' :: after => turned true false after
    | '\'' :: '=' :: after => unrecognized after
    | '\'' :: '!' :: after => unrecognized after
    | '<' :: [] => unrecognized []
    | '\'' :: [] => unrecognized []
    | '<' :: after => named '>' after
    | '\'' :: after => named '\'' after
    | '(' :: inner =>
      match ← conditionGroup groups inner with
      | some (number, after) => found (.ifGroup number) after
      | none =>
        checkCondition inner
        return (some .ifMatch, { place with rest, atCondition := true })
    | _ =>
      let (options, after) := if inCondition then (place.options, rest) else place.options.read rest
      match after with
      | [] => unrecognized []
      | ')' :: after => return (none, { place with rest := after, options })
      | ':' :: after => return (some .plain, { place with rest := after, options })
      | _ :: after => unrecognized after
  | _ => plainParen

/-- A piece of a pattern, and whether it is written as one character. -/
structure Piece where
  node : Node
  single : Bool

/-- Reads, after a backslash, an anchor, a class, a reference or a character. -/
def escape (groups : Groups) (options : Options) (rest : List Char) :
    Except SyntaxError (Piece × List Char) := do
  let anchored (anchor : Anchor) (after : List Char) : Except SyntaxError (Piece × List Char) :=
    return (⟨.anchor anchor, false⟩, after)
  let classed (cls : CharClass) (after : List Char) : Except SyntaxError (Piece × List Char) :=
    return (⟨options.classNode cls, true⟩, after)
  match rest with
  | [] => .error .escapeAtEnd
  | c :: after =>
    match c with
    | 'b' => anchored .boundary after
    | 'B' => anchored .notBoundary after
    | 'A' => anchored .textStart after
    | 'G' => anchored .searchStart after
    | 'Z' => anchored .textEndOrNewline after
    | 'z' => anchored .textEnd after
    | 'w' => classed (.ofCategory (.word false)) after
    | 'W' => classed (.outsideCategory (.word false)) after
    | 's' => classed (.ofCategory (.space false)) after
    | 'S' => classed (.outsideCategory (.space false)) after
    | 'd' => classed (.ofCategory (.digit false)) after
    | 'D' => classed (.ofCategory (.digit true)) after
    | 'p' | 'P' => do
      let (found, after) ← property after
      let layer : Layer := ({} : Layer).addNamed found.1 found.2 (c = 'P') options.ignoreCase
      classed ⟨layer, []⟩ after
    | 'k' =>
      match after with
      | '<' :: inner => angled '>' true inner
      | '\'' :: inner => angled '\'' true inner
      | _ => .error .malformedNameReference
    | '<' => if after.isEmpty then character else angled '>' false after
    | '\'' => if after.isEmpty then character else angled '\'' false after
    | _ =>
      if '1' ≤ c && c ≤ '9' then
        let (number, after) ← decimal rest
        if groups.hasNumber number then reference number after
        else if number ≤ 9 then .error (.undefinedGroupNumber number)
        else character
      else character
where
  /-- A reference to a group. -/
  reference (number : Nat) (after : List Char) : Except SyntaxError (Piece × List Char) :=
    return (⟨.backref options.mode number, false⟩, after)
  /-- A single character. -/
  character : Except SyntaxError (Piece × List Char) := do
    let (code, after) ← charEscape rest
    return (⟨options.charNode code, true⟩, after)
  /-- A reference between brackets or quotes; `must` says that nothing else is possible. -/
  angled (close : Char) (must : Bool) (inner : List Char) :
      Except SyntaxError (Piece × List Char) := do
    match inner with
    | [] => .error .malformedNameReference
    | c :: _ =>
      if isDigit c then
        let (number, after) ← decimal inner
        match after with
        | c' :: after' =>
          if c' = close then
            if groups.hasNumber number then reference number after'
            else .error (.undefinedGroupNumber number)
          else character
        | [] => character
      else
        let (found, after) := name inner
        match after with
        | c' :: after' =>
          if found ≠ "" && c' = close then
            match groups.number? found with
            | some number => reference number after'
            | none => .error (.undefinedGroupName found)
          else if must then .error .malformedNameReference
          else character
        | [] => if must then .error .malformedNameReference else character

/-- The node of a finished group. -/
def groupNode (kind : Opening) (branches : List Node) : Except SyntaxError Node :=
  match kind with
  | .capture group released => .ok (.capture group released (.alternation branches))
  | .plain => .ok (.alternation branches)
  | .look positive => .ok (.look positive (.alternation branches))
  | .atomic => .ok (.atomic (.alternation branches))
  | .ifGroup group =>
    match branches with
    | [yes] => .ok (.ifGroup group yes .empty)
    | [yes, no] => .ok (.ifGroup group yes no)
    | _ => .error .tooManyAlternates
  | .ifMatch => .error .tooManyAlternates

/-- The node of a finished alternation with a condition. -/
def conditionNode (condition : Node) : List Node → Except SyntaxError Node
  | [yes] => .ok (.ifMatch condition yes .empty)
  | [yes, no] => .ok (.ifMatch condition yes no)
  | _ => .error .tooManyAlternates

/-- Where in the nesting of groups a body stands. -/
inductive Depth where
  /-- The whole pattern. -/
  | top
  /-- Inside a group. -/
  | inner
  /-- Directly inside an alternation with a condition. -/
  | condition
  deriving DecidableEq, Repr

/-- A body as far as it has been read; lists are reversed. -/
structure Draft where
  branches : List Node := []
  pieces : List Node := []
  /-- The last thing read was a repetition. -/
  repeated : Bool := false

namespace Draft

/-- Adds a piece. -/
def add (draft : Draft) (node : Node) : Draft :=
  { draft with pieces := node :: draft.pieces, repeated := false }

/-- Adds ordinary characters. -/
def addRun (draft : Draft) (options : Options) (run : List Char) : Draft :=
  run.foldl (fun acc c => acc.add (options.charNode c.toNat)) draft

/-- Ends the current branch. -/
def branch (draft : Draft) (backward : Bool) : Draft :=
  { branches := Node.sequence backward draft.pieces.reverse :: draft.branches }

/-- All branches, in order. -/
def close (draft : Draft) (backward : Bool) : List Node := (draft.branch backward).branches.reverse

end Draft

/-- Adds a piece with the repetition that may follow it. -/
def withRepetition (draft : Draft) (place : Place) (piece : Piece) :
    Except SyntaxError (Draft × Place) := do
  let rest ← skipBlank place.options.extended place.rest
  if beginsRepeat rest then
    let (count, rest) ← repetition place.options.extended rest
    let draft := draft.add (piece.node.quantify piece.single count)
    return ({ draft with repeated := true }, { place with rest })
  else return (draft.add piece.node, { place with rest })

/-- Reads a body up to the parenthesis that closes it, or to the end of the pattern. Every round
reads a character, so the length of the pattern bounds `fuel`. -/
def body (groups : Groups) (depth : Depth) : Nat → Draft → Place →
    Except SyntaxError (List Node × Place)
  | 0, _, _ => .error .missingParen
  | fuel + 1, draft, place => do
    let options := place.options
    let finish (draft : Draft) : Except SyntaxError (List Node × Place) :=
      if depth = .top then return (draft.close options.backward, { place with rest := [] })
      else .error .missingParen
    if place.rest.isEmpty then finish draft
    else
      let rest ← skipBlank options.extended place.rest
      let (run, afterRun) := ordinary options.extended rest
      let rest := (skipBlank options.extended afterRun).toOption.getD []
      match rest with
      | [] => finish (draft.addRun options run)
      | c :: after =>
        if !isSpecial c then
          body groups depth fuel { draft.addRun options run with repeated := false } { place with rest }
        else if isRepeatChar c then
          match run.getLast? with
          | none => .error (if draft.repeated then .nestedRepeat else .missingRepeatArgument)
          | some last =>
            let piece : Piece := ⟨options.charNode last.toNat, true⟩
            let (draft, place) ←
              withRepetition (draft.addRun options run.dropLast) { place with rest } piece
            body groups depth fuel draft place
        else
          let draft := draft.addRun options run
          let place := { place with rest := after }
          let continueWith (node : Node) (single : Bool) (place : Place) :
              Except SyntaxError (List Node × Place) := do
            let (draft, place) ← withRepetition draft place ⟨node, single⟩
            body groups depth fuel draft place
          match c with
          | '[' => do
            let (cls, rest) ← charClass options.ignoreCase after
            continueWith (options.classNode cls) true { place with rest }
          | '(' => do
            let (kind, inside) ← opening groups (depth = .condition) place
            match kind with
            | none => body groups depth fuel { draft with repeated := false } inside
            | some .ifMatch => do
              let (kind, within) ← opening groups true { inside with rest := inside.rest.drop 1 }
              let (branches, closed) ← body groups .inner fuel {} within
              let condition ← groupNode (kind.getD .plain) branches
              let (branches, closed) ←
                body groups .condition fuel {} { closed with options := inside.options }
              let node ← conditionNode condition branches
              continueWith node false { closed with options }
            | some kind => do
              let (branches, closed) ← body groups .inner fuel {} inside
              let node ← groupNode kind branches
              continueWith node false { closed with options }
          | '|' => body groups depth fuel (draft.branch options.backward) place
          | ')' =>
            if depth = .top then .error .unexpectedParen
            else return (draft.close options.backward, place)
          | '\\' => do
            let (piece, rest) ← escape groups options after
            continueWith piece.node piece.single { place with rest }
          | '^' =>
            continueWith (.anchor (if options.multiline then .lineStart else .textStart)) false place
          | '$' =>
            continueWith (.anchor (if options.multiline then .lineEnd else .textEndOrNewline)) false
              place
          | _ =>
            continueWith
              (.char options.mode (if options.singleline then .oneOf .any else .notChar 10)) true place

/-- Reads a pattern. -/
def parse (options : Options) (pattern : String) : Except SyntaxError Node := do
  let chars := pattern.toList
  let groups ← groupsOf options chars
  let (branches, _) ← body groups .top (2 * chars.length + 2) {} { rest := chars, options }
  return .alternation branches

end Sift.Pattern
