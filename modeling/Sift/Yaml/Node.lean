import Sift.Yaml.Lexer

/-!
# Nodes of YAML

A document is a node: a scalar, a sequence or a mapping. An alias holds the node that it stands for.
-/

namespace Sift.Yaml

/-- A node. A scalar is plain or not; a tag is given in full and is empty if there is none. -/
inductive Node where
  | scalar (tag : String) (plain : Bool) (text : String)
  | sequence (items : List Node)
  | mapping (pairs : List (Node × Node))
  /-- Another node by its anchor; there is none if the alias stands inside of it. -/
  | alias (target : Option Node)

namespace Node

/-- The scalar that stands where nothing is written. -/
def blank : Node := .scalar "" true ""

/-- Tokens that are left, and the nodes with anchors, the latest first; an anchor whose node is
still being read has none. -/
structure Stream where
  tokens : List Token
  anchors : List (String × Option Node) := []
  /-- What the handles of tags stand for. -/
  handles : List (String × String) := []

namespace Stream

/-- The next token. -/
def next (stream : Stream) : Token := stream.tokens.head?.getD .invalid

/-- The stream after its next token. -/
def drop (stream : Stream) : Stream := { stream with tokens := stream.tokens.tail }

end Stream

/-- What the handles stand for if nothing else is said. -/
def standardHandles : List (String × String) := [("!", "!"), ("!!", "tag:yaml.org,2002:")]

/-- A tag in full. -/
def fullTag? (handles : List (String × String)) (handle suffix : String) : Option String :=
  if handle = "" then some suffix
  else ((handles ++ standardHandles).lookup handle).map (· ++ suffix)

/-- The tag and the anchor in front of a node, in either order. -/
structure Properties where
  anchor : Option String := none
  tag : Option String := none

/-- Reads what stands in front of a node; `fuel` is two at most. -/
def properties : Nat → Properties → Stream → Option (Properties × Stream)
  | 0, found, stream => some (found, stream)
  | fuel + 1, found, stream =>
    match stream.next with
    | .anchor name =>
      if found.anchor.isSome then some (found, stream)
      else properties fuel { found with anchor := some name } stream.drop
    | .tag handle suffix =>
      if found.tag.isSome then some (found, stream)
      else
        (fullTag? stream.handles handle suffix).bind fun tag =>
          properties fuel { found with tag := some tag } stream.drop
    | _ => some (found, stream)

/-- Remembers a node by its anchor. -/
def remember (anchor : Option String) (node : Node) (stream : Stream) : Node × Stream :=
  match anchor with
  | none => (node, stream)
  | some name => (node, { stream with anchors := (name, some node) :: stream.anchors })

/-- Remembers that a node with an anchor is being read. -/
def reserve (anchor : Option String) (stream : Stream) : Stream :=
  match anchor with
  | none => stream
  | some name => { stream with anchors := (name, none) :: stream.anchors }

mutual

/-- Reads a node. `block` allows block collections, and `indentless` a sequence at the indentation of
its key. -/
def read (fuel : Nat) (block indentless : Bool) (stream : Stream) : Option (Node × Stream) :=
  match fuel with
  | 0 => none
  | fuel + 1 =>
    match stream.next with
    | .alias name =>
      (stream.anchors.lookup name).map fun target => (.alias target, stream.drop)
    | _ => do
      let (found, stream) ← properties 2 {} stream
      let held := reserve found.anchor stream.drop
      let keep (node : Node) (stream : Stream) := remember found.anchor node stream
      match stream.next with
      | .blockEntry =>
        if indentless then
          let (items, stream) ← readIndentless fuel (reserve found.anchor stream)
          some (keep (.sequence items) stream)
        else if found.anchor.isSome || found.tag.isSome then
          some (keep (.scalar (found.tag.getD "") found.tag.isNone "") stream)
        else none
      | .scalar plain text =>
        let bare := found.tag.isNone || found.tag = some "!"
        let node := .scalar (if bare then "" else found.tag.getD "")
          ((plain && found.tag.isNone) || found.tag = some "!") text
        some (keep node stream.drop)
      | .flowSequenceStart =>
        let (items, stream) ← readFlowItems fuel true held
        some (keep (.sequence items) stream)
      | .flowMappingStart =>
        let (pairs, stream) ← readFlowPairs fuel true held
        some (keep (.mapping pairs) stream)
      | .blockSequenceStart =>
        if block then
          let (items, stream) ← readItems fuel held
          some (keep (.sequence items) stream)
        else none
      | .blockMappingStart =>
        if block then
          let (pairs, stream) ← readPairs fuel held
          some (keep (.mapping pairs) stream)
        else none
      | _ =>
        if found.anchor.isSome || found.tag.isSome then
          some (keep (.scalar (found.tag.getD "") found.tag.isNone "") stream)
        else none

/-- Reads a node, or nothing in front of certain tokens. -/
def readUnless (fuel : Nat) (stops : List Token) (block indentless : Bool) (stream : Stream) :
    Option (Node × Stream) :=
  match fuel with
  | 0 => none
  | fuel + 1 =>
    if stops.contains stream.next then some (blank, stream) else read fuel block indentless stream

/-- The items of a block sequence. -/
def readItems (fuel : Nat) (stream : Stream) : Option (List Node × Stream) :=
  match fuel with
  | 0 => none
  | fuel + 1 =>
    match stream.next with
    | .blockEntry => do
      let (item, stream) ← readUnless fuel [.blockEntry, .blockEnd] true false stream.drop
      let (items, stream) ← readItems fuel stream
      some (item :: items, stream)
    | .blockEnd => some ([], stream.drop)
    | _ => none

/-- The items of a sequence at the indentation of its key. -/
def readIndentless (fuel : Nat) (stream : Stream) : Option (List Node × Stream) :=
  match fuel with
  | 0 => none
  | fuel + 1 =>
    match stream.next with
    | .blockEntry => do
      let (item, stream) ←
        readUnless fuel [.blockEntry, .key, .value, .blockEnd] true false stream.drop
      let (items, stream) ← readIndentless fuel stream
      some (item :: items, stream)
    | _ => some ([], stream)

/-- The pairs of a block mapping. -/
def readPairs (fuel : Nat) (stream : Stream) : Option (List (Node × Node) × Stream) :=
  match fuel with
  | 0 => none
  | fuel + 1 =>
    match stream.next with
    | .key => do
      let stops := [Token.key, .value, .blockEnd]
      let (key, stream) ← readUnless fuel stops true true stream.drop
      let (value, stream) ←
        if stream.next = .value then readUnless fuel stops true true stream.drop
        else some (blank, stream)
      let (pairs, stream) ← readPairs fuel stream
      some ((key, value) :: pairs, stream)
    | .blockEnd => some ([], stream.drop)
    | _ => none

/-- The items between square brackets. -/
def readFlowItems (fuel : Nat) (first : Bool) (stream : Stream) : Option (List Node × Stream) :=
  match fuel with
  | 0 => none
  | fuel + 1 =>
    if stream.next = .flowSequenceEnd then some ([], stream.drop)
    else if !first && stream.next ≠ .flowEntry then none
    else
      let stream := if first then stream else stream.drop
      match stream.next with
      | .flowSequenceEnd => some ([], stream.drop)
      | .key => do
        let (key, stream) ←
          readUnless fuel [.value, .flowEntry, .flowSequenceEnd] false false stream.drop
        let (value, stream) ←
          if stream.next = .value then
            readUnless fuel [.flowEntry, .flowSequenceEnd] false false stream.drop
          else some (blank, stream)
        let (items, stream) ← readFlowItems fuel false stream
        some (.mapping [(key, value)] :: items, stream)
      | _ => do
        let (item, stream) ← read fuel false false stream
        let (items, stream) ← readFlowItems fuel false stream
        some (item :: items, stream)

/-- The pairs between braces. -/
def readFlowPairs (fuel : Nat) (first : Bool) (stream : Stream) :
    Option (List (Node × Node) × Stream) :=
  match fuel with
  | 0 => none
  | fuel + 1 =>
    if stream.next = .flowMappingEnd then some ([], stream.drop)
    else if !first && stream.next ≠ .flowEntry then none
    else
      let stream := if first then stream else stream.drop
      match stream.next with
      | .flowMappingEnd => some ([], stream.drop)
      | .key => do
        let (key, stream) ←
          readUnless fuel [.value, .flowEntry, .flowMappingEnd] false false stream.drop
        let (value, stream) ←
          if stream.next = .value then
            readUnless fuel [.flowEntry, .flowMappingEnd] false false stream.drop
          else some (blank, stream)
        let (pairs, stream) ← readFlowPairs fuel false stream
        some ((key, value) :: pairs, stream)
      | _ => do
        let (key, stream) ← read fuel false false stream
        let (pairs, stream) ← readFlowPairs fuel false stream
        some ((key, blank) :: pairs, stream)

end

/-- Directives in front of a document. A second one for the same thing is refused, and so is every
version but 1.1. -/
def directives (versioned : Bool) (handles : List (String × String)) :
    List Token → Option (List (String × String) × List Token)
  | .version major minor :: rest =>
    if versioned || major ≠ 1 || minor ≠ 1 then none else directives true handles rest
  | .tagHandle handle lead :: rest =>
    if (handles.lookup handle).isSome then none
    else directives versioned ((handle, lead) :: handles) rest
  | rest => some (handles, rest)

/-- What a text comes to. -/
inductive Outcome where
  /-- There is no document. -/
  | nothing
  | malformed
  | document (node : Node)

/-- Reads the node of a document. -/
def readRoot (tokens : List Token) (handles : List (String × String)) : Outcome :=
  match read (4 * tokens.length + 8) true false { tokens, handles } with
  | some (node, stream) => if stream.next = .invalid then .malformed else .document node
  | none => .malformed

/-- Reads the first document of a text. -/
def ofText (text : List Char) : Outcome :=
  let all := tokens text
  match all.head? with
  | some .finish => .nothing
  | some (.version ..) | some (.tagHandle ..) | some .documentStart =>
    match directives false [] all with
    | some (handles, .documentStart :: rest) =>
      match rest.head? with
      | some (.version ..) | some (.tagHandle ..) | some .documentStart | some .documentEnd
      | some .finish => .document blank
      | _ => readRoot rest handles
    | _ => .malformed
  | _ => readRoot all []

end Node

end Sift.Yaml
