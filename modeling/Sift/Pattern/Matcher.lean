import Sift.Pattern.Node

/-!
# Matching

A pattern is matched by trying its alternatives from the left and each repetition in its preferred
order, going back to the last choice when what follows fails. What follows is passed along as a
function, the continuation. A state never changes in place, so going back needs no undoing.
-/

namespace Sift.Pattern

/-- The text that is searched. -/
structure Subject where
  codes : Array Nat
  /-- Where the search began. -/
  start : Nat

/-- What a group has read. A group that is taken to begin at the mark of a round or at a count may begin
beside the text. -/
structure Capture where
  group : Nat
  start : Int
  length : Nat
  deriving DecidableEq, Repr

/-- Where matching stands. -/
structure State where
  place : Nat
  /-- Where the open groups and rounds of repetition began, with their counts, innermost first. -/
  marks : List Int
  /-- What groups have read, the latest first. -/
  captures : List Capture
  deriving DecidableEq, Repr

/-- What is still to be matched. -/
abbrev Continuation := State → Option State

/-- Matching of a node: a state, and what follows. -/
abbrev Step := State → Continuation → Option State

namespace State

/-- The latest capture of a group. -/
def captured? (state : State) (group : Nat) : Option Capture :=
  state.captures.find? (·.group == group)

/-- Forgets the latest capture of a group. -/
def release (group : Nat) : List Capture → List Capture
  | [] => []
  | capture :: rest => if capture.group == group then rest else capture :: release group rest

/-- Takes the innermost mark off. -/
def popMark (state : State) : Int × State :=
  match state.marks with
  | [] => (0, state)
  | mark :: marks => (mark, { state with marks })

/-- Puts a mark on. -/
def pushMark (state : State) (mark : Int) : State := { state with marks := mark :: state.marks }

end State

namespace Subject

/-- The character that is read next, and the place behind it. -/
def next? (subject : Subject) (mode : Mode) (place : Nat) : Option (Nat × Nat) :=
  if mode.backward then
    if place = 0 then none else (subject.codes[place - 1]?).map fun c => (c, place - 1)
  else (subject.codes[place]?).map fun c => (c, place + 1)

/-- The place after one character that passes a test. -/
def read? (subject : Subject) (mode : Mode) (test : CharTest) (place : Nat) : Option Nat :=
  match subject.next? mode place with
  | none => none
  | some (c, after) =>
    if test.accepts (if mode.ignoreCase then Unicode.toLower c else c) then some after else none

/-- Whether the character at a place is a word character. -/
def wordAt (subject : Subject) (place : Nat) : Bool :=
  match subject.codes[place]? with
  | some c => Unicode.isWord c
  | none => false

/-- Whether a word begins or ends at a place. -/
def boundaryAt (subject : Subject) (place : Nat) : Bool :=
  (0 < place && subject.wordAt (place - 1)) != subject.wordAt place

/-- Whether a condition on a place holds. -/
def holds (subject : Subject) (place : Nat) : Anchor → Bool
  | .lineStart => place == 0 || subject.codes[place - 1]? == some 10
  | .lineEnd => place == subject.codes.size || subject.codes[place]? == some 10
  | .textStart => place == 0
  | .searchStart => place == subject.start
  | .textEndOrNewline =>
    place == subject.codes.size ||
      (place + 1 == subject.codes.size && subject.codes[place]? == some 10)
  | .textEnd => place == subject.codes.size
  | .boundary => subject.boundaryAt place
  | .notBoundary => !subject.boundaryAt place

/-- A code as a mode compares it. -/
def folded (subject : Subject) (mode : Mode) (place : Nat) : Option Nat :=
  (subject.codes[place]?).map fun c => if mode.ignoreCase then Unicode.toLower c else c

/-- Whether `length` characters from `a` and from `b` are the same. -/
def sameText (subject : Subject) (mode : Mode) (a : Int) (b : Nat) : Nat → Bool
  | 0 => true
  | length + 1 =>
    0 ≤ a && subject.folded mode a.toNat == subject.folded mode b &&
      subject.sameText mode (a + 1) (b + 1) length

/-- The place behind a repetition of what a group has read. -/
def reread? (subject : Subject) (mode : Mode) (capture : Capture) (place : Nat) : Option Nat :=
  if mode.backward then
    if place < capture.length then none
    else if subject.sameText mode capture.start (place - capture.length) capture.length then
      some (place - capture.length)
    else none
  else if subject.codes.size < place + capture.length then none
  else if subject.sameText mode capture.start place capture.length then
    some (place + capture.length)
  else none

/-- The places behind one, two, … characters that pass a test, nearest first; at most `limit`. -/
def readAll (subject : Subject) (mode : Mode) (test : CharTest) : Nat → Nat → List Nat
  | 0, _ => []
  | limit + 1, place =>
    match subject.read? mode test place with
    | none => []
    | some after => after :: subject.readAll mode test limit after

end Subject

/-- The first place from which the continuation succeeds. -/
def tryPlaces (state : State) (next : Continuation) : List Nat → Option State
  | [] => none
  | place :: rest =>
    match next { state with place } with
    | some result => some result
    | none => tryPlaces state next rest

/-- Repetition of one character. -/
def repeatChars (subject : Subject) (mode : Mode) (test : CharTest) (count : Repeat) : Step :=
  fun state next =>
    let limit := (count.most.getD subject.codes.size).min subject.codes.size
    let places := state.place :: subject.readAll mode test limit state.place
    let enough := places.drop count.least
    tryPlaces state next (if count.reluctant then enough else enough.reverse)

/-- Rounds of a repetition without limit that prefers more of them. A round that reads nothing is
the last one. -/
def moreRounds (round : Step) (next : Continuation) : Nat → Continuation
  | 0, _ => none
  | fuel + 1, state =>
    let (mark, popped) := state.popMark
    if (popped.place : Int) = mark then next popped
    else
      match round (popped.pushMark popped.place) (moreRounds round next fuel) with
      | some result => some result
      | none => next popped

/-- Rounds of a repetition without limit that prefers fewer of them. A round that reads nothing is
the last one, and leaves its mark behind: the group around it is taken to begin there. -/
def fewerRounds (round : Step) (next : Continuation) : Nat → Continuation
  | 0, _ => none
  | fuel + 1, state =>
    let (mark, popped) := state.popMark
    if (popped.place : Int) = mark then next state
    else
      match next popped with
      | some result => some result
      | none => round (popped.pushMark popped.place) (fewerRounds round next fuel)

/-- Counted rounds that prefer more of them; `extra` rounds may follow the required ones. -/
def moreCounted (round : Step) (extra : Option Nat) (next : Continuation) : Nat → Continuation
  | 0, _ => none
  | fuel + 1, state =>
    let (count, state) := state.popMark
    let (mark, popped) := state.popMark
    if extra.any (fun most => (most : Int) ≤ count) || ((popped.place : Int) = mark && 0 ≤ count) then
      next popped
    else
      match round ((popped.pushMark popped.place).pushMark (count + 1))
          (moreCounted round extra next fuel) with
      | some result => some result
      | none => if 0 ≤ count then next popped else none

/-- Counted rounds that prefer fewer of them; `extra` rounds may follow the required ones. -/
def fewerCounted (round : Step) (extra : Option Nat) (next : Continuation) : Nat → Continuation
  | 0, _ => none
  | fuel + 1, state =>
    let (count, state) := state.popMark
    let (mark, popped) := state.popMark
    let again := fun (_ : Unit) =>
      round ((popped.pushMark popped.place).pushMark (count + 1)) (fewerCounted round extra next fuel)
    if count < 0 then again ()
    else
      match next popped with
      | some result => some result
      | none =>
        if extra.all (fun most => count < (most : Int)) && (popped.place : Int) ≠ mark then again ()
        else none

/-- Repetition of a group. At most one round after the required ones reads nothing, so the length of
the text bounds the number of rounds. -/
def repeatGroup (subject : Subject) (round : Step) (count : Repeat) : Step :=
  fun state next =>
    let fuel := subject.codes.size + count.least + 3
    if count.most.isNone && count.least ≤ 1 then
      let rounds :=
        if count.reluctant then fewerRounds round next fuel else moreRounds round next fuel
      if count.least = 0 then rounds (state.pushMark (-1))
      else round (state.pushMark state.place) rounds
    else
      let extra := count.most.map (· - count.least)
      let rounds :=
        if count.reluctant then fewerCounted round extra next fuel
        else moreCounted round extra next fuel
      if count.least = 0 then rounds ((state.pushMark (-1)).pushMark 0)
      else round ((state.pushMark state.place).pushMark (1 - (count.least : Int))) rounds

/-- What a group reads when it gives up the capture `released`: the text between the two, or the
part that both share. -/
def betweenCaptures (start stop : Int) (released : Capture) : Int × Int :=
  let releasedStop := released.start + released.length
  if releasedStop ≤ start then (releasedStop, start)
  else if stop ≤ released.start then (released.start, stop)
  else (max start released.start, min stop releasedStop)

/-- Closes a group that was opened with a mark. -/
def closeGroup (group released : Option Nat) (next : Continuation) : Continuation :=
  fun state =>
    let record (state : State) (start stop : Int) : State :=
      match group with
      | none => state
      | some group =>
        { state with captures := ⟨group, start, (stop - start).toNat⟩ :: state.captures }
    let (mark, popped) := state.popMark
    let start := min mark popped.place
    let stop := max mark popped.place
    match released with
    | none => next (record popped start stop)
    | some number =>
      match popped.captured? number with
      | none => none
      | some capture =>
        let freed := { popped with captures := State.release number popped.captures }
        let (start, stop) := betweenCaptures start stop capture
        next (record freed start stop)

namespace Node

/-- Matches a node and then what follows it. -/
def run (subject : Subject) : Node → Step
  | empty => fun state next => next state
  | nothing => fun _ _ => none
  | char mode test => fun state next =>
    match subject.read? mode test state.place with
    | some place => next { state with place }
    | none => none
  | repeatChar mode test count => repeatChars subject mode test count
  | backref mode group => fun state next =>
    match state.captured? group with
    | none => none
    | some taken =>
      match subject.reread? mode taken state.place with
      | some place => next { state with place }
      | none => none
  | anchor condition => fun state next =>
    if subject.holds state.place condition then next state else none
  | seq first second => fun state next => first.run subject state fun middle =>
      second.run subject middle next
  | alt first second => fun state next =>
    match first.run subject state next with
    | some result => some result
    | none => second.run subject state next
  | loop body count => repeatGroup subject (body.run subject) count
  | capture group released body => fun state next =>
    body.run subject (state.pushMark state.place) (closeGroup group released next)
  | look positive body => fun state next =>
    match positive, body.run subject state some with
    | true, some found => next { state with captures := found.captures }
    | true, none => none
    | false, some _ => none
    | false, none => next state
  | atomic body => fun state next =>
    match body.run subject state some with
    | some found => next { found with marks := state.marks }
    | none => none
  | ifGroup group yes no => fun state next =>
    if (state.captured? group).isSome then yes.run subject state next
    else no.run subject state next
  | ifMatch condition yes no => fun state next =>
    match condition.run subject state some with
    | some found => yes.run subject { state with captures := found.captures } next
    | none => no.run subject state next

end Node

/-- A match: the place and length of the text read, where the search goes on, and the groups. It begins
where its outermost group does. -/
structure Match where
  start : Int
  length : Nat
  stop : Nat
  captures : List Capture
  deriving DecidableEq, Repr

/-- The place at which a match begins, the first one if it begins before the text. -/
def Match.place (found : Match) : Nat := found.start.toNat

/-- The match that begins at a place. -/
def matchAt? (node : Node) (subject : Subject) (place : Nat) : Option Match :=
  let whole := Node.capture (some 0) none node
  match whole.run subject ⟨place, [], []⟩ some with
  | none => none
  | some state =>
    match state.captured? 0 with
    | none => none
    | some capture => some ⟨capture.start, capture.length, state.place, state.captures⟩

/-- The first match that begins at `place` or later, among `count` places. -/
def findAmong (node : Node) (subject : Subject) : Nat → Nat → Option Match
  | 0, _ => none
  | count + 1, place =>
    match matchAt? node subject place with
    | some found => some found
    | none => findAmong node subject count (place + 1)

/-- The first match of a search that begins at `start`. -/
def find? (node : Node) (codes : Array Nat) (start : Nat) : Option Match :=
  findAmong node ⟨codes, start⟩ (codes.size + 1 - start) start

/-- Where the search goes on behind a match: where it ended, one character further if it was empty. -/
def Match.next (found : Match) : Nat := if found.length = 0 then found.stop + 1 else found.stop

/-- Searches a text for a node from a place on. Nothing is found if there is no match, or if it is given
up because it takes too long. -/
abbrev Engine := Node → Array Nat → Nat → Option Match

/-- All matches from `start` on, at most `fuel` of them: the search ends where it would go on behind the
text, and what was found before a search fails is kept. -/
def findAllFrom (engine : Engine) (node : Node) (codes : Array Nat) : Nat → Nat → List Match
  | 0, _ => []
  | fuel + 1, start =>
    match engine node codes start with
    | none => []
    | some found =>
      if found.next ≤ codes.size then found :: findAllFrom engine node codes fuel found.next
      else [found]

/-- All matches in a text. -/
def findAll (node : Node) (codes : Array Nat) (engine : Engine := find?) : List Match :=
  findAllFrom engine node codes (codes.size + 2) 0

end Sift.Pattern
