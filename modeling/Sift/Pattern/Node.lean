import Sift.Pattern.CharClass

/-!
# Pattern trees

The tree of a pattern, and the small simplifications made while it is built: neighbouring single
characters of an alternation become one class, and a repetition of a repetition becomes one.
-/

namespace Sift.Pattern

/-- How a piece of a pattern reads the text. -/
structure Mode where
  ignoreCase : Bool := false
  /-- Reads from right to left, as inside a lookbehind. -/
  backward : Bool := false
  deriving DecidableEq, Repr

/-- A test of one character. -/
inductive CharTest where
  | char (c : Nat)
  | notChar (c : Nat)
  | oneOf (cls : CharClass)
  deriving DecidableEq

namespace CharTest

/-- Whether the character passes. -/
def accepts (c : Nat) : CharTest → Bool
  | char d => c == d
  | notChar d => c != d
  | oneOf cls => cls.contains c

/-- The test for membership in a class, said as plainly as possible. -/
def ofClass (cls : CharClass) : CharTest :=
  match cls.soleCode? with
  | some c => if cls.layer.negated then notChar c else char c
  | none => oneOf cls

/-- The test as a class that can be joined with others. -/
def joinable? : CharTest → Option CharClass
  | char c => some (CharClass.single c)
  | notChar _ => none
  | oneOf cls => if cls.joinable then some cls else none

end CharTest

/-- A condition on a place in the text. -/
inductive Anchor where
  | lineStart
  | lineEnd
  | textStart
  | searchStart
  | textEndOrNewline
  | textEnd
  | boundary
  | notBoundary
  deriving DecidableEq, Repr

/-- How often a piece is repeated, and whether fewer rounds are preferred. -/
structure Repeat where
  least : Nat
  most : Option Nat
  reluctant : Bool
  deriving DecidableEq, Repr

/-- The tree of a pattern. -/
inductive Node where
  /-- Matches without reading. -/
  | empty
  /-- Never matches. -/
  | nothing
  | char (mode : Mode) (test : CharTest)
  | repeatChar (mode : Mode) (test : CharTest) (count : Repeat)
  | backref (mode : Mode) (group : Nat)
  | anchor (anchor : Anchor)
  | seq (first second : Node)
  | alt (first second : Node)
  | loop (body : Node) (count : Repeat)
  /-- Records the text read by `body` for `group`, giving up the last record of `released`. -/
  | capture (group released : Option Nat) (body : Node)
  | look (positive : Bool) (body : Node)
  | atomic (body : Node)
  | ifGroup (group : Nat) (yes no : Node)
  | ifMatch (condition yes no : Node)
  deriving DecidableEq

namespace Node

/-- A sequence of nodes. -/
def ofList : List Node → Node
  | [] => empty
  | [node] => node
  | node :: rest => seq node (ofList rest)

/-- The nodes of a sequence, those that read nothing and test nothing left out. -/
def pieces : Node → List Node
  | empty => []
  | seq first second => first.pieces ++ second.pieces
  | node => [node]

/-- A sequence in reading order; text that is read backward takes the last piece first. -/
def sequence (backward : Bool) (nodes : List Node) : Node :=
  ofList ((if backward then nodes.reverse else nodes).flatMap pieces)

/-- The alternatives of a node. -/
def choices : Node → List Node
  | alt first second => first.choices ++ second.choices
  | nothing => []
  | node => [node]

/-- Joins neighbouring single characters and classes. -/
def joinChoices : List Node → List Node
  | [] => []
  | node :: rest =>
    match node, joinChoices rest with
    | char mode test, char mode' test' :: others =>
      match test.joinable?, test'.joinable? with
      | some cls, some cls' =>
        if mode = mode' then char mode (.oneOf (cls.union cls')) :: others
        else node :: char mode' test' :: others
      | _, _ => node :: char mode' test' :: others
    | _, others => node :: others

/-- An alternation of given nodes, tried from the left. -/
def ofChoices : List Node → Node
  | [] => nothing
  | [node] => node
  | node :: rest => alt node (ofChoices rest)

/-- An alternation. -/
def alternation (nodes : List Node) : Node :=
  ofChoices (joinChoices (nodes.flatMap choices))

/-- The greatest count that is written as a number; it stands for no limit. -/
def countLimit : Nat := 2147483647

/-- The product of two counts, no limit when it grows too large. -/
def scaleCount (inner outer : Nat) : Nat :=
  if inner = 0 then 0 else if (countLimit - 1) / inner < outer then countLimit else inner * outer

/-- A bound as a number. -/
def boundValue (most : Option Nat) : Nat := most.getD countLimit

/-- A bound from a number. -/
def boundOf (n : Nat) : Option Nat := if n = countLimit then none else some n

/-- Counts of a repetition of a repetition, when the two can be blurred into one. -/
def combine? (outer inner : Repeat) : Option Repeat :=
  if outer.reluctant != inner.reluctant then none
  else if (outer.least = 0 && inner.least > 1) || boundValue inner.most < inner.least * 2 then none
  else
    some { least := scaleCount inner.least outer.least
           most := boundOf (scaleCount (boundValue inner.most) (boundValue outer.most))
           reluctant := outer.reluctant }

/-- A repetition of a group. -/
def repeated (body : Node) (count : Repeat) : Node :=
  if count.least = countLimit then nothing
  else
    match body with
    | loop inner innerCount =>
      match combine? count innerCount with
      | some joined => loop inner joined
      | none => loop body count
    | repeatChar mode test innerCount =>
      match combine? count innerCount with
      | some joined => repeatChar mode test joined
      | none => loop body count
    | _ => loop body count

/-- Applies a repetition to a piece; `single` says that the piece is written as one character. -/
def quantify (single : Bool) (node : Node) (count : Repeat) : Node :=
  if count.least = 0 && count.most = some 0 then empty
  else if count.least = 1 && count.most = some 1 then node
  else
    match single, node with
    | true, char mode test => repeatChar mode test count
    | _, _ => repeated node count

end Node

end Sift.Pattern
