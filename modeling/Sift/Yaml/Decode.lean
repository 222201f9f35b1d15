import Sift.Duration
import Sift.Yaml.Scalar

/-!
# Reading values from nodes

A value is read into what is there already: a mapping changes the fields that it names. A node that
has no reading makes the whole reading fail.
-/

namespace Sift.Yaml.Node

/-- The node that an alias stands for. -/
def body : Node → Node
  | .alias (some target) => target
  | node => node

/-- What a scalar means. -/
def meaning? (node : Node) : Option Scalar :=
  match node.body with
  | .scalar tag plain text => Scalar.meaning? tag plain text
  | _ => none

/-! ## Single values -/

/-- Text. Numbers and truth values are text as they are written; nothing is empty text. -/
def string? (node : Node) : Option String :=
  match node.body with
  | .scalar tag plain text =>
    (Scalar.meaning? tag plain text).map fun
      | .null => ""
      | _ => text
  | _ => none

/-- Whether a scalar that means nothing leaves a switch open, which depends on its spelling. -/
def leavesOpen (tag text : String) : Bool :=
  tag = Scalar.builtIn "null" || (tag = "" && (text = "null" || text = "~" || text = ""))

/-- A switch. -/
def switch? (node : Node) : Option (Option Bool) :=
  match node.body with
  | .scalar tag plain text =>
    match Scalar.meaning? tag plain text with
    | some .null => some (if leavesOpen tag text then none else some false)
    | some (.bool value) => some (some value)
    | _ => none
  | _ => none

/-- A whole number of 64 bits. -/
def int? (node : Node) : Option Int :=
  match node.meaning? with
  | some .null => some 0
  | some (.int value) => if value < (1 <<< 63 : Nat) then some value else none
  | some (.float whole) => whole
  | _ => none

/-- A length of time, as text or as a number of nanoseconds. -/
def duration? (node : Node) : Option Duration :=
  match node.meaning? with
  | some (.text content) => (Duration.parse content).toOption
  | _ => node.int?.map Duration.mk

/-- A list of texts. -/
def strings? (node : Node) : Option (List String) :=
  match node.body with
  | .sequence items => items.mapM string?
  | body => if body.meaning? = some .null then some [] else none

/-! ## Fields -/

/-- Whether a key asks for the pairs of other mappings. -/
def isMerge : Node → Bool
  | .scalar tag plain text => text = "<<" && (plain || tag = Scalar.builtIn "merge")
  | _ => false

mutual

/-- The pairs of a mapping in the order in which they count, with those of the mappings it asks for. -/
def pairs? : Node → Option (List (Node × Node))
  | .mapping pairs => pairsOf? pairs
  | .alias (some (.mapping pairs)) => pairsOf? pairs
  | _ => none

/-- The pairs of a mapping's body. -/
def pairsOf? : List (Node × Node) → Option (List (Node × Node))
  | [] => some []
  | (key, value) :: rest => do
    let here ← if isMerge key then merged? value else some [(key, value)]
    let later ← pairsOf? rest
    some (here ++ later)

/-- The pairs that a mapping takes from elsewhere. Of several mappings the first counts last. -/
def merged? : Node → Option (List (Node × Node))
  | .mapping pairs => pairsOf? pairs
  | .alias (some (.mapping pairs)) => pairsOf? pairs
  | .sequence items => mergedOf? items
  | _ => none

/-- The pairs of several mappings, those of the last one in front. -/
def mergedOf? : List Node → Option (List (Node × Node))
  | [] => some []
  | item :: rest => do
    let later ← mergedOf? rest
    let here ← pairs? item
    some (later ++ here)

end

/-- Reads the fields of a mapping into a value; nothing makes it empty. -/
def fields? (set : String → Node → α → Option α) (empty current : α) (node : Node) : Option α :=
  match node.body with
  | .mapping pairs => do
    let pairs ← pairsOf? pairs
    pairs.foldlM (fun value pair => (string? pair.1).bind fun name => set name pair.2 value) current
  | body => if body.meaning? = some .null then some empty else none

end Sift.Yaml.Node
