import Sift.Document
import Sift.Pattern.Parser
import Sift.Pattern.Matcher
import Sift.Text.Blank
import Sift.Unicode.Folding

/-!
# Suppressions

A remark such as `skim: ignore R1, R2` or `skim: ignore all` silences rules on the line it stands
on. What is silenced on the lines of a text is put down remark by remark.
-/

namespace Sift

/-- What a remark silences. -/
inductive Silenced where
  | all
  | only (ids : List String)
  deriving DecidableEq, Repr

/-- A remark that silences rules on a line, counted from zero. -/
structure Suppression where
  line : Nat
  silenced : Silenced
  deriving DecidableEq, Repr

namespace Suppression

/-- What a remark looks like; its first group is the list of rules. -/
def pattern : String :=
  "\\b(?:dev)?skim:\\s*ignore\\s+(all\\b|[\\w\\-]+(?:\\s*,\\s*[\\w\\-]+)*)"

/-- The pattern of a remark, read. -/
def node : Pattern.Node :=
  match Pattern.parse { ignoreCase := true } pattern with
  | .ok node => node
  | .error _ => .nothing

/-- The text of the first group. -/
def listText (codes : Array Nat) (found : Pattern.Match) : String :=
  match found.captures.find? (·.group == 1) with
  | some capture =>
    let start := capture.start.toNat
    String.ofList ((codes.extract start (start + capture.length)).toList.map Char.ofNat)
  | none => ""

/-- What a list of rules silences. -/
def silencedBy (list : String) : Silenced :=
  if Unicode.equalFold list "all" then .all else .only ((Text.splitAt ',' list).map Text.trim)

/-- The matches of remarks in a text. They are looked for only if the word of a remark is there. -/
def remarks (doc : Document) (engine : Pattern.Engine := Pattern.find?) : List Pattern.Match :=
  let lower := doc.codes.toList.map fun code => Char.ofNat (Unicode.toLower code)
  if !Text.containsChars "skim:".toList lower then [] else Pattern.findAll node doc.codes engine

/-- The remarks of a text. -/
def inDocument (doc : Document) (engine : Pattern.Engine := Pattern.find?) : List Suppression :=
  (remarks doc engine).map fun found =>
    ⟨doc.lineOf (doc.byteOffset found.place), silencedBy (listText doc.codes found)⟩

/-- Whether the text has what the first group has read. -/
def hasList (codes : Array Nat) (found : Pattern.Match) : Bool :=
  (found.captures.find? (·.group == 1)).all fun capture : Pattern.Capture =>
    decide (0 ≤ capture.start ∧ capture.start + capture.length ≤ codes.size)

/-- Whether the text has all that is looked up and read for its remarks. -/
def looksUp (doc : Document) (engine : Pattern.Engine) : Bool :=
  (remarks doc engine).all fun found =>
    (doc.placeOffset? found.start).isSome && hasList doc.codes found

/-- Whether a remark silences a rule on a line. -/
def covers (suppression : Suppression) (line : Nat) (id : String) : Bool :=
  suppression.line == line &&
    match suppression.silenced with
    | .all => true
    | .only ids => ids.contains id

end Suppression

/-- What is silenced on the lines of a text that have remarks; the first entry for a line counts. -/
structure Silencing where
  entries : List (Nat × Silenced) := []
  deriving DecidableEq, Repr

namespace Silencing

/-- What is silenced on a line, if there is a remark on it. -/
def at? (silencing : Silencing) (line : Nat) : Option Silenced := silencing.entries.lookup line

/-- Puts down what is silenced on a line. -/
def put (silencing : Silencing) (line : Nat) (silenced : Silenced) : Silencing :=
  ⟨(line, silenced) :: silencing.entries⟩

/-- Takes a remark into account: its rules join those of the line, and where all rules are silenced
they stay so. -/
def note (silencing : Silencing) (remark : Suppression) : Silencing :=
  match remark.silenced with
  | .all => silencing.put remark.line .all
  | .only ids =>
    match silencing.at? remark.line with
    | some .all => silencing
    | some (.only known) => silencing.put remark.line (.only (known ++ ids))
    | none => silencing.put remark.line (.only ids)

/-- What the remarks of a text silence. -/
def inDocument (doc : Document) (engine : Pattern.Engine := Pattern.find?) : Silencing :=
  (Suppression.inDocument doc engine).foldl note {}

/-- Whether a rule is silenced on a line. -/
def covers (silencing : Silencing) (line : Nat) (id : String) : Bool :=
  match silencing.at? line with
  | some .all => true
  | some (.only ids) => ids.contains id
  | none => false

end Silencing

end Sift
