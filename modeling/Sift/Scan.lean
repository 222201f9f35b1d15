import Sift.Rule
import Sift.Document
import Sift.Pattern.Matcher

/-!
# Evaluating a rule

The spans of a rule are those its patterns find, each once, without those whose lines an exclusion
touches. Nothing keeps a match from lying beside the text: what it covers is a stretch first, and a
span only if the text has it. An evaluation that looks up or cuts out something that the text does not
have fails.
-/

namespace Sift

/-- A part of a text that is not empty. -/
structure Span where
  start : Nat
  length : Nat
  deriving DecidableEq, Repr

/-- The offset behind a span. -/
def Span.stop (span : Span) : Nat := span.start + span.length

/-- A part of a text as a match gives it. It may lie beside the text. -/
structure Stretch where
  start : Int
  length : Nat
  deriving DecidableEq, Repr

/-- A span as a match gives it. -/
def Span.stretch (span : Span) : Stretch := ⟨span.start, span.length⟩

namespace Stretch

/-- The offset behind a stretch. -/
def stop (stretch : Stretch) : Int := stretch.start + stretch.length

/-- Stretches are ordered by where they begin, then by length. -/
def le (a b : Stretch) : Bool := a.start < b.start || (a.start == b.start && a.length ≤ b.length)

end Stretch

/-- A span that a rule found, with its text. -/
structure Finding where
  span : Span
  text : String
  deriving DecidableEq, Repr

namespace Document

/-- The stretch that a match covers, if its offsets can be looked up. -/
def stretchOf? (doc : Document) (found : Pattern.Match) : Option Stretch :=
  match doc.placeOffset? found.start, doc.placeOffset? (found.start + found.length) with
  | some start, some stop => some ⟨start, (stop - start).toNat⟩
  | _, _ => none

/-- The stretches an expression finds: those of its matches that are not empty and begin where the
expression may match. -/
def spans (doc : Document) (segments : Segments) (expression : Expression)
    (engine : Pattern.Engine := Pattern.find?) : List Stretch :=
  ((Pattern.findAll expression.node doc.codes engine).filterMap doc.stretchOf?).filter fun stretch =>
    0 < stretch.length && segments.allowedAt expression.kinds stretch.start

/-- Whether an exclusion touches the lines of a stretch. -/
def touches (doc : Document) (stretch exclusion : Stretch) : Bool :=
  exclusion.start < doc.lineEnd (stretch.stop - 1).toNat &&
    doc.lineStart stretch.start.toNat < exclusion.stop

/-- Appends the stretches that are not there yet. -/
def addSpans (seen : List Stretch) (stretches : List Stretch) : List Stretch :=
  stretches.foldl (fun seen stretch => if seen.contains stretch then seen else seen ++ [stretch]) seen

/-- What a stretch covers, if the text has it. -/
def cut? (doc : Document) (stretch : Stretch) : Option Finding :=
  (doc.slice? stretch.start stretch.stop).map fun part =>
    ⟨⟨stretch.start.toNat, stretch.length⟩, Utf8.toValidString part⟩

section Evaluation

variable (doc : Document) (segments : Segments) (rule : Rule)

/-- What the patterns of a rule find, each stretch once. -/
def found (engine : Pattern.Engine := Pattern.find?) : List Stretch :=
  (rule.patterns.map fun pattern => doc.spans segments pattern engine).foldl addSpans []

/-- What the exclusions of a rule find; they are looked for only if a pattern has found something. -/
def excluded (engine : Pattern.Engine := Pattern.find?) : List Stretch :=
  if (doc.found segments rule engine).isEmpty then []
  else rule.exclusions.flatMap fun exclusion => doc.spans segments exclusion engine

/-- The stretches of a rule that no exclusion touches, by ascending offset. -/
def kept (engine : Pattern.Engine := Pattern.find?) : List Stretch :=
  ((doc.found segments rule engine).mergeSort Stretch.le).filter fun stretch =>
    !(doc.excluded segments rule engine).any (doc.touches stretch)

/-- What a rule finds in a text, by ascending offset. -/
def findings (engine : Pattern.Engine := Pattern.find?) : List Finding :=
  (doc.kept segments rule engine).filterMap doc.cut?

/-- Whether the offsets of the matches of an expression can be looked up. -/
def looksUp (expression : Expression) (engine : Pattern.Engine) : Bool :=
  (Pattern.findAll expression.node doc.codes engine).all fun found => (doc.stretchOf? found).isSome

/-- Whether the text has all that is looked up and cut out for a rule: the offsets of matches, the line
that a stretch ends on where there are exclusions to compare it with, and what is kept. -/
def evaluates (engine : Pattern.Engine) : Bool :=
  (rule.patterns.all fun pattern => doc.looksUp pattern engine) &&
    ((doc.found segments rule engine).isEmpty ||
      ((rule.exclusions.all fun exclusion => doc.looksUp exclusion engine) &&
        ((doc.excluded segments rule engine).isEmpty ||
          (doc.found segments rule engine).all fun stretch => 0 < stretch.stop) &&
        (doc.kept segments rule engine).all fun stretch => (doc.cut? stretch).isSome))

end Evaluation

end Document

end Sift
