import Sift.RuleSet.Directory
import Sift.Scan
import Sift.Suppression
import Sift.Bundled

/-!
# Analysing text

A processor holds a rule set and the severities in force. It finds the issues of a text and builds
its rule set anew from settings.
-/

namespace Sift

/-- A rule's finding at a place in a text. -/
structure Issue where
  rule : Rule
  /-- The number of the line, counted from that of the line the text begins on. -/
  lineNumber : Int64
  /-- The column in bytes, from one. -/
  column : Nat
  span : Span
  text : String

namespace Issue

/-- The line as a number. -/
def line (issue : Issue) : Int := issue.lineNumber.toInt

/-- Issues are ordered by line, then offset, then rule. -/
def le (a b : Issue) : Bool :=
  a.line < b.line ||
    (a.line == b.line &&
      (a.span.start < b.span.start || (a.span.start == b.span.start && a.rule.id ≤ b.rule.id)))

/-- The identifiers among issues, each once. -/
def distinctRules (issues : List Issue) : List String :=
  issues.foldl (fun seen issue => if seen.contains issue.rule.id then seen else issue.rule.id :: seen) []

end Issue

/-- What decides which rules are loaded and which severities are in force. -/
structure Settings where
  useBundledRules : Bool := false
  useCustomRules : Bool := false
  customRulesPath : String := ""
  important : Bool := false
  moderate : Bool := false
  bestPractice : Bool := false
  manualReview : Bool := false

/-- The severities in force; critical ones always are. -/
def Settings.mask (settings : Settings) : Severity :=
  let level (on : Bool) (severity : Severity) := if on then severity else .none
  [level settings.important .important, level settings.moderate .moderate,
    level settings.bestPractice .bestPractice, level settings.manualReview .manualReview].foldl
    Severity.union .critical

/-- A corpus of rules that can be loaded into a set. -/
abbrev Corpus := RuleSet → RuleSet × Option LoadFailure

/-- Finds issues by a rule set and severities. -/
structure Processor where
  rules : Option RuleSet
  mask : Severity := .critical
  syntaxes : SyntaxRegistry := .builtIn

namespace Processor

/-- A processor of a rule set, or of an empty one where none is given. Only critical severities are in
force. -/
def ofRules (rules : Option RuleSet) (recursive : Bool) (syntaxes : SyntaxRegistry) : Processor :=
  { rules := some (rules.getD { recursive }), syntaxes }

/-- The issues of a rule in a text. -/
def issuesOf (doc : Document) (segments : Segments) (silencing : Silencing) (startLine : Int)
    (rule : Rule) (engine : Pattern.Engine := Pattern.find?) : List Issue :=
  (doc.findings segments rule engine).filterMap fun finding =>
    let line := doc.lineOf finding.span.start
    if silencing.covers line rule.id then none
    else
      some {
        rule, lineNumber := .ofInt (line + startLine)
        column := finding.span.start - doc.lineStart finding.span.start + 1
        span := finding.span, text := finding.text }

/-- The issues that some rules find in a text. -/
def issuesOfAll (rules : List Rule) (syntaxes : SyntaxRegistry) (text : Bytes)
    (languages : List String) (startLine : Int) (engine : Pattern.Engine := Pattern.find?) :
    List Issue :=
  let doc := Document.ofBytes text
  let segments := syntaxes.segment text languages
  let silencing := Silencing.inDocument doc engine
  let issues := rules.flatMap fun rule => issuesOf doc segments silencing startLine rule engine
  issues.mergeSort Issue.le

/-- The issues of a text by line, offset and rule. `startLine` is the line the text begins on; it is
at least the first. -/
def analyze (processor : Processor) (text : Bytes) (languages : List String) (startLine : Int)
    (engine : Pattern.Engine := Pattern.find?) : List Issue × Processor :=
  match processor.rules with
  | none => ([], processor)
  | some set =>
    if text.isEmpty then ([], processor)
    else
      let (candidates, set) := set.candidatesFor languages (processor.mask.union .critical)
      let issues :=
        if candidates.isEmpty then []
        else issuesOfAll candidates processor.syntaxes text languages (max startLine 1) engine
      (issues, { processor with rules := some set })

/-- The rules that are tried on a text. -/
def candidates (processor : Processor) (text : Bytes) (languages : List String) : List Rule :=
  match processor.rules with
  | none => []
  | some set =>
    if text.isEmpty then [] else (set.candidatesFor languages (processor.mask.union .critical)).1

/-- The issues of a text, if it has all that is looked up and cut out on the way to them. -/
def analyze? (processor : Processor) (text : Bytes) (languages : List String) (startLine : Int)
    (engine : Pattern.Engine := Pattern.find?) : Option (List Issue × Processor) :=
  let doc := Document.ofBytes text
  let segments := processor.syntaxes.segment text languages
  let rules := processor.candidates text languages
  let evaluates :=
    rules.isEmpty ||
      (Suppression.looksUp doc engine && rules.all fun rule => doc.evaluates segments rule engine)
  if evaluates then some (processor.analyze text languages startLine engine) else none

/-- Whether more than one rule finds something in a text. -/
def hasMultipleProblems (processor : Processor) (text : Bytes) (languages : List String) :
    Bool × Processor :=
  let (issues, processor) := processor.analyze text languages 1
  (1 < (Issue.distinctRules issues).length, processor)

/-- Puts a rule set in the place of the one before. -/
def setRules (processor : Processor) (rules : Option RuleSet) : Processor := { processor with rules }

/-- Puts severities in force; critical ones are always among them. -/
def setSeverity (processor : Processor) (mask : Severity) : Processor :=
  { processor with mask := mask.union .critical }

/-- A rule set as settings ask for it, with all the errors of loading it. -/
def loadRules (fs : FileSystem) (bundled : Option Corpus) (recursive : Bool) (settings : Settings) :
    RuleSet × Option LoadFailure :=
  let start : RuleSet := { recursive }
  let (set, first) :=
    match settings.useBundledRules, bundled with
    | true, some load => load start
    | _, _ => (start, none)
  let (set, second) :=
    if settings.useCustomRules then
      set.addDirectory fs settings.customRulesPath RuleSet.customLabel
    else (set, none)
  let collected := LoadReport.collect [] (first.map LoadFailure.report)
  let collected := LoadReport.collect collected (second.map LoadFailure.report)
  (set, (LoadReport.ofCollected? collected).map LoadReport.failure)

/-- Builds the rule set anew from settings. Errors are collected, and what could be loaded is used. -/
def reload (processor : Processor) (fs : FileSystem) (bundled : Option Corpus) (recursive : Bool)
    (settings : Settings) : Processor × Option LoadFailure :=
  let (set, failure) := loadRules fs bundled recursive settings
  ({ processor with rules := some set, mask := settings.mask }, failure)

end Processor

end Sift
