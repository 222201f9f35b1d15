import Sift.Rule.Record
import Sift.Pattern.Parser
import Sift.Pattern.Literal
import Sift.Segment

/-!
# Rules

A rule is a named detector: patterns that find spans of text, and exclusions that take some of them
back. Every pattern of a rule has been read, so evaluating a rule cannot fail.
-/

namespace Sift

/-- A pattern ready for use. -/
structure Expression where
  record : PatternRecord
  node : Pattern.Node
  /-- Where a match may begin. -/
  kinds : Kinds
  deriving DecidableEq

/-- A rule ready for use. -/
structure Rule where
  id : String
  name : String
  description : String
  recommendation : String
  tags : Option (List String)
  severity : Severity
  /-- Languages in lower case; a rule without any applies to all. -/
  appliesTo : List String
  patterns : List Expression
  exclusions : List Expression
  disabled : Bool
  /-- The source the rule came from. -/
  source : String
  deriving DecidableEq

namespace Expression

/-- Whether a character makes a word boundary meaningful beside it. -/
def joinsWords (c : Char) : Bool :=
  c = '_' || Unicode.letterRanges.contains c.toNat || Unicode.decimalDigitRanges.contains c.toNat

/-- Literal text as an expression, bounded where it begins or ends like a word. -/
def wordBounded (text : String) : String :=
  let bound (c : Option Char) : String := if c.any joinsWords then "\\b" else ""
  bound text.toList.head? ++ Pattern.literal text ++ bound text.toList.getLast?

/-- The expression that a pattern of a type stands for. -/
def source (type text : String) : Except RuleFault String :=
  if type = "regex" then .ok text
  else if type = "regex-word" then .ok ("\\b(?:" ++ text ++ ")\\b")
  else if type = "string" then .ok (wordBounded text)
  else if type = "substring" then .ok (Pattern.literal text)
  else .error (.unknownPatternType type)

/-- Adds modifiers to options. -/
def addModifiers (options : Pattern.Options) : List String → Except RuleFault Pattern.Options
  | [] => .ok options
  | name :: rest =>
    let lower := Unicode.lowerString name
    if lower = "i" then addModifiers { options with ignoreCase := true } rest
    else if lower = "m" then addModifiers options rest
    else if lower = "s" || lower = "d" then addModifiers { options with singleline := true } rest
    else .error (.unknownModifier name)

/-- Adds scopes to the kinds of text that are allowed. -/
def addScopes (kinds : Kinds) : List String → Except RuleFault Kinds
  | [] => .ok kinds
  | name :: rest =>
    let lower := Unicode.lowerString name
    if lower = "code" then addScopes { kinds with code := true } rest
    else if lower = "comment" then addScopes { kinds with comment := true } rest
    else if lower = "all" then addScopes ⟨true, true⟩ rest
    else .error (.unknownPatternScope name)

/-- Makes a pattern ready for use. A pattern without a type is an expression as it stands, and one
without scopes may match anywhere. -/
def compile (record : PatternRecord) : Except RuleFault Expression := do
  if record.text = "" then throw .emptyPattern
  let record := { record with type := if record.type = "" then "regex" else record.type }
  let expression ← source record.type record.text
  let options ← addModifiers { multiline := true } record.modifiers
  let kinds ← addScopes ⟨false, false⟩ record.scopes
  let kinds := if record.scopes.isEmpty then ⟨true, true⟩ else kinds
  match Pattern.parse options expression with
  | .ok node => return ⟨record, node, kinds⟩
  | .error error => throw (.badExpression expression error)

end Expression

namespace Rule

/-- Makes the patterns of a list ready for use. -/
def compileAll (source id : String) : List (Option PatternRecord) → Except LoadError (List Expression)
  | [] => .ok []
  | none :: _ => .error (.parse source id .emptyPattern)
  | some record :: rest =>
    match Expression.compile record with
    | .error fault => .error (.compile source id record.text fault)
    | .ok expression => (compileAll source id rest).map (expression :: ·)

/-- Checks a record and makes its patterns ready for use. -/
def compile (source : String) (record : RuleRecord) : Except LoadError Rule := do
  if Text.trim record.id = "" then throw (.parse source "" .missingId)
  if let some fault := record.fault then throw (.parse source record.id fault)
  if record.severity = .none then throw (.parse source record.id .missingSeverity)
  let patterns ← compileAll source record.id record.patterns
  let exclusions ← compileAll source record.id record.exclusions
  return {
    id := record.id, name := record.name, description := record.description
    recommendation := record.recommendation, tags := record.tags, severity := record.severity
    appliesTo := record.appliesTo.map Text.normalize
    patterns, exclusions, disabled := record.disabled, source }

/-- Whether a rule is about a language. -/
def appliesToLanguage (rule : Rule) (language : String) : Bool :=
  rule.appliesTo.isEmpty || rule.appliesTo.any fun name => Unicode.equalFold name language

end Rule

end Sift
