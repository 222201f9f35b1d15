import Sift.Report.Record
import Sift.Json.Printer

/-!
# Reports as SARIF

A log of one run, with the rules that were hit and a result for each issue.
-/

namespace Sift.Report.Sarif

/-- Where the tool is described. -/
def informationUri : String := "https://github.com/scan-io-git/skim"

/-- The level of a severity. -/
def level (severity : Severity) : String :=
  let highest := severity.highest
  if highest = .critical || highest = .important then "error"
  else if highest = .moderate then "warning"
  else "note"

/-- A text as an object of its own. -/
def textObject (text : String) : Json := .object [("text", .string text)]

/-- The description of a rule. -/
def ruleJson (rule : Rule) : Json :=
  let description := if rule.description = "" then rule.name else rule.description
  .object <|
    [("id", .string rule.id), ("name", .string rule.name),
     ("shortDescription", textObject rule.name), ("fullDescription", textObject description),
     ("defaultConfiguration", .object [("level", .string (level rule.severity))])] ++
    (if rule.recommendation = "" then [] else [("help", textObject rule.recommendation)]) ++
    [("properties", .object [
      ("severity", .strings rule.severity.names), ("source", .string rule.source),
      ("tags", match rule.tags with
        | some tags => .strings tags
        | none => .null)])]

/-- The message of an issue. -/
def message (rule : Rule) : String :=
  if rule.recommendation = "" then rule.name else rule.name ++ ". " ++ rule.recommendation

/-- Puts a rule among others by ascending identifier, in place of one with the same. -/
def insertRule (rule : Rule) : List Rule → List Rule
  | [] => [rule]
  | other :: rest =>
    if rule.id = other.id then rule :: rest
    else if rule.id < other.id then rule :: other :: rest
    else other :: insertRule rule rest

/-- The rules of records by ascending identifier, each once. -/
def rulesOf (records : List Record) : List Rule :=
  records.foldl (fun rules record => insertRule record.issue.rule rules) []

/-- The result of a record. -/
def resultJson (locator : Locator) (rules : List Rule) (record : Record) : Json :=
  let issue := record.issue
  let rule := issue.rule
  let uri := locator.uri record.path
  let last := endLine issue
  let link := locator.link uri issue.line last
  .object [
    ("properties", .object [
      ("Level", .string (level rule.severity)), ("Severity", .strings rule.severity.names),
      ("Title", .string rule.name)]),
    ("ruleId", .string rule.id),
    ("ruleIndex", .nat (rules.findIdx (·.id == rule.id))),
    ("level", .string (level rule.severity)),
    ("message", textObject (message rule)),
    ("locations", .array [.object <|
      [("physicalLocation", .object [
        ("artifactLocation", .object [("uri", .string uri)]),
        ("region", .object [
          ("startLine", .int issue.line), ("startColumn", .nat issue.column),
          ("endLine", .int last), ("endColumn", .nat (endColumn issue))])])] ++
      if link = "" then [] else [("properties", .object [("WebURL", .string link)])]])]

/-- The whole report. -/
def document (tool : Tool) (locator : Locator) (records : List Record) : Json :=
  let rules := rulesOf records
  .object [
    ("version", .string "2.1.0"),
    ("$schema", .string "https://json.schemastore.org/sarif-2.1.0.json"),
    ("runs", .array [.object [
      ("tool", .object [("driver", .object [
        ("informationUri", .string informationUri), ("name", .string tool.name),
        ("rules", .array (rules.map ruleJson)), ("semanticVersion", .string tool.version)])]),
      ("results", .array (records.map (resultJson locator rules)))]])]

end Sift.Report.Sarif
