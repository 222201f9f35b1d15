import Sift.Report.Record
import Sift.Json.Printer

/-!
# Reports as JSON

One document with the tool, the issues and a summary. Baselines are read from such reports.
-/

namespace Sift.Report

/-- A field that is left out if it is empty. -/
def unlessEmpty (key value : String) : List (String × Json) :=
  if value = "" then [] else [(key, .string value)]

/-- The tags of a rule, left out if there are none. -/
def tagFields (rule : Rule) : List (String × Json) :=
  match rule.tags with
  | some (tag :: tags) => [("tags", .strings (tag :: tags))]
  | _ => []

/-- Where an issue is, and its rule. -/
def placeFields (locator : Locator) (record : Record) : List (String × Json) :=
  let issue := record.issue
  let rule := issue.rule
  [("path", .string (locator.uri record.path)), ("line", .int issue.line), ("column", .nat issue.column),
   ("end_line", .int (endLine issue)), ("end_column", .nat (endColumn issue)),
   ("boundary", .object [("index", .nat issue.span.start), ("length", .nat issue.span.length)]),
   ("rule_id", .string rule.id), ("rule_name", .string rule.name),
   ("severity", rule.severity.toJson)]

/-- The entry of a record. -/
def issueJson (locator : Locator) (record : Record) : Json :=
  let issue := record.issue
  let rule := issue.rule
  .object <|
    placeFields locator record ++ tagFields rule ++
    unlessEmpty "description" rule.description ++
    unlessEmpty "recommendation" rule.recommendation ++
    [("match", .string issue.text)] ++
    unlessEmpty "url" (locator.link (locator.uri record.path) issue.line (endLine issue))

/-- How many different strings there are. -/
def countDistinct (names : List String) : Nat := names.eraseDups.length

/-- How many records have each name, by ascending name. -/
def countByName (names : List String) : List (String × Json) :=
  (names.eraseDups.mergeSort (fun a b => a ≤ b)).map fun name => (name, .nat (names.count name))

/-- The whole report. -/
def document (runId : String) (tool : Tool) (locator : Locator) (records : List Record) : Json :=
  .object [
    ("run_id", .string runId),
    ("tool", .object [("name", .string tool.name), ("version", .string tool.version)]),
    ("issues", .array (records.map (issueJson locator))),
    ("summary", .object [
      ("issues", .nat records.length),
      ("files", .nat (countDistinct (records.map fun record => locator.uri record.path))),
      ("rules", .nat (countDistinct (records.map fun record => record.issue.rule.id))),
      ("by_severity", .object
        (countByName (records.map fun record => record.issue.rule.severity.highest.text)))])]

end Sift.Report
