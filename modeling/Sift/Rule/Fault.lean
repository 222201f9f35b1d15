import Sift.FileSystem
import Sift.Pattern.Error
import Sift.Text.Quoted

/-!
# What can go wrong with rules

A fault is one thing wrong with a rule or its source. A load error says where a fault was found, and
a failed load holds one error or several. What the parts of a load give back is collected into one
aggregate.
-/

namespace Sift

/-- A fault of a rule or of a rule source. -/
inductive RuleFault where
  /-- The source holds nothing. -/
  | emptySource
  /-- The source or a record of it is not the JSON that was expected. -/
  | malformed
  /-- A severity is neither a string nor a list of strings. -/
  | malformedSeverity
  | missingId
  /-- The identifier is taken, by another rule of the source or by the source `owner`. -/
  | duplicateId (owner : Option String)
  | unknownSeverity (name : String)
  | missingSeverity
  | unknownPatternType (name : String)
  | unknownPatternScope (name : String)
  | unknownModifier (name : String)
  | emptyPattern
  /-- The expression of a pattern cannot be read. -/
  | badExpression (expression : String) (error : Pattern.SyntaxError)

namespace RuleFault

/-- A fault in words. -/
def message : RuleFault → String
  | emptySource => "rule source is empty"
  | malformed => "<json>"
  | malformedSeverity => "severity must be a string or a list of strings: <json>"
  | missingId => "rule has no identifier"
  | duplicateId none => "rule identifier is already registered"
  | duplicateId (some owner) => "rule identifier is already registered by " ++ Text.quote owner
  | unknownSeverity name => "unknown severity: " ++ Text.quote name
  | missingSeverity => "rule has no severity"
  | unknownPatternType name => "unknown pattern type: " ++ Text.quote name
  | unknownPatternScope name => "unknown pattern scope: " ++ Text.quote name
  | unknownModifier name => "unknown pattern modifier: " ++ Text.quote name
  | emptyPattern => "pattern text is empty"
  | badExpression expression error => error.message expression

end RuleFault

/-- Why rule files cannot be read. -/
inductive ReadFault where
  | file (error : FileError)
  | notDirectory
  | directoryNotSet
  /-- The root below which to look is not a path of the corpus. -/
  | invalidRoot (root : String)

/-- A fault of reading in words. -/
def ReadFault.message : ReadFault → String
  | file error => error.message
  | notDirectory => "not a directory"
  | directoryNotSet => "rule directory is not set"
  | invalidRoot root => "sub " ++ root ++ ": invalid argument"

/-- An error of loading rules, with its place. -/
inductive LoadError where
  /-- A source or one of its records. -/
  | parse (source ruleId : String) (fault : RuleFault)
  /-- A pattern of a rule. -/
  | compile (source ruleId pattern : String) (fault : RuleFault)
  /-- A file or directory of rules. -/
  | unreadable (path : String) (fault : ReadFault)

namespace LoadError

/-- An error in words. -/
def message : LoadError → String
  | parse source ruleId fault =>
    let rule := if ruleId = "" then "" else "rule " ++ Text.quote ruleId ++ ": "
    "parse " ++ Text.quote source ++ ": " ++ rule ++ fault.message
  | compile source ruleId pattern fault =>
    "compile " ++ Text.quote source ++ ": rule " ++ Text.quote ruleId ++ ": pattern " ++
      Text.quote pattern ++ ": " ++ fault.message
  | unreadable path fault => "read " ++ Text.quote path ++ ": " ++ fault.message

end LoadError

/-- A load that did not go through. -/
inductive LoadFailure where
  /-- Nothing was loaded. -/
  | rejected (error : LoadError)
  /-- What these errors do not concern was loaded. -/
  | several (errors : List LoadError)

namespace LoadFailure

/-- The errors of a failure. -/
def errors : LoadFailure → List LoadError
  | rejected error => [error]
  | several errors => errors

/-- A failure in words. -/
def message : LoadFailure → String
  | rejected error => error.message
  | several errors =>
    toString errors.length ++ " rule load error(s): " ++
      "; ".intercalate (errors.map LoadError.message)

/-- The failure that collected errors make, if there are any. -/
def ofErrors? : List LoadError → Option LoadFailure
  | [] => none
  | errors => some (several errors)

/-- The errors of what may be a failure. -/
def errorsOf : Option LoadFailure → List LoadError
  | none => []
  | some failure => failure.errors

end LoadFailure

/-- What a load that did not go through gives back: an error, or an aggregate of what its parts gave
back. An aggregate may hold others. -/
inductive LoadReport where
  | single (error : LoadError)
  | aggregate (members : List LoadReport)

namespace LoadReport

mutual

/-- The errors of a report, however deep they lie. -/
def errors : LoadReport → List LoadError
  | single error => [error]
  | aggregate members => errorsOfAll members

/-- The errors of reports, one report after the other. -/
def errorsOfAll : List LoadReport → List LoadError
  | [] => []
  | report :: rest => report.errors ++ errorsOfAll rest

end

/-- Adds a report to those that were collected; of an aggregate it adds the members. -/
def collect (collected : List LoadReport) : Option LoadReport → List LoadReport
  | none => collected
  | some (single error) => collected ++ [single error]
  | some (aggregate members) => collected ++ members

/-- The aggregate of what was collected, if anything was. -/
def ofCollected? : List LoadReport → Option LoadReport
  | [] => none
  | members => some (aggregate members)

/-- The failure that a report tells of. -/
def failure : LoadReport → LoadFailure
  | single error => .rejected error
  | aggregate members => .several (errorsOfAll members)

end LoadReport

/-- A failure as it is reported. -/
def LoadFailure.report : LoadFailure → LoadReport
  | rejected error => .single error
  | several errors => .aggregate (errors.map .single)

end Sift
