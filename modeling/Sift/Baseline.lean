import Sift.Baseline.Correlation

/-!
# Baselines

A baseline is the report of an earlier run. Issues that it knows are taken out of a result.
-/

namespace Sift.Baseline

/-- Why a baseline cannot be used. -/
inductive Fault where
  | unreadable (path : String) (error : FileError)
  | malformed (path : String)
  | noIssues (path : String)
  deriving DecidableEq, Repr

/-- A fault in words. -/
def Fault.message : Fault → String
  | unreadable path error => "failed to read baseline " ++ Text.quote path ++ ": " ++ error.message
  | malformed path => "baseline must be a JSON report: " ++ Text.quote path ++ ": <json>"
  | noIssues path => "baseline must be a JSON report: " ++ Text.quote path ++ " has no issues list"

/-- An issue as a report holds it. -/
structure Entry where
  path : String := ""
  line : Int := 0
  lastLine : Int := 0
  rule : String := ""
  text : String := ""
  deriving DecidableEq, Repr

namespace Entry

open Json (Reading names)

/-- The fingerprint of an issue of a report. -/
def fingerprint (entry : Entry) : Fingerprint :=
  { rule := entry.rule, path := entry.path, first := entry.line, last := entry.lastLine
    digest := matchDigest (Utf8.ofString entry.text) }

/-- Reads a field over what is there. -/
def readField (old : Entry) (key : String) (value : Json) : Reading Entry :=
  if names key "path" then (Reading.string old.path value).map fun path => { old with path }
  else if names key "line" then (Reading.int old.line value).map fun line => { old with line }
  else if names key "end_line" then
    (Reading.int old.lastLine value).map fun lastLine => { old with lastLine }
  else if names key "rule_id" then (Reading.string old.rule value).map fun rule => { old with rule }
  else if names key "match" then (Reading.string old.text value).map fun text => { old with text }
  else ⟨old, true⟩

/-- Reads fields over what is there. -/
def readFields (old : Entry) : List (String × Json) → Reading Entry
  | [] => ⟨old, true⟩
  | (key, value) :: rest =>
    let first := old.readField key value
    (first.value.readFields rest).after first.sound

/-- Reads an issue over what is there. -/
def read (old : Entry) : Json → Reading Entry
  | .null => ⟨old, true⟩
  | .object fields => old.readFields fields
  | _ => ⟨old, false⟩

end Entry

open Json (Reading Slots) in
/-- Reads the issues among the fields of a report. -/
def readIssues (old : Option (Slots Entry)) : List (String × Json) → Reading (Option (Slots Entry))
  | [] => ⟨old, true⟩
  | (key, value) :: rest =>
    if Json.names key "issues" then
      let first := Reading.list {} Entry.read old value
      (readIssues first.value rest).after first.sound
    else readIssues old rest

/-- Reads a report. -/
def ofReport (path : String) (content : Bytes) : Except Fault (List Fingerprint) :=
  match Json.parse content with
  | some .null => .error (.noIssues path)
  | some (.object fields) =>
    match readIssues none fields with
    | ⟨_, false⟩ => .error (.malformed path)
    | ⟨none, true⟩ => .error (.noIssues path)
    | ⟨some entries, true⟩ => .ok (entries.items.map Entry.fingerprint)
  | _ => .error (.malformed path)

/-- Reads the report in a file. -/
def load (fs : FileSystem) (path : String) : Except Fault (List Fingerprint) :=
  match fs.readFile path with
  | .error error => .error (.unreadable path error)
  | .ok content => ofReport path content

/-- The fingerprints of a result, in order. -/
def fingerprints (reportPath : String → String) (analysis : Analysis) : List Fingerprint :=
  analysis.files.flatMap fun file => file.issues.map (Fingerprint.ofIssue (reportPath file.path))

/-- Keeps the issues whose positions, counted from `position`, have no link. -/
def keepUnknown (correlator : Correlator) (position : Nat) (issues : List Issue) : List Issue :=
  ((issues.zipIdx position).filter fun (_, i) => !isKnown correlator i).map (·.1)

/-- How many issues, their positions counted from `position`, have a link. -/
def countKnown (correlator : Correlator) (position : Nat) (issues : List Issue) : Nat :=
  (issues.zipIdx position).countP fun (_, i) => isKnown correlator i

/-- Takes the known issues out of files, and counts them; `position` is that of the first issue. -/
def filterFiles (correlator : Correlator) (position : Nat) : List FileResult → List FileResult × Nat
  | [] => ([], 0)
  | file :: rest =>
    let (others, suppressed) := filterFiles correlator (position + file.issues.length) rest
    ({ file with issues := keepUnknown correlator position file.issues } :: others,
      countKnown correlator position file.issues + suppressed)

/-- Takes the known issues out of a result, and counts them. -/
def filter (analysis : Analysis) (known : List Fingerprint) (reportPath : String → String) :
    Analysis × Nat :=
  if known.isEmpty then (analysis, 0)
  else
    let correlator := correlate (fingerprints reportPath analysis) known
    let (files, suppressed) := filterFiles correlator 0 analysis.files
    (⟨files⟩, suppressed)

end Sift.Baseline
