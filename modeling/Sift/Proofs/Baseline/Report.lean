import Sift.Baseline
import Sift.Report
import Sift.Proofs.Json.RoundTrip

/-!
# Baselines from reports

A report as JSON is read back whole (`Report.whole_document`), and of each of its issues just the fields
are read that a fingerprint is made of (`Baseline.Entry.read_issueJson`). So a baseline holds the
fingerprints of the issues that the report was written from (`Baseline.load_report`).
-/

namespace Sift

namespace Baseline.Entry

open Json (Reading names)

/-- The keys that are read of an entry. -/
def readKeys : List String := ["path", "line", "end_line", "rule_id", "match"]

/-- A key that is passed over when an entry is read. -/
def Unread (key : String) : Prop := ∀ name ∈ readKeys, names key name = false

instance (key : String) : Decidable (Unread key) := List.decidableBAll _ _

lemma readFields_cons {old new : Entry} {key value} (read : old.readField key value = ⟨new, true⟩)
    (rest : List (String × Json)) :
    old.readFields ((key, value) :: rest) = new.readFields rest := by
  rw [readFields, read]
  rfl

lemma readFields_of_unread {fields} (unread : ∀ field ∈ fields, Unread field.1) (old : Entry)
    (rest : List (String × Json)) :
    old.readFields (fields ++ rest) = old.readFields rest := by
  induction fields with
  | nil => rfl
  | cons field later ih =>
    obtain ⟨key, value⟩ := field
    obtain ⟨first, others⟩ := List.forall_mem_cons.mp unread
    simp only [Unread, readKeys, List.forall_mem_cons] at first
    have pass : old.readField key value = ⟨old, true⟩ := by
      simp only [readField, first, Bool.false_eq_true, if_false]
    rw [List.cons_append, readFields_cons pass, ih others]

lemma reading_int (previous : Int) (n : Int64) :
    Reading.int previous (.int n.toInt) = ⟨n.toInt, true⟩ := by
  rw [Json.int, Reading.int, Json.integer?_toString]

section Read

variable (old : Entry) (rest : List (String × Json))

lemma readFields_path (s : String) :
    old.readFields (("path", .string s) :: rest) = { old with path := s }.readFields rest := by
  have key : names "path" "path" = true := by decide +kernel
  refine readFields_cons ?_ rest
  simp only [readField, key, if_true]
  rfl

lemma readFields_line (n : Int64) :
    old.readFields (("line", .int n.toInt) :: rest) = { old with line := n.toInt }.readFields rest := by
  have keys : names "line" "path" = false ∧ names "line" "line" = true := by decide +kernel
  refine readFields_cons ?_ rest
  simp only [readField, keys, Bool.false_eq_true, if_false, if_true, reading_int]
  rfl

lemma readFields_lastLine (n : Int64) :
    old.readFields (("end_line", .int n.toInt) :: rest) =
      { old with lastLine := n.toInt }.readFields rest := by
  have keys : names "end_line" "path" = false ∧ names "end_line" "line" = false ∧
      names "end_line" "end_line" = true := by decide +kernel
  refine readFields_cons ?_ rest
  simp only [readField, keys, Bool.false_eq_true, if_false, if_true, reading_int]
  rfl

lemma readFields_rule (s : String) :
    old.readFields (("rule_id", .string s) :: rest) = { old with rule := s }.readFields rest := by
  have keys : names "rule_id" "path" = false ∧ names "rule_id" "line" = false ∧
      names "rule_id" "end_line" = false ∧ names "rule_id" "rule_id" = true := by decide +kernel
  refine readFields_cons ?_ rest
  simp only [readField, keys, Bool.false_eq_true, if_false, if_true]
  rfl

lemma readFields_text (s : String) :
    old.readFields (("match", .string s) :: rest) = { old with text := s }.readFields rest := by
  have keys : names "match" "path" = false ∧ names "match" "line" = false ∧
      names "match" "end_line" = false ∧ names "match" "rule_id" = false ∧
      names "match" "match" = true := by decide +kernel
  refine readFields_cons ?_ rest
  simp only [readField, keys, Bool.false_eq_true, if_false, if_true]
  rfl

end Read

end Baseline.Entry

namespace Report

open Json (Whole)
open Baseline (Entry)

lemma whole_nat {depth} (n : Nat) : Whole depth (.nat n) := Whole.int (Int.ofNat n)

lemma whole_strings {depth} (items : List String) : Whole (depth + 1) (.strings items) := by
  refine .array fun item mem => ?_
  obtain ⟨s, _, rfl⟩ := List.mem_map.mp mem
  exact .string s

lemma whole_severity {depth} (severity : Severity) : Whole (depth + 1) severity.toJson := by
  unfold Severity.toJson
  split
  · exact .null
  · exact .string _
  · exact whole_strings _

/-- A field that no baseline reads. -/
structure Extra (field : String × Json) : Prop where
  unread : Entry.Unread field.1
  whole : Whole 1 field.2

lemma extra_of_mem_unlessEmpty {key value} (unread : Entry.Unread key) :
    ∀ field ∈ unlessEmpty key value, Extra field := by
  intro field mem
  unfold unlessEmpty at mem
  split at mem
  · cases mem
  · rw [List.mem_singleton.mp mem]
    exact ⟨unread, .string value⟩

/-- An entry holds the place of an issue and its text, and beside them only what no baseline reads. -/
lemma issueJson_eq (locator : Locator) (record : Record) :
    ∃ front back, issueJson locator record =
        .object (placeFields locator record ++ (front ++ ("match", .string record.issue.text) :: back)) ∧
      (∀ field ∈ front, Extra field) ∧ ∀ field ∈ back, Extra field := by
  have tags : ∀ field ∈ tagFields record.issue.rule, Extra field := by
    intro field mem
    unfold tagFields at mem
    split at mem
    · rw [List.mem_singleton.mp mem]
      exact ⟨(by decide +kernel : Entry.Unread "tags"), whole_strings _⟩
    · cases mem
  refine ⟨tagFields record.issue.rule ++ unlessEmpty "description" record.issue.rule.description ++
    unlessEmpty "recommendation" record.issue.rule.recommendation,
    unlessEmpty "url" (locator.link (locator.uri record.path) record.issue.line
      (endLine record.issue)), ?_, ?_, extra_of_mem_unlessEmpty (by decide +kernel)⟩
  · rw [issueJson]
    simp only [List.append_assoc, List.singleton_append]
  · simp only [List.forall_mem_append]
    exact ⟨⟨tags, extra_of_mem_unlessEmpty (by decide +kernel)⟩,
      extra_of_mem_unlessEmpty (by decide +kernel)⟩

/-- An issue is shown with whole numbers only. -/
lemma whole_issueJson (locator : Locator) (record : Record) : Whole 2 (issueJson locator record) := by
  obtain ⟨front, back, eq, extra, extra'⟩ := issueJson_eq locator record
  have boundary : Whole 1 (.object [("index", .nat record.issue.span.start),
      ("length", .nat record.issue.span.length)]) := by
    refine .object ?_
    simp only [List.forall_mem_cons, List.not_mem_nil, false_implies, implies_true, and_true]
    exact ⟨whole_nat _, whole_nat _⟩
  have place : ∀ field ∈ placeFields locator record, Whole 1 field.2 := by
    simp only [placeFields, List.forall_mem_cons, List.not_mem_nil, false_implies, implies_true,
      and_true]
    exact ⟨.string _, .int _, whole_nat _, .int _, whole_nat _, boundary, .string _, .string _,
      whole_severity _⟩
  rw [eq]
  refine .object (List.forall_mem_append.mpr ⟨place, List.forall_mem_append.mpr ⟨?_, ?_⟩⟩)
  · exact fun field mem => (extra field mem).whole
  · exact List.forall_mem_cons.mpr ⟨.string _, fun field mem => (extra' field mem).whole⟩

/-- So is a report. -/
lemma whole_document (runId : String) (tool : Tool) (locator : Locator) (records : List Record) :
    Whole 4 (document runId tool locator records) := by
  have issues : Whole 3 (.array (records.map (issueJson locator))) := by
    refine .array fun item mem => ?_
    obtain ⟨record, _, rfl⟩ := List.mem_map.mp mem
    exact whole_issueJson locator record
  have counts : ∀ names : List String, Whole 2 (.object (countByName names)) := by
    intro names
    refine .object fun field mem => ?_
    obtain ⟨name, _, rfl⟩ := List.mem_map.mp mem
    exact whole_nat _
  refine .object ?_
  simp only [List.forall_mem_cons, List.not_mem_nil, false_implies, implies_true, and_true]
  refine ⟨.string _, .object ?_, issues, .object ?_⟩
  · simp only [List.forall_mem_cons, List.not_mem_nil, false_implies, implies_true, and_true]
    exact ⟨.string _, .string _⟩
  · simp only [List.forall_mem_cons, List.not_mem_nil, false_implies, implies_true, and_true]
    exact ⟨whole_nat _, whole_nat _, whole_nat _, counts _⟩

end Report

namespace Baseline

open Json (Reading)
open Report (Record issueJson placeFields)

/-- What is read of a record. -/
def Entry.ofRecord (locator : Locator) (record : Record) : Entry :=
  { path := locator.uri record.path, line := record.issue.line
    lastLine := Report.endLine record.issue, rule := record.issue.rule.id, text := record.issue.text }

/-- Of an entry its place, its rule and its text are read. -/
lemma Entry.read_issueJson (locator : Locator) (record : Record) :
    Entry.read {} (issueJson locator record) = ⟨.ofRecord locator record, true⟩ := by
  obtain ⟨front, back, eq, extra, extra'⟩ := Report.issueJson_eq locator record
  have pass : ∀ {key : String}, Unread key → ∀ (old : Entry) (value : Json)
      (rest : List (String × Json)), old.readFields ((key, value) :: rest) = old.readFields rest :=
    fun unread old value rest =>
      readFields_of_unread (List.forall_mem_singleton.mpr unread : ∀ field ∈ [(_, value)], _) old rest
  have none := readFields_of_unread (fun field mem => (extra' field mem).unread)
    (.ofRecord locator record) []
  rw [List.append_nil] at none
  rw [eq, read, placeFields]
  simp only [List.cons_append, List.nil_append, Issue.line, Report.endLine]
  rw [readFields_path, readFields_line, pass (by decide +kernel), readFields_lastLine,
    pass (by decide +kernel), pass (by decide +kernel), readFields_rule, pass (by decide +kernel),
    pass (by decide +kernel), readFields_of_unread fun field mem => (extra field mem).unread,
    readFields_text]
  exact none

/-- The entries of a list are read one by one. -/
lemma items_map_issueJson (locator : Locator) (records : List Record) :
    Reading.items {} Entry.read [] (records.map (issueJson locator)) =
      ⟨records.map (.ofRecord locator), true⟩ := by
  induction records with
  | nil => rfl
  | cons record rest ih =>
    rw [List.map_cons, Reading.items]
    simp only [List.headD_nil, List.tail_nil, ih, Entry.read_issueJson]
    rfl

/-- A list that is read over nothing hides nothing. -/
lemma list_none {α : Type} (blank : α) (item : α → Json → Reading α) (values : List Json) :
    Reading.list blank item none (.array values) =
      (Reading.items blank item [] values).map fun items => some ⟨items, []⟩ := by
  simp only [Reading.list, Option.getD_none, Json.Slots.all, List.append_nil, List.drop_nil, ite_self]
  rfl

/-- The issues of a report are read, and nothing else of it. -/
lemma ofReport_document (path runId : String) (tool : Report.Tool) (locator : Locator)
    (records : List Record) :
    ofReport path (Utf8.ofString ((Report.document runId tool locator records).indented ++ "\n")) =
      .ok (records.map fun record =>
        Fingerprint.ofIssue (locator.uri record.path) record.issue) := by
  have others : Json.names "run_id" "issues" = false ∧ Json.names "tool" "issues" = false ∧
      Json.names "summary" "issues" = false := by decide +kernel
  have name : Json.names "issues" "issues" = true := by decide +kernel
  rw [ofReport, Json.parse_indented (Report.whole_document runId tool locator records) (by decide)]
  simp only [Report.document, readIssues, others, name, Bool.false_eq_true, if_false, if_true,
    list_none, items_map_issueJson, Reading.after, Bool.and_true, Reading.map]
  rw [List.map_map]
  rfl

/-- A baseline that is loaded from a report holds, in order, the fingerprints of the issues that the
report was written from, with their paths as the report gives them. -/
theorem load_report (fs : FileSystem) (file workingDir : String) (info : Option RepositoryInfo)
    (tool : Report.Tool) (runId : String) (records : List Record) (sink : Report.Sink)
    (takes : sink ≠ .failingToWrite)
    (held : fs.readFile file = .ok (Utf8.ofString (Report.deliver
      { format := .json, tool, locator := .ofRepository workingDir info, runId } records sink).output)) :
    load fs file = .ok (records.map fun record =>
      Fingerprint.ofIssue ((Locator.ofRepository workingDir info).uri record.path) record.issue) := by
  have output : (Report.deliver
      { format := .json, tool, locator := .ofRepository workingDir info, runId } records sink).output =
      (Report.document runId tool (.ofRepository workingDir info) records).indented ++ "\n" := by
    cases sink with
    | failingToWrite => exact absurd rfl takes
    | plain => rfl
    | closing => rfl
    | failingToClose => rfl
  rw [load, held, output]
  exact ofReport_document file runId tool _ records

/-- Two issues of a file in a repository, one with characters that are escaped and one at the last line
that can be counted, from a file in the working directory. -/
theorem load_escaped_report :
    let rule : Rule := {
      id := "R<1>", name := "\"", description := "&", recommendation := "", tags := some ["a", "b"]
      severity := .critical, appliesTo := [], patterns := [], exclusions := [], disabled := false
      source := "test" }
    let records : List Record := [
      ⟨"src/a.js", ⟨rule, 4, 1, ⟨10, 6⟩, "<\"\\\n\u2028\x01"⟩⟩,
      ⟨"src/é.js", ⟨rule, 9223372036854775807, 1, ⟨20, 1⟩, "\n"⟩⟩]
    let info : RepositoryInfo := { root := "/repo", url := some "https://gitlab.com/group/app" }
    let output := (Report.deliver { format := .json, locator := .ofRepository "/repo" (some info) }
      records .closing).output
    let fs : FileSystem := ⟨.dir [("repo", .dir [("old.json", .file (Utf8.ofString output))])], "/repo"⟩
    fs.readFile "old.json" = .ok (Utf8.ofString output) ∧
      load fs "old.json" = .ok (records.map fun record =>
        Fingerprint.ofIssue ((Locator.ofRepository "/repo" (some info)).uri record.path)
          record.issue) := by
  intro rule records info output fs
  have found : fs.locate true "old.json" =
      .ok ⟨["old.json", "repo"], some (.file (Utf8.ofString output))⟩ := by
    have relative : Path.isAbsolute "old.json" = false := by decide +kernel
    have names : FileSystem.names "/repo" ++ FileSystem.names "old.json" = ["repo", "old.json"] := by
      decide +kernel
    have sizes : "repo".utf8ByteSize = 4 ∧ "old.json".utf8ByteSize = 8 := by decide +kernel
    rw [FileSystem.locate, if_neg (by decide), if_neg (by decide +kernel), relative]
    dsimp only [fs]
    rw [if_neg Bool.false_ne_true, names]
    simp [FileSystem.follow, FileSystem.nameLimit, sizes]
  have held : fs.readFile "old.json" = .ok (Utf8.ofString output) := by
    rw [FileSystem.readFile, FileSystem.entryAt, found]
  exact ⟨held, load_report fs "old.json" "/repo" (some info) {} "" records .closing (by decide) held⟩

end Baseline

end Sift
