import Mathlib.Data.String.Basic
import Mathlib.Data.List.Forall2
import Mathlib.Data.List.Nodup
import Sift.Json.Lookup
import Sift.Report.Gathering
import Sift.Proofs.Baseline.Report

/-!
# The rules and results of a run

A rule is put among others by its identifier (`mem_insertRule`), so that the rules of a run are those of
the table that is made of the records, by ascending identifier (`lists_rulesOf`). A list that ascends
strictly is told by its members, so gathering them gives this list in whatever order the table is read and
however it is sorted (`gathers_iff`). Where rules with one identifier are the same, these are the rules of
the records, and a log is read back with a result for each record that points to the description of its
rule (`log_complete`).
-/

namespace Sift.Report.Sarif

variable {rule other : Rule} {rules rules' : List Rule} {table : Table} {records : List Record}

/-- Rules by strictly ascending identifier. -/
def Ascends (rules : List Rule) : Prop := rules.Pairwise fun first second => first.id < second.id

/-- A rule replaces the one with its id. -/
lemma mem_insertRule (asc : Ascends rules) :
    other ∈ insertRule rule rules ↔ other = rule ∨ other ∈ rules ∧ other.id ≠ rule.id := by
  induction rules with
  | nil => simp [insertRule]
  | cons first rest ih =>
    obtain ⟨below, asc⟩ := List.pairwise_cons.mp asc
    rw [insertRule]
    split
    case isTrue same =>
      have later : other ∈ rest → other.id ≠ rule.id := fun mem => same ▸ (below other mem).ne'
      grind
    case isFalse ne =>
      split
      case isTrue lt =>
        have later : other ∈ rest → other.id ≠ rule.id := fun mem => (lt.trans (below other mem)).ne'
        grind
      case isFalse =>
        rw [List.mem_cons, ih asc, List.mem_cons]
        grind

lemma Ascends.insertRule (asc : Ascends rules) (rule : Rule) : Ascends (insertRule rule rules) := by
  induction rules with
  | nil => exact List.pairwise_singleton _ rule
  | cons first rest ih =>
    obtain ⟨below, asc'⟩ := List.pairwise_cons.mp asc
    rw [Sarif.insertRule]
    split
    case isTrue same => exact List.pairwise_cons.mpr ⟨fun other mem => same ▸ below other mem, asc'⟩
    case isFalse ne =>
      split
      case isTrue lt =>
        refine List.pairwise_cons.mpr ⟨fun other mem => ?_, asc⟩
        rcases List.mem_cons.mp mem with rfl | mem
        · exact lt
        · exact lt.trans (below other mem)
      case isFalse ge =>
        refine List.pairwise_cons.mpr ⟨fun other mem => ?_, ih asc'⟩
        rcases (mem_insertRule asc').mp mem with rfl | ⟨mem, _⟩
        · exact lt_of_le_of_ne (le_of_not_gt ge) (Ne.symm ne)
        · exact below other mem

lemma Ascends.nodup (asc : Ascends rules) : (rules.map (·.id)).Nodup :=
  List.pairwise_map.mpr (asc.imp fun lt => lt.ne)

/-- Rules that ascend strictly are told by their members. -/
lemma Ascends.eq_of_mem_iff (asc : Ascends rules) (asc' : Ascends rules')
    (same : ∀ rule, rule ∈ rules ↔ rule ∈ rules') : rules = rules' := by
  have nodup : rules.Nodup := List.Nodup.of_map _ asc.nodup
  have nodup' : rules'.Nodup := List.Nodup.of_map _ asc'.nodup
  have perm := (List.perm_ext_iff_of_nodup nodup nodup').mpr same
  exact perm.eq_of_pairwise (fun _ _ _ _ lt gt => absurd gt lt.asymm) asc asc'

/-- The rules of a table by ascending identifier. -/
structure Lists (table : Table) (rules : List Rule) : Prop where
  ascends : Ascends rules
  mem : ∀ rule, rule ∈ rules ↔ table rule.id = some rule

/-- A table lists the rule that was put. -/
lemma Lists.put (lists : Lists table rules) (rule : Rule) :
    Lists (table.put rule) (insertRule rule rules) := by
  refine ⟨lists.ascends.insertRule rule, fun other => ?_⟩
  rw [mem_insertRule lists.ascends, lists.mem, Table.put]
  split
  case isTrue same => grind
  case isFalse ne => grind

lemma Lists.foldl (lists : Lists table rules) (records : List Record) :
    Lists (records.foldl (fun table record => table.put record.issue.rule) table)
      (records.foldl (fun rules record => insertRule record.issue.rule rules) rules) := by
  induction records generalizing table rules with
  | nil => exact lists
  | cons record rest ih => exact ih (lists.put record.issue.rule)

/-- The rules of a run are those of the table that is made of its records. -/
lemma lists_rulesOf (records : List Record) : Lists (.ofRecords records) (rulesOf records) :=
  Lists.foldl ⟨List.Pairwise.nil, fun _ => by simp [Table.empty]⟩ records

/-- Gathering rules gives one list only, in whatever order the table is read and however it is sorted. -/
lemma gathers_iff : Gathers records rules ↔ rules = rulesOf records := by
  have lists := lists_rulesOf records
  constructor
  · rintro ⟨read, reads, sorts⟩
    have nodup := (sorts.perm.map (·.id)).nodup_iff.mpr reads.nodup
    have asc : Ascends rules := (sorts.ascends.and (List.pairwise_map.mp nodup)).imp
      fun both => lt_of_le_of_ne (le_of_not_gt both.1) both.2
    exact asc.eq_of_mem_iff lists.ascends fun rule => by rw [sorts.perm.mem_iff, reads.mem, lists.mem]
  · rintro rfl
    exact ⟨_, ⟨lists.ascends.nodup, lists.mem⟩, .refl _, lists.ascends.imp fun lt => lt.asymm⟩

/-- Rules of records with one identifier are the same. -/
def Distinct (records : List Record) : Prop :=
  ∀ first ∈ records, ∀ second ∈ records, first.issue.rule.id = second.issue.rule.id →
    first.issue.rule = second.issue.rule

/-- The table has the rules of the records. -/
lemma ofRecords_eq_some_iff (distinct : Distinct records) {id} :
    Table.ofRecords records id = some rule ↔
      rule.id = id ∧ ∃ record ∈ records, record.issue.rule = rule := by
  induction records using List.reverseRecOn with
  | nil => simp [Table.ofRecords, Table.empty]
  | append_singleton records record ih =>
    have last : Table.ofRecords (records ++ [record]) =
        (Table.ofRecords records).put record.issue.rule := by
      rw [Table.ofRecords, List.foldl_append]
      rfl
    have ih := ih fun first mem second mem' =>
      distinct first (List.mem_append_left _ mem) second (List.mem_append_left _ mem')
    rw [last, Table.put]
    split
    case isTrue same =>
      constructor
      · intro eq
        obtain rfl := Option.some.inj eq
        exact ⟨same.symm, record, List.mem_append_right _ List.mem_cons_self, rfl⟩
      · rintro ⟨name, found, mem, rfl⟩
        have mem' : record ∈ records ++ [record] := List.mem_append_right _ List.mem_cons_self
        exact congrArg some (distinct record mem' found mem (same.symm.trans name.symm))
    case isFalse ne =>
      rw [ih]
      refine and_congr_right fun name => ⟨?_, ?_⟩
      · rintro ⟨found, mem, eq⟩
        exact ⟨found, List.mem_append_left _ mem, eq⟩
      · rintro ⟨found, mem, rfl⟩
        rcases List.mem_append.mp mem with mem | mem
        · exact ⟨found, mem, rfl⟩
        · rw [List.mem_singleton.mp mem] at name
          exact absurd name.symm ne

/-- The rules of a run are those of its records. -/
lemma mem_rulesOf (distinct : Distinct records) :
    rule ∈ rulesOf records ↔ ∃ record ∈ records, record.issue.rule = rule := by
  rw [(lists_rulesOf records).mem, ofRecords_eq_some_iff distinct, and_iff_right rfl]

/-- The order of records does not matter. -/
lemma rulesOf_eq_of_perm {others} (perm : others.Perm records) (distinct : Distinct records) :
    rulesOf others = rulesOf records := by
  have distinct' : Distinct others := fun first mem second mem' =>
    distinct first (perm.mem_iff.mp mem) second (perm.mem_iff.mp mem')
  refine (lists_rulesOf others).ascends.eq_of_mem_iff (lists_rulesOf records).ascends fun rule => ?_
  rw [mem_rulesOf distinct', mem_rulesOf distinct]
  simp only [perm.mem_iff]

/-- A rule is found by its identifier among the rules of a run. -/
lemma getElem?_findIdx (mem : rule ∈ rulesOf records) :
    (rulesOf records)[(rulesOf records).findIdx (·.id == rule.id)]? = some rule := by
  have lists := lists_rulesOf records
  have lt : (rulesOf records).findIdx (·.id == rule.id) < (rulesOf records).length :=
    List.findIdx_lt_length_of_exists ⟨rule, mem, beq_self_eq_true _⟩
  have found := List.findIdx_getElem (w := lt)
  rw [List.getElem?_eq_getElem lt]
  have here := (lists.mem _).mp (List.getElem_mem lt)
  rw [eq_of_beq found] at here
  exact here.symm.trans ((lists.mem rule).mp mem)

section Whole

open Json (Whole)

variable {depth : Nat}

lemma whole_textObject (text : String) : Whole (depth + 1) (textObject text) :=
  .object (List.forall_mem_singleton.mpr (.string text))

lemma whole_ruleJson (rule : Rule) : Whole (depth + 3) (ruleJson rule) := by
  have help : ∀ field ∈
      if rule.recommendation = "" then [] else [("help", textObject rule.recommendation)],
      Whole (depth + 2) field.2 := by
    split
    · exact List.forall_mem_nil _
    · exact List.forall_mem_singleton.mpr (whole_textObject _)
  refine .object ?_
  simp only [List.forall_mem_append, List.forall_mem_cons, List.not_mem_nil, false_implies, implies_true,
    and_true]
  refine ⟨⟨⟨.string _, .string _, whole_textObject _, whole_textObject _, .object ?_⟩, help⟩, .object ?_⟩
  · exact List.forall_mem_singleton.mpr (.string _)
  · simp only [List.forall_mem_cons, List.not_mem_nil, false_implies, implies_true, and_true]
    refine ⟨whole_strings _, .string _, ?_⟩
    cases rule.tags with
    | some tags => exact whole_strings tags
    | none => exact .null

lemma whole_resultJson (locator : Locator) (rules : List Rule) (record : Record) :
    Whole (depth + 5) (resultJson locator rules record) := by
  have link : ∀ text : String,
      ∀ field ∈ if text = "" then [] else [("properties", Json.object [("WebURL", .string text)])],
        Whole (depth + 2) field.2 := by
    intro text
    split
    · exact List.forall_mem_nil _
    · exact List.forall_mem_singleton.mpr (.object (List.forall_mem_singleton.mpr (.string _)))
  refine .object ?_
  simp only [List.forall_mem_cons, List.not_mem_nil, false_implies, implies_true, and_true]
  refine ⟨.object ?_, .string _, whole_nat _, .string _, whole_textObject _, .array ?_⟩
  · simp only [List.forall_mem_cons, List.not_mem_nil, false_implies, implies_true, and_true]
    exact ⟨.string _, whole_strings _, .string _⟩
  · refine List.forall_mem_singleton.mpr (.object (List.forall_mem_append.mpr ⟨?_, link _⟩))
    refine List.forall_mem_singleton.mpr (.object ?_)
    simp only [List.forall_mem_cons, List.not_mem_nil, false_implies, implies_true, and_true]
    refine ⟨.object (List.forall_mem_singleton.mpr (.string _)), .object ?_⟩
    simp only [List.forall_mem_cons, List.not_mem_nil, false_implies, implies_true, and_true]
    exact ⟨.int _, whole_nat _, .int _, whole_nat _⟩

/-- The log has whole numbers only. -/
lemma whole_log (tool : Tool) (locator : Locator) (records : List Record) :
    Whole 9 (document tool locator records) := by
  have rules : Whole 4 (.array ((rulesOf records).map ruleJson)) :=
    .array (List.forall_mem_map.mpr fun rule _ => whole_ruleJson rule)
  have results : Whole 6 (.array (records.map (resultJson locator (rulesOf records)))) :=
    .array (List.forall_mem_map.mpr fun record _ => whole_resultJson locator _ record)
  refine .object ?_
  simp only [List.forall_mem_cons, List.not_mem_nil, false_implies, implies_true, and_true]
  refine ⟨.string _, .string _, .array (List.forall_mem_singleton.mpr (.object ?_))⟩
  simp only [List.forall_mem_cons, List.not_mem_nil, false_implies, implies_true, and_true]
  refine ⟨.object (List.forall_mem_singleton.mpr (.object ?_)), results⟩
  simp only [List.forall_mem_cons, List.not_mem_nil, false_implies, implies_true, and_true]
  exact ⟨.string _, .string _, rules, .string _⟩

end Whole

/-- The descriptions of rules in a run. -/
def descriptions (run : Json) : List Json := ((run.get "tool").get "driver").list "rules"

/-- The place of a result. -/
def placeOf (result : Json) : Json := ((result.list "locations").headD .null).get "physicalLocation"

/-- A result tells of a record: it names its rule and points to the description of that rule in the run, and
it gives the message and the place of the issue. -/
structure Tells (locator : Locator) (run : Json) (record : Record) (result : Json) : Prop where
  names : result.get "ruleId" = .string record.issue.rule.id
  points : ∃ i, result.get "ruleIndex" = .nat i ∧
    (descriptions run)[i]? = some (ruleJson record.issue.rule)
  message : (result.get "message").get "text" = .string (message record.issue.rule)
  uri : ((placeOf result).get "artifactLocation").get "uri" = .string (locator.uri record.path)
  line : ((placeOf result).get "region").get "startLine" = .int record.issue.line
  column : ((placeOf result).get "region").get "startColumn" = .nat record.issue.column

/-- A run has a result for each record, in order, and describes exactly the rules of the records, by
strictly ascending identifier. Gathering rules from the records gives no others and in no other order,
whatever the order of the records. -/
structure Complete (locator : Locator) (records : List Record) (run : Json) : Prop where
  results : List.Forall₂ (Tells locator run) records (run.list "results")
  ascends : (descriptions run).Pairwise fun first second => first.str "id" < second.str "id"
  mem : ∀ description, description ∈ descriptions run ↔
    ∃ record ∈ records, ruleJson record.issue.rule = description
  gathered : ∃ rules, descriptions run = rules.map ruleJson ∧
    ∀ others, others.Perm records → ∀ rules', Gathers others rules' ↔ rules' = rules

lemma str_ruleJson (rule : Rule) : (ruleJson rule).str "id" = rule.id := by
  unfold ruleJson
  by_cases without : rule.recommendation = ""
  · simp only [if_pos without]
    rfl
  · simp only [if_neg without]
    rfl

/-- A log has one run, with the descriptions of its rules and the results of its records. -/
lemma list_runs_document (tool : Tool) (locator : Locator) (records : List Record) :
    ∃ run, (document tool locator records).list "runs" = [run] ∧
      descriptions run = (rulesOf records).map ruleJson ∧
      run.list "results" = records.map (resultJson locator (rulesOf records)) :=
  ⟨_, rfl, rfl, rfl⟩

/-- The rendered log is read back. -/
lemma parse_render (tool : Tool) (locator : Locator) (runId : String) (records : List Record) :
    Json.parse (Utf8.ofString (render { format := .sarif, tool, locator, runId } records)) =
      some (document tool locator records) := by
  have closes : Json.Closes "".toList := by
    rw [String.toList_empty]
    rintro _ ⟨⟩
  have parsed := Json.parse_indented_append (whole_log tool locator records) (by decide) closes rfl
  rwa [String.append_empty] at parsed

lemma placeOf_resultJson (locator : Locator) (rules : List Rule) (record : Record) :
    placeOf (resultJson locator rules record) = .object [
      ("artifactLocation", .object [("uri", .string (locator.uri record.path))]),
      ("region", .object [
        ("startLine", .int record.issue.line), ("startColumn", .nat record.issue.column),
        ("endLine", .int (endLine record.issue)), ("endColumn", .nat (endColumn record.issue))])] := by
  unfold resultJson
  by_cases without : locator.link (locator.uri record.path) record.issue.line (endLine record.issue) = ""
  · simp only [if_pos without]
    rfl
  · simp only [if_neg without]
    rfl

/-- The result of a record tells of it in a run that describes the rules. -/
lemma tells_resultJson (locator : Locator) {run record}
    (described : descriptions run = (rulesOf records).map ruleJson) (mem : record.issue.rule ∈ rulesOf records) :
    Tells locator run record (resultJson locator (rulesOf records) record) := by
  refine ⟨rfl, ⟨_, rfl, ?_⟩, rfl, ?_, ?_, ?_⟩
  · rw [described, List.getElem?_map, getElem?_findIdx mem]
    rfl
  all_goals
    rw [placeOf_resultJson]
    rfl

/-- A log is read back as one run that is complete for the records it was written from. -/
theorem log_complete (tool : Tool) (locator : Locator) (runId : String) (records : List Record)
    (distinct : Distinct records) :
    ∃ log run,
      Json.parse (Utf8.ofString (render { format := .sarif, tool, locator, runId } records)) = some log ∧
      log.list "runs" = [run] ∧ Complete locator records run := by
  obtain ⟨run, one, described, told⟩ := list_runs_document tool locator records
  have read := parse_render tool locator runId records
  refine ⟨_, run, read, one, ?_, ?_, fun description => ?_, _, described, ?_⟩
  · rw [told, List.forall₂_map_right_iff, List.forall₂_same]
    exact fun record mem =>
      tells_resultJson locator described ((mem_rulesOf distinct).mpr ⟨record, mem, rfl⟩)
  · rw [described, List.pairwise_map]
    simp only [str_ruleJson]
    exact (lists_rulesOf records).ascends
  · rw [described, List.mem_map]
    simp only [mem_rulesOf distinct]
    constructor
    · rintro ⟨_, ⟨record, mem, rfl⟩, eq⟩
      exact ⟨record, mem, eq⟩
    · rintro ⟨record, mem, eq⟩
      exact ⟨_, ⟨record, mem, rfl⟩, eq⟩
  · intro others perm rules
    rw [gathers_iff, rulesOf_eq_of_perm perm distinct]

/-- Three records of two rules, of which the first to be hit comes second by identifier. -/
theorem log_complete_of_three :
    let rule (id : String) : Rule := {
      id, name := id, description := "", recommendation := "Mend it.", tags := none
      severity := .critical, appliesTo := [], patterns := [], exclusions := [], disabled := false
      source := "test" }
    let records : List Record := [
      ⟨"b.js", ⟨rule "B", 1, 1, ⟨0, 1⟩, "b"⟩⟩, ⟨"a.js", ⟨rule "A", 1, 1, ⟨0, 1⟩, "a"⟩⟩,
      ⟨"a.js", ⟨rule "B", 2, 3, ⟨4, 1⟩, "b"⟩⟩]
    Distinct records ∧
      ∃ log run, Json.parse (Utf8.ofString (render { format := .sarif } records)) = some log ∧
        log.list "runs" = [run] ∧ Complete {} records run := by
  intro rule records
  have named : ∀ record ∈ records, record.issue.rule = rule record.issue.rule.id := by
    simp only [records, List.forall_mem_cons, List.not_mem_nil, false_implies, implies_true, and_true]
    exact ⟨rfl, rfl, rfl⟩
  have distinct : Distinct records := by
    intro first mem second mem' same
    rw [named first mem, named second mem', same]
  exact ⟨distinct, log_complete {} {} "" records distinct⟩

end Sift.Report.Sarif
