import Mathlib.Data.List.Basic
import Sift.Proofs.Processor
import Sift.Proofs.RuleSet.Origin
import Sift.Proofs.Sorting

/-!
# Rules do not interfere

An analysis finds the issues of each candidate by itself and sorts them together. Sorting is stable, so
that the issues of some of the rules are what these rules alone find (`Query.filter_issuesOfAll`),
and two choices among rules find the same just when they differ in nothing that occurs in the text
(`Query.issuesOfAll_filter_eq_iff`).

Hence the issues of one rule are those of a set that holds this rule alone, and the issues under some
severities are those under all severities without the issues of other rules, unless the set answers for
other languages than those of the analysis (`Query.issues_isolated`).
-/

namespace Sift

lemma Issue.le_total (a b : Issue) : (a.le b || b.le a) = true := by
  simp only [Issue.le, Bool.or_eq_true, Bool.and_eq_true, decide_eq_true_eq, beq_iff_eq]
  rcases String.le_total a.rule.id b.rule.id with ids | ids <;> grind

lemma Issue.le_trans (a b c : Issue) (hab : a.le b = true) (hbc : b.le c = true) :
    a.le c = true := by
  have ids := @String.le_trans a.rule.id b.rule.id c.rule.id
  simp only [Issue.le, Bool.or_eq_true, Bool.and_eq_true, decide_eq_true_eq, beq_iff_eq] at *
  grind

/-- What chosen elements give together is what all give if the others give nothing. -/
lemma flatMap_filter {α β : Type} (p : α → Bool) (f : α → List β) (l : List α) :
    (l.filter p).flatMap f = l.flatMap fun a => if p a then f a else [] := by
  induction l with
  | nil => rfl
  | cons a rest ih => cases chosen : p a <;> simp [chosen, ih]

/-- Among rules with different identifiers, one has the identifier of a rule. -/
lemma filter_id_eq_singleton {rules : List Rule} (nodup : (rules.map (·.id)).Nodup) {rule} (mem : rule ∈ rules) :
    rules.filter (·.id == rule.id) = [rule] := by
  induction rules with
  | nil => cases mem
  | cons first rest ih =>
    obtain ⟨new, nodup'⟩ := List.nodup_cons.mp nodup
    rcases List.mem_cons.mp mem with rfl | mem'
    · have none : rest.filter (·.id == rule.id) = [] := by
        refine List.filter_eq_nil_iff.mpr fun other mem_rest eq => ?_
        exact new (List.mem_map.mpr ⟨other, mem_rest, eq_of_beq eq⟩)
      simp [none]
    · have ne : first.id ≠ rule.id := fun eq => new (List.mem_map.mpr ⟨rule, mem', eq.symm⟩)
      rw [List.filter_cons_of_neg (by simpa using ne), ih nodup' mem']

namespace Processor

lemma rule_eq_of_mem_issuesOf {doc segments silencing startLine rule issue}
    (mem : issue ∈ issuesOf doc segments silencing startLine rule) : issue.rule = rule := by
  obtain ⟨finding, _, eq⟩ := List.mem_filterMap.mp mem
  dsimp only at eq
  split at eq
  · cases eq
  · cases eq
    rfl

/-- Choosing issues by their rule is choosing their rule. -/
lemma filter_issuesOf (doc : Document) (segments : Segments) (silencing : Silencing)
    (startLine : Int) (rule : Rule) (p : Rule → Bool) :
    (issuesOf doc segments silencing startLine rule).filter (p ·.rule) =
      if p rule then issuesOf doc segments silencing startLine rule else [] := by
  split
  · rename_i chosen
    exact List.filter_eq_self.mpr fun issue mem => by rw [rule_eq_of_mem_issuesOf mem, chosen]
  · rename_i other
    exact List.filter_eq_nil_iff.mpr fun issue mem => by rwa [rule_eq_of_mem_issuesOf mem]

/-- The issues of a rule are none just when it detects nothing. -/
lemma issuesOf_eq_nil_iff {text comments} (ordered : comments.Ordered) {startLine rule} :
    issuesOf (.ofBytes text) comments (Silencing.inDocument (.ofBytes text)) startLine rule = [] ↔
      ¬ ∃ span, rule.Detects text comments span := by
  rw [List.eq_nil_iff_forall_not_mem]
  constructor
  · rintro none ⟨span, detects⟩
    obtain ⟨issue, mem, _⟩ := (@mem_issuesOf text _ ordered startLine _ _ _).mpr ⟨rfl, detects⟩
    exact none issue mem
  · intro none issue mem
    obtain ⟨rfl, detects⟩ := (mem_issuesOf ordered).mp ⟨issue, mem, rfl, rfl⟩
    exact none ⟨issue.span, detects⟩

end Processor

/-- What an analysis is given apart from rules and severities. -/
structure Query where
  syntaxes : SyntaxRegistry
  text : Bytes
  languages : List String
  startLine : Int

namespace Query

/-- The issues that an analysis by a rule set and severities reports. -/
def issues (query : Query) (set : RuleSet) (mask : Severity) : List Issue :=
  ((Processor.mk (some set) mask query.syntaxes).analyze query.text query.languages
    query.startLine).1

/-- The rule detects something in the text. -/
def Occurs (query : Query) (rule : Rule) : Prop :=
  ∃ span, rule.Detects query.text (query.syntaxes.segment query.text query.languages) span

/-- The languages that an analysis after some operations finds rules for. -/
def heard (query : Query) (recursive : Bool) (operations : List RuleSet.Operation) (mask : Severity) :
    List String :=
  (RuleSet.Trace.after recursive operations).heard query.languages (mask.union .critical)

/-- The issues that some rules find. -/
def issuesOfAll (query : Query) (rules : List Rule) : List Issue :=
  Processor.issuesOfAll rules query.syntaxes query.text query.languages (max query.startLine 1)

lemma exists_mem_issuesOfAll {query : Query} {rules rule} :
    (∃ issue ∈ query.issuesOfAll rules, issue.rule = rule) ↔ rule ∈ rules ∧ query.Occurs rule := by
  constructor
  · rintro ⟨issue, mem, rfl⟩
    obtain ⟨mem', detects⟩ := Processor.mem_issuesOfAll.mp ⟨issue, mem, rfl, rfl⟩
    exact ⟨mem', issue.span, detects⟩
  · rintro ⟨mem, span, detects⟩
    obtain ⟨issue, mem', eq, _⟩ := Processor.mem_issuesOfAll.mpr ⟨mem, detects⟩
    exact ⟨issue, mem', eq⟩

/-- Choosing issues by their rule is choosing among the rules. -/
lemma filter_issuesOfAll (query : Query) (rules : List Rule) (p : Rule → Bool) :
    (query.issuesOfAll rules).filter (p ·.rule) = query.issuesOfAll (rules.filter p) := by
  rw [issuesOfAll, issuesOfAll, Processor.issuesOfAll, Processor.issuesOfAll,
    filter_mergeSort Issue.le_trans Issue.le_total, List.filter_flatMap]
  simp only [Processor.filter_issuesOf, flatMap_filter]

/-- Two choices among rules find the same just when they agree on the rules that occur. -/
lemma issuesOfAll_filter_eq_iff (query : Query) (rules : List Rule) (p q : Rule → Bool) :
    query.issuesOfAll (rules.filter p) = query.issuesOfAll (rules.filter q) ↔
      ∀ rule ∈ rules, query.Occurs rule → p rule = q rule := by
  constructor
  · intro eq rule mem occurs
    have same : rule ∈ rules.filter p ∧ query.Occurs rule ↔ rule ∈ rules.filter q ∧ query.Occurs rule := by
      rw [← exists_mem_issuesOfAll, ← exists_mem_issuesOfAll, eq]
    rw [Bool.eq_iff_iff]
    simpa only [List.mem_filter, mem, occurs, true_and, and_true] using same
  · intro same
    have ordered := query.syntaxes.segment_ordered query.text query.languages
    rw [issuesOfAll, issuesOfAll, Processor.issuesOfAll, Processor.issuesOfAll, flatMap_filter,
      flatMap_filter]
    refine congrArg (List.mergeSort · Issue.le) (List.flatMap_congr fun rule mem => ?_)
    by_cases occurs : query.Occurs rule
    · rw [same rule mem occurs]
    · rw [(Processor.issuesOf_eq_nil_iff ordered).mpr occurs, ite_self, ite_self]

section After

variable (query : Query) (recursive : Bool) (operations : List RuleSet.Operation) (mask : Severity)

/-- After any operations, the issues are those that the rules find which have a severity in force and
concern the languages that are heard. -/
lemma issues_after : query.issues (.after recursive operations) mask =
    query.issuesOfAll ((RuleSet.after recursive operations).rules.filter fun rule =>
      rule.severity.intersects (mask.union .critical) &&
        rule.concerns (query.heard recursive operations mask)) := by
  rw [issues, Processor.analyze_fst, RuleSet.candidatesFor_after]
  rfl

/-- A set that holds one rule finds its issues if the rule has a severity in force and concerns the
languages. -/
lemma issues_only (rule : Rule) : query.issues (.only rule) mask =
    query.issuesOfAll ([rule].filter fun rule =>
      rule.severity.intersects (mask.union .critical) && rule.concerns query.languages) := by
  have wf : (RuleSet.only rule).WellFormed := {
    catalogue_eq := rfl
    names_nodup := List.nodup_singleton _
    ids_nodup := List.nodup_singleton _ }
  rw [issues, Processor.analyze_fst, RuleSet.candidatesFor_of_new rfl, wf.lookup_eq_filter,
    RuleSet.rules_only]
  rfl

/-- The issues of one rule are those of a set that holds it alone just when it cannot tell the
languages that are heard from those of the analysis, if it is in force and occurs. -/
lemma filter_issues_eq_only_iff {rule} (mem : rule ∈ (RuleSet.after recursive operations).rules) :
    (query.issues (.after recursive operations) mask).filter (·.rule.id == rule.id) =
        query.issues (.only rule) mask ↔
      (rule.severity.intersects (mask.union .critical) = true → query.Occurs rule →
        rule.concerns (query.heard recursive operations mask) = rule.concerns query.languages) := by
  have nodup := (RuleSet.wellFormed_after recursive operations).rules_ids_nodup
  have single := filter_id_eq_singleton nodup mem
  -- Both sides are what is found by a choice from the one rule.
  rw [issues_after, issues_only, query.filter_issuesOfAll _ (·.id == rule.id), List.filter_comm, single,
    issuesOfAll_filter_eq_iff, List.forall_mem_singleton]
  cases rule.severity.intersects (mask.union .critical) <;> simp

/-- The issues under some severities are those under all severities whose rule has one of them just
when the rules that are in force and occur are found under both. -/
lemma issues_eq_filter_all_iff :
    query.issues (.after recursive operations) mask =
        (query.issues (.after recursive operations) .all).filter
          (·.rule.severity.intersects (mask.union .critical)) ↔
      ∀ rule ∈ (RuleSet.after recursive operations).rules,
        rule.severity.intersects (mask.union .critical) = true → query.Occurs rule →
        rule.concerns (query.heard recursive operations mask) =
          (rule.severity.intersects .all && rule.concerns (query.heard recursive operations .all)) := by
  have all : Severity.all.union .critical = .all := rfl
  rw [issues_after, issues_after, query.filter_issuesOfAll _ (·.severity.intersects _), all,
    List.filter_filter, issuesOfAll_filter_eq_iff]
  refine forall₂_congr fun rule _ => ?_
  cases rule.severity.intersects (mask.union .critical) <;> simp

/-- A rule cannot tell the languages that are heard from those of the analysis if the set holds no
answers, and also if no language that was asked for has a comma. -/
lemma concerns_heard
    (clear : (RuleSet.after recursive operations).answers = [] ∨
      ∀ question ∈ (query.languages, mask) :: (RuleSet.Trace.after recursive operations).asked,
        ∀ name ∈ Language.normalize question.1, ',' ∉ name.toList)
    (mask' : Severity) (rule : Rule) :
    rule.concerns (query.heard recursive operations mask') = rule.concerns query.languages := by
  rcases clear with none | plain
  · have sound := RuleSet.Trace.sound_after recursive operations
    rw [heard, sound.heard_of_answers_nil (by rw [RuleSet.Trace.set_after, none])]
  · -- The severities of the question do not matter, only its languages.
    obtain ⟨own, others⟩ := List.forall_mem_cons.mp plain
    exact RuleSet.concerns_congr (RuleSet.Trace.normalize_heard (List.forall_mem_cons.mpr ⟨own, others⟩))

end After

/-- Rules do not interfere where a set answers for the languages of the analysis. Each rule of the set
can be had alone, and then it reports what it reports in the set, just when it cannot tell the
languages that are heard from those of the analysis, if it is in force and occurs. In the same way,
severities choose among the issues under all severities just when they choose among the rules. Both
are so if the set holds no answers, and also if no language that was asked for has a comma, the latter
for rules with named levels. -/
theorem issues_isolated (query : Query) (recursive : Bool) (operations : List RuleSet.Operation)
    (mask : Severity) :
    (∀ rule ∈ (RuleSet.after recursive operations).rules,
      (∃ operations', RuleSet.after false operations' = .only rule) ∧
      ((query.issues (.after recursive operations) mask).filter (·.rule.id == rule.id) =
          query.issues (.only rule) mask ↔
        (rule.severity.intersects (mask.union .critical) = true → query.Occurs rule →
          rule.concerns (query.heard recursive operations mask) = rule.concerns query.languages))) ∧
    (query.issues (.after recursive operations) mask =
        (query.issues (.after recursive operations) .all).filter
          (·.rule.severity.intersects (mask.union .critical)) ↔
      ∀ rule ∈ (RuleSet.after recursive operations).rules,
        rule.severity.intersects (mask.union .critical) = true → query.Occurs rule →
        rule.concerns (query.heard recursive operations mask) =
          (rule.severity.intersects .all && rule.concerns (query.heard recursive operations .all))) ∧
    ((RuleSet.after recursive operations).answers = [] ∨
        (∀ question ∈ (query.languages, mask) :: (RuleSet.Trace.after recursive operations).asked,
          ∀ name ∈ Language.normalize question.1, ',' ∉ name.toList) →
      (∀ rule ∈ (RuleSet.after recursive operations).rules,
        (query.issues (.after recursive operations) mask).filter (·.rule.id == rule.id) =
          query.issues (.only rule) mask) ∧
      ((∀ operation ∈ operations, operation.Gives (·.severity.IsLevels)) →
        query.issues (.after recursive operations) mask =
          (query.issues (.after recursive operations) .all).filter
            (·.rule.severity.intersects (mask.union .critical)))) := by
  refine ⟨?_, query.issues_eq_filter_all_iff recursive operations mask, ?_⟩
  · intro rule mem
    exact ⟨RuleSet.exists_after_eq_only mem,
      query.filter_issues_eq_only_iff recursive operations mask mem⟩
  · intro clear
    have same := query.concerns_heard recursive operations mask clear
    refine ⟨fun rule mem => ?_, fun levels => ?_⟩
    · rw [filter_issues_eq_only_iff query recursive operations mask mem]
      exact fun _ _ => same mask rule
    · rw [issues_eq_filter_all_iff]
      intro rule mem force _
      have leveled := RuleSet.severity_isLevels_after recursive levels rule mem
      rw [same, same, leveled.intersects_all force, Bool.true_and]

/-- Who has asked for the one language "go,java" hears it again when the two languages are asked for,
so that a rule for one of them is not found under the severities of the question. -/
theorem issues_not_isolated :
    let operations : List RuleSet.Operation :=
      [.addRecords [{
          id := "A", severity := .critical, appliesTo := ["go"]
          patterns := [some { text := "danger" }] }] "test",
        .ask ["go,java"] .critical]
    let query : Query := ⟨.builtIn, Utf8.ofString "danger", ["go", "java"], 1⟩
    (∃ rule ∈ (RuleSet.after false operations).rules,
      (query.issues (.after false operations) .critical).filter (·.rule.id == rule.id) ≠
        query.issues (.only rule) .critical) ∧
    query.issues (.after false operations) .critical ≠
      (query.issues (.after false operations) .all).filter
        (·.rule.severity.intersects (Severity.critical.union .critical)) := by
  intro operations query
  have names : Language.normalize ["go", "java"] = ["go", "java"] :=
    Language.normalize_eq_self (by decide +kernel) (by decide +kernel)
  have asked : (RuleSet.Trace.after false operations).asked = [(["go,java"], .critical)] := by
    decide +kernel
  have joined : RuleSet.joinedNames ["go,java"] = RuleSet.joinedNames ["go", "java"] := by
    rw [RuleSet.joinedNames, RuleSet.joinedNames, names]
    decide +kernel
  have old : query.heard false operations .critical = ["go,java"] := by
    rw [heard, RuleSet.Trace.heard, RuleSet.Trace.first?, asked, List.find?_singleton, if_pos]
    · rfl
    · exact Bool.and_eq_true_iff.mpr ⟨rfl, decide_eq_true joined⟩
  have own : query.heard false operations .all = ["go", "java"] := by
    rw [heard, RuleSet.Trace.heard, RuleSet.Trace.first?, asked]
    rfl
  have one : ∀ rule ∈ (RuleSet.after false operations).rules,
      rule.severity = .critical ∧ rule.concerns ["go,java"] = false ∧ rule.appliesTo = ["go"] := by
    decide +kernel
  have two : ∀ rule ∈ (RuleSet.after false operations).rules, rule.concerns ["go", "java"] = true := by
    intro rule mem
    rw [Rule.concerns, names, (one rule mem).2.2]
    decide +kernel
  -- The rule occurs in the text, whatever languages are asked for.
  obtain ⟨issue, found⟩ := List.exists_mem_of_length_pos
    (show 0 < (query.issuesOfAll (RuleSet.after false operations).rules).length by decide +kernel)
  obtain ⟨mem, occurs⟩ := exists_mem_issuesOfAll.mp ⟨issue, found, rfl⟩
  obtain ⟨critical, unconcerned, -⟩ := one _ mem
  refine ⟨⟨issue.rule, mem, ?_⟩, ?_⟩
  · rw [ne_eq, filter_issues_eq_only_iff query false operations .critical mem, old]
    intro same
    have := same (by rw [critical]; rfl) occurs
    rw [unconcerned, two _ mem] at this
    cases this
  · rw [ne_eq, issues_eq_filter_all_iff, old, own]
    intro same
    have := same _ mem (by rw [critical]; rfl) occurs
    rw [unconcerned, two _ mem, critical] at this
    cases this

end Query

end Sift
