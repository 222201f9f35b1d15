import Sift.Processor
import Sift.Proofs.Silencing
import Sift.Proofs.Scan
import Sift.Proofs.RuleSet.Candidates

/-!
# What an analysis reports

A rule detects a span if it spots it and no remark silences it there (`Rule.Detects`). An analysis
reports what the candidates for its languages detect (`Processor.reports_iff`), wherever the rules
come from. Together with what is known of candidates, this gives what is reported after any
operations on the rule set: every rule in force that concerns the languages, at every span that it
detects, unless the set answers for other languages that have the same joined names
(`Processor.reports_iff_expects_iff`).
-/

namespace Sift

/-- The rule spots the span, and no remark on its line silences the rule. -/
structure Rule.Detects (rule : Rule) (text : Bytes) (comments : Segments) (span : Span) : Prop where
  spots : rule.Spots text comments span
  unsilenced : ∀ suppression ∈ Suppression.inDocument (.ofBytes text),
    suppression.covers (Lines.number text span.start) rule.id = false

/-- An analysis with these rules and severities should report the rule at the span: the rule is in
the set, its severity is in force, it concerns the languages, and it detects the span. -/
structure RuleSet.Expects (set : RuleSet) (mask : Severity) (syntaxes : SyntaxRegistry) (text : Bytes)
    (languages : List String) (rule : Rule) (span : Span) : Prop where
  mem : rule ∈ set.rules
  force : rule.severity.intersects (mask.union .critical) = true
  concerns : rule.concerns languages = true
  detects : rule.Detects text (syntaxes.segment text languages) span

/-- What is expected, as a conjunction. -/
lemma RuleSet.expects_iff {set : RuleSet} {mask syntaxes text languages rule span} :
    set.Expects mask syntaxes text languages rule span ↔
      rule ∈ set.rules ∧ rule.severity.intersects (mask.union .critical) = true ∧
        rule.concerns languages = true ∧
        rule.Detects text (syntaxes.segment text languages) span := by
  constructor
  · rintro ⟨mem, force, concerns, detects⟩
    exact ⟨mem, force, concerns, detects⟩
  · rintro ⟨mem, force, concerns, detects⟩
    exact ⟨mem, force, concerns, detects⟩

namespace Processor

/-- An analysis of a text reports the rule at the span. -/
def Reports (processor : Processor) (text : Bytes) (languages : List String) (startLine : Int)
    (rule : Rule) (span : Span) : Prop :=
  ∃ issue ∈ (processor.analyze text languages startLine).1, issue.rule = rule ∧ issue.span = span

/-- The issues of a rule are at the spans that it detects. -/
lemma mem_issuesOf {text comments} (ordered : comments.Ordered) {startLine candidate rule span} :
    (∃ issue ∈ issuesOf (.ofBytes text) comments (Silencing.inDocument (.ofBytes text)) startLine
        candidate, issue.rule = rule ∧ issue.span = span) ↔
      candidate = rule ∧ rule.Detects text comments span := by
  simp only [issuesOf, List.mem_filterMap, Document.lineOf_ofBytes, Silencing.covers_inDocument]
  constructor
  · rintro ⟨issue, ⟨finding, mem, eq⟩, rfl, rfl⟩
    split at eq
    · cases eq
    · rename_i silent
      cases eq
      refine ⟨rfl, (Document.mem_findings ordered).mp ⟨finding, mem, rfl⟩, ?_⟩
      simpa using silent
  · rintro ⟨rfl, spots, unsilenced⟩
    obtain ⟨finding, mem, rfl⟩ := (Document.mem_findings ordered).mpr spots
    refine ⟨_, ⟨finding, mem, if_neg ?_⟩, rfl, rfl⟩
    simpa using unsilenced

/-- Rules report together what each of them detects. -/
lemma mem_issuesOfAll {rules syntaxes text languages startLine rule span} :
    (∃ issue ∈ issuesOfAll rules syntaxes text languages startLine,
        issue.rule = rule ∧ issue.span = span) ↔
      rule ∈ rules ∧ rule.Detects text (syntaxes.segment text languages) span := by
  have ordered := syntaxes.segment_ordered text languages
  simp only [issuesOfAll, List.mem_mergeSort, List.mem_flatMap]
  constructor
  · rintro ⟨issue, ⟨candidate, mem, mem'⟩, eqs⟩
    obtain ⟨rfl, detects⟩ := (mem_issuesOf ordered).mp ⟨issue, mem', eqs⟩
    exact ⟨mem, detects⟩
  · rintro ⟨mem, detects⟩
    obtain ⟨issue, mem', eqs⟩ := (@mem_issuesOf text _ ordered startLine _ _ _).mpr ⟨rfl, detects⟩
    exact ⟨issue, ⟨rule, mem, mem'⟩, eqs⟩

/-- An analysis finds what the candidates for its languages find. -/
lemma analyze_fst (set : RuleSet) (mask : Severity) (syntaxes : SyntaxRegistry) (text : Bytes)
    (languages : List String) (startLine : Int) :
    ((Processor.mk (some set) mask syntaxes).analyze text languages startLine).1 =
      issuesOfAll (set.candidatesFor languages (mask.union .critical)).1 syntaxes text languages
        (max startLine 1) := by
  rw [analyze]
  by_cases empty : text = []
  · -- An empty text is not looked at, and nothing could be found in it.
    subst empty
    refine (List.eq_nil_iff_forall_not_mem.mpr fun issue mem => ?_).symm
    obtain ⟨_, detects⟩ := mem_issuesOfAll.mp ⟨issue, mem, rfl, rfl⟩
    exact detects.spots.ne_nil rfl
  · simp only [List.isEmpty_iff, empty, if_false]
    split
    · rename_i none
      rw [none]
      simp [issuesOfAll]
    · rfl

/-- An analysis reports what the candidates for its languages detect. -/
lemma reports_iff {set mask syntaxes text languages startLine rule span} :
    (Processor.mk (some set) mask syntaxes).Reports text languages startLine rule span ↔
      rule ∈ (set.candidatesFor languages (mask.union .critical)).1 ∧
        rule.Detects text (syntaxes.segment text languages) span := by
  rw [Reports, analyze_fst, mem_issuesOfAll]

/-- After any operations on the set, a rule is reported at a span just when it is in the set with a
severity in force, concerns the languages that the question for candidates hears, and detects the
span. -/
lemma reports_after (recursive : Bool) (operations : List RuleSet.Operation) (mask : Severity)
    (syntaxes : SyntaxRegistry) (text : Bytes) (languages : List String) (startLine : Int)
    (rule : Rule) (span : Span) :
    (Processor.mk (some (.after recursive operations)) mask syntaxes).Reports text languages startLine
        rule span ↔
      rule ∈ (RuleSet.after recursive operations).rules ∧
        rule.severity.intersects (mask.union .critical) = true ∧
        rule.concerns ((RuleSet.Trace.after recursive operations).heard languages
          (mask.union .critical)) = true ∧
        rule.Detects text (syntaxes.segment text languages) span := by
  rw [reports_iff, RuleSet.candidatesFor_after, List.mem_filter, Bool.and_eq_true, and_assoc, and_assoc]

/-- A rule is reported as expected just when it cannot tell the languages that the question for
candidates hears from those of the analysis, where it is in force and detects the span. This is so if
the set holds no answers, and also if no language that was asked for has a comma. -/
theorem reports_iff_expects_iff (recursive : Bool) (operations : List RuleSet.Operation)
    (mask : Severity) (syntaxes : SyntaxRegistry) (text : Bytes) (languages : List String)
    (startLine : Int) (rule : Rule) (span : Span) :
    (((Processor.mk (some (.after recursive operations)) mask syntaxes).Reports text languages
          startLine rule span ↔
        (RuleSet.after recursive operations).Expects mask syntaxes text languages rule span) ↔
      (rule ∈ (RuleSet.after recursive operations).rules →
        rule.severity.intersects (mask.union .critical) = true →
        rule.Detects text (syntaxes.segment text languages) span →
        (rule.concerns ((RuleSet.Trace.after recursive operations).heard languages
            (mask.union .critical)) = true ↔ rule.concerns languages = true))) ∧
    ((RuleSet.after recursive operations).answers = [] ∨
        (∀ question ∈ (languages, mask.union .critical) ::
            (RuleSet.Trace.after recursive operations).asked,
          ∀ name ∈ Language.normalize question.1, ',' ∉ name.toList) →
      ((Processor.mk (some (.after recursive operations)) mask syntaxes).Reports text languages
          startLine rule span ↔
        (RuleSet.after recursive operations).Expects mask syntaxes text languages rule span)) := by
  -- Both sides now differ only in the languages that the rule concerns.
  rw [reports_after, RuleSet.expects_iff]
  refine ⟨⟨?_, ?_⟩, ?_⟩
  · intro iff mem force detects
    simpa only [mem, force, detects, true_and, and_true] using iff
  · intro same
    refine and_congr_right fun mem => and_congr_right fun force => and_congr_left fun detects => ?_
    exact same mem force detects
  · intro clear
    have same : rule.concerns ((RuleSet.Trace.after recursive operations).heard languages
        (mask.union .critical)) = rule.concerns languages := by
      rcases clear with none | plain
      · have sound := RuleSet.Trace.sound_after recursive operations
        rw [sound.heard_of_answers_nil (by rw [RuleSet.Trace.set_after, none])]
      · exact RuleSet.concerns_congr (RuleSet.Trace.normalize_heard plain)
    rw [same]

end Processor

end Sift
