import Sift.Proofs.Isolation

/-!
# The order of issues

The spans that a rule finds are all different and ascend, and a stable sort keeps them so among issues
that it cannot tell apart. Hence the issues of rules with different identifiers ascend strictly by line,
offset, identifier and length (`Query.pairwise_issuesOfAll`), which holds for the rules of every set
(`Query.issues_ascend`), and they do not depend on the order of the
rules (`Query.issuesOfAll_eq_of_perm`). What is found after any operations is thus decided by the rules
alone, wherever they were loaded from, unless a set answers for other languages than those of the analysis
(`Query.issues_eq_of_perm`).
-/

namespace Sift

namespace Document

/-- Adding stretches that are not there yet keeps all of them different. -/
lemma nodup_addSpans {seen} (nodup : seen.Nodup) (stretches : List Stretch) :
    (addSpans seen stretches).Nodup := by
  induction stretches generalizing seen with
  | nil => exact nodup
  | cons stretch rest ih =>
    refine ih ?_
    dsimp only
    split
    case isTrue => exact nodup
    case isFalse new =>
      rw [List.contains_iff_mem] at new
      exact List.nodup_append.mpr ⟨nodup, List.nodup_singleton stretch, by
        rintro a mem b mem' rfl
        exact new (List.mem_singleton.mp mem' ▸ mem)⟩

/-- Adding several lists does so too. -/
lemma nodup_foldl_addSpans {seen} (nodup : seen.Nodup) (lists : List (List Stretch)) :
    (lists.foldl addSpans seen).Nodup := by
  induction lists generalizing seen with
  | nil => exact nodup
  | cons stretches rest ih => exact ih (nodup_addSpans nodup stretches)

end Document

/-- The span begins earlier, or in the same place and is shorter. -/
def Span.Before (a b : Span) : Prop := a.start < b.start ∨ a.start = b.start ∧ a.length < b.length

namespace Stretch

/-- The stretch begins earlier, or in the same place and is shorter. -/
def Before (a b : Stretch) : Prop := a.start < b.start ∨ a.start = b.start ∧ a.length < b.length

lemma le_iff {a b : Stretch} :
    a.le b = true ↔ a.start < b.start ∨ a.start = b.start ∧ a.length ≤ b.length := by
  simp only [le, Bool.or_eq_true, Bool.and_eq_true, decide_eq_true_eq, beq_iff_eq]

lemma le_total (a b : Stretch) : (a.le b || b.le a) = true := by
  rw [Bool.or_eq_true, le_iff, le_iff]
  omega

lemma le_trans (a b c : Stretch) (hab : a.le b = true) (hbc : b.le c = true) : a.le c = true := by
  rw [le_iff] at *
  omega

/-- Different stretches are sorted strictly. -/
lemma pairwise_mergeSort {stretches : List Stretch} (nodup : stretches.Nodup) :
    (stretches.mergeSort le).Pairwise Before := by
  have nodup' := (List.mergeSort_perm stretches le).nodup_iff.mpr nodup
  have ascending := List.pairwise_mergeSort le_trans le_total stretches
  refine (ascending.and nodup').imp ?_
  rintro ⟨start, length⟩ ⟨start', length'⟩ ⟨le, ne⟩
  rw [le_iff] at le
  rw [ne_eq, Stretch.mk.injEq] at ne
  unfold Before
  dsimp only at le ⊢
  omega

end Stretch

/-- Spans come one before the other as they do as stretches. -/
lemma Span.before_stretch {a b : Span} : a.stretch.Before b.stretch ↔ a.Before b := by
  unfold Stretch.Before Span.Before Span.stretch
  dsimp only
  omega

/-- The findings of a rule ascend. -/
lemma Document.pairwise_findings (text : Bytes) (segments : Segments) (rule : Rule) :
    ((ofBytes text).findings segments rule).Pairwise fun a b => a.span.Before b.span := by
  have ascending : ((ofBytes text).kept segments rule).Pairwise Stretch.Before :=
    (Stretch.pairwise_mergeSort (nodup_foldl_addSpans List.nodup_nil _)).filter _
  refine List.pairwise_filterMap.mpr (ascending.imp ?_)
  intro a b before finding cut finding' cut'
  obtain ⟨span, rfl, inside⟩ := exists_of_cut? cut
  obtain ⟨span', rfl, inside'⟩ := exists_of_cut? cut'
  cases (cut?_stretch inside).symm.trans cut
  cases (cut?_stretch inside').symm.trans cut'
  exact Span.before_stretch.mp before

/-- The issue comes earlier: by line, then by offset, then by the identifier of its rule, then by length. -/
def Issue.Before (a b : Issue) : Prop :=
  a.line < b.line ∨ a.line = b.line ∧
    (a.span.start < b.span.start ∨ a.span.start = b.span.start ∧
      (a.rule.id < b.rule.id ∨ a.rule.id = b.rule.id ∧ a.span.length < b.span.length))

/-- Issues come by line, start and id. -/
lemma Issue.le_iff {a b : Issue} : a.le b = true ↔ a.line < b.line ∨ a.line = b.line ∧
    (a.span.start < b.span.start ∨ a.span.start = b.span.start ∧ a.rule.id ≤ b.rule.id) := by
  simp only [Issue.le, Bool.or_eq_true, Bool.and_eq_true, decide_eq_true_eq, beq_iff_eq]

/-- What comes both before and after is the same. -/
lemma Issue.eq_of_le {a b : Issue} (le : a.le b = true) (ge : b.le a = true) :
    a.span.start = b.span.start ∧ a.rule.id = b.rule.id := by
  have ids := @String.le_antisymm a.rule.id b.rule.id
  rw [Issue.le_iff] at le ge
  grind

/-- Issues that sorting cannot tell apart come in the order of their lengths. -/
lemma Issue.before_of_le {a b : Issue} (le : a.le b = true)
    (ties : b.le a = true → a.span.length < b.span.length) : a.Before b := by
  rw [Issue.le_iff] at le ties
  have ids : a.rule.id ≤ b.rule.id → a.rule.id < b.rule.id ∨ a.rule.id = b.rule.id := by
    intro le
    by_cases lt : a.rule.id < b.rule.id
    · exact .inl lt
    · exact .inr (String.le_antisymm le (String.not_lt.mp lt))
  have same : a.rule.id = b.rule.id → b.rule.id ≤ a.rule.id := fun eq => eq ▸ String.le_refl _
  unfold Issue.Before
  grind

/-- The order has no cycles. -/
lemma Issue.Before.not_before {a b : Issue} (before : a.Before b) : ¬ b.Before a := by
  intro after
  have ids : a.rule.id < b.rule.id → ¬ b.rule.id < a.rule.id := String.lt_asymm
  have irrefl : ¬ a.rule.id < a.rule.id := String.lt_irrefl _
  unfold Issue.Before at before after
  grind

namespace Processor

/-- The issues of a rule ascend. -/
lemma pairwise_issuesOf (text : Bytes) (segments : Segments) (silencing : Silencing)
    (startLine : Int) (rule : Rule) :
    (issuesOf (.ofBytes text) segments silencing startLine rule).Pairwise fun a b =>
      a.span.Before b.span := by
  refine (Document.pairwise_findings text segments rule).filterMap _ ?_
  intro a b before issue eq issue' eq'
  dsimp only at eq eq'
  split at eq
  case isTrue => cases eq
  split at eq'
  case isTrue => cases eq'
  cases eq
  cases eq'
  exact before

lemma lineNumber_of_mem_issuesOf {doc segments silencing startLine rule issue}
    (mem : issue ∈ issuesOf doc segments silencing startLine rule) :
    issue.lineNumber = .ofInt (doc.lineOf issue.span.start + startLine) := by
  obtain ⟨finding, _, eq⟩ := List.mem_filterMap.mp mem
  dsimp only at eq
  split at eq
  case isTrue => cases eq
  case isFalse =>
    cases eq
    rfl

end Processor

/-- The rule but for the name of its source. -/
def Rule.unsourced (rule : Rule) : Rule := { rule with source := "" }

/-- The issue but for the name of the source of its rule. -/
def Issue.unsourced (issue : Issue) : Issue := { issue with rule := issue.rule.unsourced }

/-- What a rule finds does not depend on its source. -/
lemma Processor.map_unsourced_issuesOf (doc : Document) (segments : Segments)
    (silencing : Silencing) (startLine : Int) (rule : Rule) :
    (issuesOf doc segments silencing startLine rule).map Issue.unsourced =
      issuesOf doc segments silencing startLine rule.unsourced := by
  rw [issuesOf, issuesOf, List.map_filterMap]
  refine List.filterMap_congr fun finding _ => ?_
  have id : rule.unsourced.id = rule.id := rfl
  rw [id]
  dsimp only
  split
  · rfl
  · rfl

namespace Query

/-- The issues of rules with different identifiers ascend strictly. -/
lemma pairwise_issuesOfAll (query : Query) {rules} (nodup : (rules.map (·.id)).Nodup) :
    (query.issuesOfAll rules).Pairwise Issue.Before := by
  have sorted : (query.issuesOfAll rules).Pairwise fun a b =>
      a.le b = true ∧ (b.le a = true → a.span.length < b.span.length) := by
    refine pairwise_mergeSort_of_ties Issue.le_trans Issue.le_total (List.pairwise_flatMap.mpr ⟨?_, ?_⟩)
    · -- Issues of one rule that begin at one place ascend by length.
      intro rule _
      refine (Processor.pairwise_issuesOf _ _ _ _ rule).imp ?_
      intro a b before le ge
      have starts := (Issue.eq_of_le le ge).1
      unfold Span.Before at before
      omega
    · -- Issues of different rules are told apart by their identifiers.
      refine (List.pairwise_map.mp nodup).imp ?_
      intro rule rule' ne a mem b mem' le ge
      have ids := (Issue.eq_of_le le ge).2
      rw [Processor.rule_eq_of_mem_issuesOf mem, Processor.rule_eq_of_mem_issuesOf mem'] at ids
      exact absurd ids ne
  refine sorted.imp ?_
  rintro a b ⟨le, ties⟩
  exact Issue.before_of_le le ties

lemma line_eq_of_span_eq {query : Query} {rules a b} (mem : a ∈ query.issuesOfAll rules)
    (mem' : b ∈ query.issuesOfAll rules) (eq : a.span = b.span) :
    a.line = b.line := by
  rw [issuesOfAll, Processor.issuesOfAll, List.mem_mergeSort, List.mem_flatMap] at mem mem'
  obtain ⟨_, _, found⟩ := mem
  obtain ⟨_, _, found'⟩ := mem'
  rw [Issue.line, Issue.line, Processor.lineNumber_of_mem_issuesOf found,
    Processor.lineNumber_of_mem_issuesOf found', eq]

/-- A line belongs to a span, so that issues which differ in their order differ in rule or span. -/
lemma nodup_issuesOfAll (query : Query) {rules : List Rule} (nodup : (rules.map (·.id)).Nodup) :
    ((query.issuesOfAll rules).map fun issue => (issue.rule.id, issue.span)).Nodup := by
  refine List.pairwise_map.mpr ((query.pairwise_issuesOfAll nodup).imp_of_mem ?_)
  intro a b mem mem' before eq
  obtain ⟨ids, spans⟩ := Prod.mk.inj eq
  have lines := line_eq_of_span_eq mem mem' spans
  rcases before with lt | ⟨-, lt | ⟨-, lt | ⟨-, lt⟩⟩⟩
  · exact absurd lines (Int.ne_of_lt lt)
  · exact absurd (congrArg Span.start spans) (Nat.ne_of_lt lt)
  · exact absurd (ids ▸ lt) (String.lt_irrefl _)
  · exact absurd (congrArg Span.length spans) (Nat.ne_of_lt lt)

/-- Whatever was done with the rules, the issues of an analysis ascend strictly by line, offset,
identifier and length, and no rule is reported twice at one span, however many of its patterns find it. -/
theorem issues_ascend (query : Query) (recursive : Bool) (operations : List RuleSet.Operation)
    (mask : Severity) :
    (query.issues (.after recursive operations) mask).Pairwise Issue.Before ∧
      ((query.issues (.after recursive operations) mask).map fun issue =>
        (issue.rule.id, issue.span)).Nodup := by
  have nodup : ∀ p : Rule → Bool,
      (((RuleSet.after recursive operations).rules.filter p).map (·.id)).Nodup := by
    intro p
    have all := (RuleSet.wellFormed_after recursive operations).rules_ids_nodup
    exact all.sublist (List.filter_sublist.map _)
  rw [issues_after]
  exact ⟨query.pairwise_issuesOfAll (nodup _), query.nodup_issuesOfAll (nodup _)⟩

/-- Two patterns that find one span make one issue. -/
example :
    let record : RuleRecord := {
      id := "A", severity := .critical
      patterns := [some { text := "da" }, some { text := "d." }] }
    let query : Query := ⟨.builtIn, Utf8.ofString "da", ["go"], 1⟩
    (query.issues (.after false [.addRecords [record] "test"]) .critical).length = 1 := by
  decide +kernel

/-- The order of rules does not matter. -/
lemma issuesOfAll_eq_of_perm (query : Query) {rules rules'} (perm : rules.Perm rules')
    (nodup : (rules.map (·.id)).Nodup) : query.issuesOfAll rules = query.issuesOfAll rules' := by
  have nodup' : (rules'.map (·.id)).Nodup := (perm.map _).nodup_iff.mp nodup
  have same : (query.issuesOfAll rules).Perm (query.issuesOfAll rules') :=
    (List.mergeSort_perm _ _).trans ((perm.flatMap_right _).trans (List.mergeSort_perm _ _).symm)
  refine List.Perm.eq_of_pairwise ?_ (query.pairwise_issuesOfAll nodup)
    (query.pairwise_issuesOfAll nodup') same
  intro a b _ _ before after
  exact absurd after before.not_before

lemma map_unsourced_issuesOfAll (query : Query) (rules : List Rule) :
    (query.issuesOfAll rules).map Issue.unsourced = query.issuesOfAll (rules.map Rule.unsourced) := by
  rw [issuesOfAll, issuesOfAll, Processor.issuesOfAll, Processor.issuesOfAll, List.flatMap_map]
  simp only [← Processor.map_unsourced_issuesOf]
  rw [← List.map_flatMap]
  exact List.map_mergeSort fun a _ b _ => rfl

lemma occurs_unsourced {query : Query} {rule} :
    query.Occurs rule.unsourced ↔ query.Occurs rule := by
  constructor
  · rintro ⟨span, ⟨found, inside, kept⟩, unsilenced⟩
    exact ⟨span, ⟨found, inside, kept⟩, unsilenced⟩
  · rintro ⟨span, ⟨found, inside, kept⟩, unsilenced⟩
    exact ⟨span, ⟨found, inside, kept⟩, unsilenced⟩

section After

variable (query : Query) (recursive recursive' : Bool) (operations operations' : List RuleSet.Operation)
  (mask : Severity)

/-- After any operations, the issues but for sources are those of the rules but for sources. -/
lemma map_unsourced_issues_after : (query.issues (.after recursive operations) mask).map Issue.unsourced =
    query.issuesOfAll (((RuleSet.after recursive operations).rules.map Rule.unsourced).filter fun rule =>
      rule.severity.intersects (mask.union .critical) &&
        rule.concerns (query.heard recursive operations mask)) := by
  rw [issues_after, map_unsourced_issuesOfAll, List.filter_map]
  rfl

/-- Sets with the same rules but for order and sources find the same just when each rule that is in force
and occurs concerns the languages that the one hears if it concerns those that the other hears. -/
lemma map_unsourced_issues_eq_iff
    (perm : ((RuleSet.after recursive operations).rules.map Rule.unsourced).Perm
      ((RuleSet.after recursive' operations').rules.map Rule.unsourced)) :
    (query.issues (.after recursive operations) mask).map Issue.unsourced =
        (query.issues (.after recursive' operations') mask).map Issue.unsourced ↔
      ∀ rule ∈ (RuleSet.after recursive operations).rules,
        rule.severity.intersects (mask.union .critical) = true → query.Occurs rule →
        rule.concerns (query.heard recursive operations mask) =
          rule.concerns (query.heard recursive' operations' mask) := by
  have nodup : (((RuleSet.after recursive' operations').rules.map Rule.unsourced).map (·.id)).Nodup := by
    rw [List.map_map]
    exact (RuleSet.wellFormed_after recursive' operations').rules_ids_nodup
  have nodup' : ∀ p : Rule → Bool,
      ((((RuleSet.after recursive' operations').rules.map Rule.unsourced).filter p).map (·.id)).Nodup :=
    fun p => nodup.sublist (List.filter_sublist.map _)
  -- Both sides are choices from the rules of the first set.
  rw [map_unsourced_issues_after, map_unsourced_issues_after,
    query.issuesOfAll_eq_of_perm (perm.symm.filter _) (nodup' _), issuesOfAll_filter_eq_iff,
    List.forall_mem_map]
  refine forall₂_congr fun rule _ => ?_
  rw [occurs_unsourced]
  change (query.Occurs rule → (rule.severity.intersects _ && rule.concerns _) =
    (rule.severity.intersects _ && rule.concerns _)) ↔ _
  cases rule.severity.intersects (mask.union .critical) <;> simp

/-- The set answers for the languages of the analysis: it holds no answers, or no language that was asked
for has a comma. -/
def Clear : Prop :=
  (RuleSet.after recursive operations).answers = [] ∨
    ∀ question ∈ (query.languages, mask) :: (RuleSet.Trace.after recursive operations).asked,
      ∀ name ∈ Language.normalize question.1, ',' ∉ name.toList

end After

/-- The issues do not depend on the order of the rules and on their sources where sets answer for the
languages of the analysis. Two sets whose rules are the same but for order and sources find the same
issues, in the same order, just when each rule that is in force and occurs concerns both the languages that
the one set hears and those that the other hears, or neither. This is so if each set holds no answers, or
if no language that it was asked for has a comma. -/
theorem issues_eq_of_perm (query : Query) (recursive recursive' : Bool)
    (operations operations' : List RuleSet.Operation) (mask : Severity)
    (perm : ((RuleSet.after recursive operations).rules.map Rule.unsourced).Perm
      ((RuleSet.after recursive' operations').rules.map Rule.unsourced)) :
    ((query.issues (.after recursive operations) mask).map Issue.unsourced =
        (query.issues (.after recursive' operations') mask).map Issue.unsourced ↔
      ∀ rule ∈ (RuleSet.after recursive operations).rules,
        rule.severity.intersects (mask.union .critical) = true → query.Occurs rule →
        rule.concerns (query.heard recursive operations mask) =
          rule.concerns (query.heard recursive' operations' mask)) ∧
    (query.Clear recursive operations mask → query.Clear recursive' operations' mask →
      (query.issues (.after recursive operations) mask).map Issue.unsourced =
        (query.issues (.after recursive' operations') mask).map Issue.unsourced) := by
  have iff := query.map_unsourced_issues_eq_iff recursive recursive' operations operations' mask perm
  refine ⟨iff, fun clear clear' => iff.mpr fun rule _ _ _ => ?_⟩
  rw [query.concerns_heard recursive operations mask clear,
    query.concerns_heard recursive' operations' mask clear']

/-- Two rules that find the same span, from one source and from two in the other order. -/
theorem issues_of_two_rules :
    let a : RuleRecord := { id := "A", severity := .critical, patterns := [some { text := "da" }] }
    let b : RuleRecord := { id := "B", severity := .critical, patterns := [some { text := "da" }] }
    let operations : List RuleSet.Operation := [.addRecords [a, b] "one"]
    let operations' : List RuleSet.Operation := [.addRecords [b] "two", .addRecords [a] "three"]
    let query : Query := ⟨.builtIn, Utf8.ofString "da", ["go"], 1⟩
    ((RuleSet.after false operations).rules.map Rule.unsourced).Perm
        ((RuleSet.after false operations').rules.map Rule.unsourced) ∧
      (query.issues (.after false operations) .critical).length = 2 ∧
      (query.issues (.after false operations) .critical).map Issue.unsourced =
        (query.issues (.after false operations') .critical).map Issue.unsourced := by
  intro a b operations operations' query
  have perm : ((RuleSet.after false operations).rules.map Rule.unsourced).Perm
      ((RuleSet.after false operations').rules.map Rule.unsourced) := by
    decide +kernel
  have none : (RuleSet.after false operations).answers = [] ∧
      (RuleSet.after false operations').answers = [] := ⟨rfl, rfl⟩
  have length : (query.issues (.after false operations) .critical).length = 2 := by
    rw [issues, Processor.analyze_fst, Processor.issuesOfAll, List.length_mergeSort]
    decide +kernel
  refine ⟨perm, length, ?_⟩
  exact (issues_eq_of_perm query false false operations operations' .critical perm).2
    (.inl none.1) (.inl none.2)

/-- Of two sets with one and the same rule, the one that was asked for the language "go,java" hears it again
when the two languages are asked for, and does not find the rule, which the other finds. -/
theorem issues_depend_on_answers :
    let operations : List RuleSet.Operation :=
      [.addRecords [{
        id := "A", severity := .critical, appliesTo := ["go"]
        patterns := [some { text := "danger" }] }] "test"]
    let operations' := operations ++ [.ask ["go,java"] .critical]
    let query : Query := ⟨.builtIn, Utf8.ofString "danger", ["go", "java"], 1⟩
    ((RuleSet.after false operations).rules.map Rule.unsourced).Perm
        ((RuleSet.after false operations').rules.map Rule.unsourced) ∧
      (query.issues (.after false operations) .critical).map Issue.unsourced ≠
        (query.issues (.after false operations') .critical).map Issue.unsourced := by
  intro operations operations' query
  have perm : ((RuleSet.after false operations).rules.map Rule.unsourced).Perm
      ((RuleSet.after false operations').rules.map Rule.unsourced) := by
    decide +kernel
  have names : Language.normalize ["go", "java"] = ["go", "java"] :=
    Language.normalize_eq_self (by decide +kernel) (by decide +kernel)
  have asked : (RuleSet.Trace.after false operations').asked = [(["go,java"], .critical)] := by
    decide +kernel
  have joined : RuleSet.joinedNames ["go,java"] = RuleSet.joinedNames ["go", "java"] := by
    rw [RuleSet.joinedNames, RuleSet.joinedNames, names]
    decide +kernel
  have old : query.heard false operations' .critical = ["go,java"] := by
    rw [heard, RuleSet.Trace.heard, RuleSet.Trace.first?, asked, List.find?_singleton, if_pos]
    · rfl
    · exact Bool.and_eq_true_iff.mpr ⟨rfl, decide_eq_true joined⟩
  have own : query.heard false operations .critical = ["go", "java"] := rfl
  have one : ∀ rule ∈ (RuleSet.after false operations).rules,
      rule.severity = .critical ∧ rule.concerns ["go,java"] = false ∧ rule.appliesTo = ["go"] := by
    decide +kernel
  -- The rule occurs in the text, whatever languages are asked for.
  obtain ⟨issue, found⟩ := List.exists_mem_of_length_pos
    (show 0 < (query.issuesOfAll (RuleSet.after false operations).rules).length by decide +kernel)
  obtain ⟨mem, occurs⟩ := exists_mem_issuesOfAll.mp ⟨issue, found, rfl⟩
  obtain ⟨critical, unconcerned, applies⟩ := one _ mem
  have concerned : issue.rule.concerns ["go", "java"] = true := by
    rw [Rule.concerns, names, applies]
    decide +kernel
  refine ⟨perm, ?_⟩
  rw [ne_eq, map_unsourced_issues_eq_iff query false false operations operations' .critical perm, old, own]
  intro same
  have alike := same issue.rule mem (by rw [critical]; rfl) occurs
  rw [unconcerned, concerned] at alike
  cases alike

end Query

end Sift
