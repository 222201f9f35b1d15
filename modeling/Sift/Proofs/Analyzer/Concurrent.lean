import Sift.Analyzer.Concurrent
import Sift.Proofs.RuleSet.Questions
import Sift.Proofs.Workers

/-!
# What analysing files at the same time comes to

An analysis leaves a processor with an answer more, unless it found one (`Processor.analyze_snd`). The answers
that workers leave for each other are answers to questions about files, and those that a question about a file
finds are its own (`Analyzer.candidatesFor_learn`). So a file has the same result whatever others were analysed
before, and an analysis comes to the same with every limit and in every order of the steps
(`Analyzer.reports_iff`).
-/

namespace Sift

namespace RuleSet

variable {set : RuleSet} {languages : List String} {mask : Severity}

lemma news_of_known {known} (hit : set.answers.lookup (answerKey languages mask) = some known) :
    set.news languages mask = [] := by
  simp only [news, hit]

lemma news_of_new (miss : set.answers.lookup (answerKey languages mask) = none) :
    set.news languages mask = [(answerKey languages mask, set.lookup languages mask)] := by
  simp only [news, miss]

variable (set) in
lemma lookup_learn (news : List (String × List Rule)) (key : String) :
    (set.learn news).answers.lookup key = (news.lookup key).or (set.answers.lookup key) := List.lookup_append

variable (set languages mask) in
/-- A question leaves its news. -/
lemma candidatesFor_snd_eq : (set.candidatesFor languages mask).2 = set.learn (set.news languages mask) := by
  cases found : set.answers.lookup (answerKey languages mask) with
  | some known =>
    rw [candidatesFor_of_known found, news_of_known found]
    rfl
  | none =>
    rw [candidatesFor_of_new found, news_of_new found]
    rfl

end RuleSet

/-- An analysis leaves the processor with what is kept of it. -/
lemma Processor.analyze_snd (processor : Processor) (text : Bytes) (languages : List String) (line : Int) :
    (processor.analyze text languages line).2 = processor.learn (processor.news text languages) := by
  obtain ⟨rules, mask, syntaxes⟩ := processor
  cases rules with
  | none => rfl
  | some set =>
    unfold analyze news
    dsimp only
    split
    · rfl
    · rw [learn, Option.map_some, ← RuleSet.candidatesFor_snd_eq]

namespace Analyzer

variable {analyzer : Analyzer} {files : FileSystem} {refuses : Refusals} {path : String}

/-- A file with content is analysed. -/
lemma candidate_of_content? {content} (eq : analyzer.content? files refuses path = some content) :
    analyzer.candidate files path refuses = {
      path, languages := analyzer.resolver.resolve "" path
      issues := analyzer.issuesIn content (analyzer.resolver.resolve "" path) 1 } := by
  unfold content? at eq
  unfold candidate
  cases stat : refuses.attempt "stat" path (files.stat path) with
  | error error =>
    rw [stat] at eq
    cases eq
  | ok entry =>
    rw [stat] at eq
    dsimp only at eq ⊢
    split at eq
    case isTrue => cases eq
    case isFalse small =>
      rw [if_neg small]
      cases read : refuses.attempt "open" path (files.readFile path) with
      | error error =>
        rw [read] at eq
        cases eq
      | ok text =>
        rw [read] at eq
        dsimp only at eq ⊢
        split at eq
        case isTrue => cases eq
        case isFalse legible =>
          obtain rfl := Option.some.inj eq
          rw [if_neg legible]

/-- Without content the processor does not matter. -/
lemma candidate_of_no_content (eq : analyzer.content? files refuses path = none) (processor : Processor) :
    { analyzer with processor }.candidate files path refuses = analyzer.candidate files path refuses := by
  unfold content? at eq
  unfold candidate
  cases stat : refuses.attempt "stat" path (files.stat path) with
  | error error => rfl
  | ok entry =>
    rw [stat] at eq
    dsimp only at eq ⊢
    split at eq
    case isTrue large => rw [if_pos large, if_pos large]
    case isFalse small =>
      rw [if_neg small, if_neg small]
      cases read : refuses.attempt "open" path (files.readFile path) with
      | error error => rfl
      | ok text =>
        rw [read] at eq
        dsimp only at eq ⊢
        split at eq
        case isTrue binary => rw [if_pos binary, if_pos binary]
        case isFalse => cases eq

/-- The key of the question for the rules that a file is analysed with. -/
def keyOf (analyzer : Analyzer) (path : String) : String :=
  RuleSet.answerKey (analyzer.resolver.resolve "" path) (analyzer.processor.mask.union .critical)

/-- An entry answers a question about a file that the set has no answer to. -/
def Fresh (analyzer : Analyzer) (set : RuleSet) (entry : String × List Rule) : Prop :=
  ∃ path, set.answers.lookup (analyzer.keyOf path) = none ∧ entry = (analyzer.keyOf path,
    set.lookup (analyzer.resolver.resolve "" path) (analyzer.processor.mask.union .critical))

/-- Answers to questions about files change no answer to such a question. -/
lemma candidatesFor_learn {set news} (fresh : ∀ entry ∈ news, analyzer.Fresh set entry) (path : String) :
    ((set.learn news).candidatesFor (analyzer.resolver.resolve "" path) (analyzer.processor.mask.union .critical)).1 =
      (set.candidatesFor (analyzer.resolver.resolve "" path) (analyzer.processor.mask.union .critical)).1 := by
  have lookup := RuleSet.lookup_learn set news (analyzer.keyOf path)
  cases found : news.lookup (analyzer.keyOf path) with
  | some known =>
    obtain ⟨other, new, eq⟩ := fresh _ (Language.mem_of_lookup found)
    obtain ⟨key, rfl⟩ := Prod.mk.inj eq
    rw [← key] at new
    rw [found, Option.some_or] at lookup
    have same := RuleSet.normalize_resolve_eq (RuleSet.answerKey_eq_iff.mp key).2
    rw [RuleSet.candidatesFor_of_known lookup, RuleSet.candidatesFor_of_new new]
    exact congrArg (set.catalogue.select · _) same.symm
  | none =>
    rw [found, Option.none_or] at lookup
    cases earlier : set.answers.lookup (analyzer.keyOf path) with
    | some known =>
      rw [RuleSet.candidatesFor_of_known (lookup.trans earlier), RuleSet.candidatesFor_of_known earlier]
    | none =>
      rw [RuleSet.candidatesFor_of_new (lookup.trans earlier), RuleSet.candidatesFor_of_new earlier]
      rfl

/-- The processor of the analyzer, with answers to questions about files that it had none to. -/
def Learnt (analyzer : Analyzer) (processor : Processor) : Prop :=
  ∃ news, processor = analyzer.processor.learn news ∧
    ∀ set ∈ analyzer.processor.rules, ∀ entry ∈ news, analyzer.Fresh set entry

variable {processor : Processor}

/-- What was learnt changes no issue. -/
lemma Learnt.issuesIn_eq (learnt : analyzer.Learnt processor) (content : Bytes) (path : String) (line : Int) :
    { analyzer with processor }.issuesIn content (analyzer.resolver.resolve "" path) line =
      analyzer.issuesIn content (analyzer.resolver.resolve "" path) line := by
  obtain ⟨news, rfl, fresh⟩ := learnt
  unfold issuesIn Processor.analyze Processor.learn
  cases rules : analyzer.processor.rules with
  | none => rfl
  | some set =>
    rw [Option.map_some]
    dsimp only
    rw [candidatesFor_learn (fresh set rules)]
    split
    · rfl
    · rfl

/-- What was learnt changes no result. -/
lemma Learnt.candidate_eq (learnt : analyzer.Learnt processor) (files : FileSystem) (refuses : Refusals)
    (path : String) :
    { analyzer with processor }.candidate files path refuses = analyzer.candidate files path refuses := by
  cases content : analyzer.content? files refuses path with
  | none => exact candidate_of_no_content content processor
  | some text =>
    have content' : { analyzer with processor }.content? files refuses path = some text := content
    rw [candidate_of_content? content, candidate_of_content? content', learnt.issuesIn_eq]

/-- What is kept of the analysis of a file is fresh. -/
lemma Learnt.fresh (learnt : analyzer.Learnt processor) (files : FileSystem) (refuses : Refusals) (path : String) :
    ∀ set ∈ analyzer.processor.rules, ∀ entry ∈ { analyzer with processor }.news files refuses path,
      analyzer.Fresh set entry := by
  obtain ⟨news, rfl, fresh⟩ := learnt
  intro set rules entry mem
  unfold Analyzer.news at mem
  split at mem
  case h_1 => cases mem
  case h_2 content _ =>
    unfold Processor.news Processor.learn at mem
    rw [Option.mem_def.mp rules, Option.map_some] at mem
    dsimp only at mem
    split at mem
    · cases mem
    · cases found : (set.learn news).answers.lookup (analyzer.keyOf path) with
      | some known =>
        rw [RuleSet.news_of_known found] at mem
        cases mem
      | none =>
        rw [RuleSet.news_of_new found, List.mem_singleton] at mem
        rw [RuleSet.lookup_learn, Option.or_eq_none_iff] at found
        exact ⟨path, found.2, mem⟩

lemma learnt_self (analyzer : Analyzer) : analyzer.Learnt analyzer.processor := by
  refine ⟨[], ?_, fun _ _ => List.forall_mem_nil _⟩
  obtain ⟨⟨rules, mask, syntaxes⟩, resolver, options, gate⟩ := analyzer
  cases rules with
  | none => rfl
  | some set => rfl

/-- More news may be learnt. -/
lemma Learnt.learn (learnt : analyzer.Learnt processor) {news}
    (fresh : ∀ set ∈ analyzer.processor.rules, ∀ entry ∈ news, analyzer.Fresh set entry) :
    analyzer.Learnt (processor.learn news) := by
  obtain ⟨earlier, rfl, known⟩ := learnt
  refine ⟨news ++ earlier, ?_, fun set rules => List.forall_mem_append.mpr ⟨fresh set rules, known set rules⟩⟩
  cases rules : analyzer.processor.rules with
  | none => simp [Processor.learn, rules]
  | some set => simp [Processor.learn, rules, RuleSet.learn]

/-- The analysis comes to the same with every limit and in every order of the steps. -/
lemma reports_iff {limit given analysis} :
    analyzer.Reports files limit given analysis refuses ↔ analysis = analyzer.paths files given refuses := by
  let fits : String → FileResult × List (String × List Rule) → Prop := fun path outcome =>
    outcome.1 = analyzer.candidate files path refuses ∧
      ∀ set ∈ analyzer.processor.rules, ∀ entry ∈ outcome.2, analyzer.Fresh set entry
  have answers : ∀ processor path, analyzer.Learnt processor →
      fits path ((analyzer.job files refuses).answer processor path) :=
    fun processor path learnt => ⟨learnt.candidate_eq files refuses path, learnt.fresh files refuses path⟩
  have keeps : ∀ processor path outcome, analyzer.Learnt processor → fits path outcome →
      analyzer.Learnt ((analyzer.job files refuses).keep processor outcome) :=
    fun _ _ _ learnt fit => learnt.learn fit.2
  have results : ∀ {paths outcomes}, List.Forall₂ fits paths outcomes →
      outcomes.map (·.1) = paths.map (analyzer.candidate files · refuses) := by
    intro paths outcomes all
    induction all with
    | nil => rfl
    | cons fit _ ih => rw [List.map_cons, List.map_cons, fit.1, ih]
  constructor
  · rintro ⟨outcomes, returns, rfl⟩
    rw [results (returns.forall₂ analyzer.learnt_self answers keeps)]
    rfl
  · rintro rfl
    obtain ⟨outcomes, returns⟩ := Workers.exists_returns analyzer.learnt_self answers keeps limit
      ((given.map (analyzer.argument files refuses)).flatMap (·.candidates))
    refine ⟨outcomes, returns, ?_⟩
    rw [results (returns.forall₂ analyzer.learnt_self answers keeps)]
    rfl

end Analyzer

end Sift
