import Mathlib.Data.List.Basic
import Sift.Proofs.RuleSet.Reachable

/-!
# Candidates for languages

A question for candidates is answered through the catalogue when its key is new, and then the answer
is the plain filter of the rules by severity and language (`candidatesFor_eq_filter`).

An answer is kept under a key that joins the normalized names by commas, so that two questions have
one key although they ask for different languages if a name contains a comma. A `Trace` follows the
operations and notes the questions whose answers the set still holds. What a question hears are the
languages of the first noted question with its key (`Trace.heard`): the set answers for these
(`candidatesFor_after`), which is right just when no rule in force tells them from the languages that
were asked for (`candidatesFor_eq_clone_iff`).
-/

namespace Sift

/-- Whether a rule is for all languages or names one of some languages. -/
def Rule.concerns (rule : Rule) (languages : List String) : Bool :=
  rule.appliesTo.isEmpty ||
    (Language.normalize rule.appliesTo).any ((Language.normalize languages).contains ·)

namespace RuleSet

/-- The catalogue of a well-formed set finds what filtering its rules finds. -/
lemma WellFormed.lookup_eq_filter {set : RuleSet} (wf : set.WellFormed) (languages : List String)
    (mask : Severity) : set.lookup languages mask = set.rules.filter fun rule =>
      rule.severity.intersects mask && rule.concerns languages := by
  rw [lookup, wf.faithful.select_eq, rules]
  refine List.filter_congr fun rule _ => ?_
  have swap : (Language.normalize languages).any ((Language.normalize rule.appliesTo).contains ·) =
      (Language.normalize rule.appliesTo).any ((Language.normalize languages).contains ·) := by
    rw [Bool.eq_iff_iff]
    simp only [List.any_eq_true, List.contains_iff_mem, and_comm]
  rw [swap, Rule.concerns]

/-- A question whose key is new is answered with the rules that have a severity in force and are for
all languages or name one of those asked for, in the order of the store and each once. -/
theorem candidatesFor_eq_filter (recursive : Bool) (operations : List Operation)
    (languages : List String) (mask : Severity)
    (miss : (after recursive operations).answers.lookup (answerKey languages mask) = none) :
    ((after recursive operations).candidatesFor languages mask).1 =
        ((after recursive operations).rules.filter fun rule =>
          rule.severity.intersects mask && rule.concerns languages) ∧
      ((after recursive operations).candidatesFor languages mask).1.Nodup := by
  have wf := wellFormed_after recursive operations
  have eq := wf.lookup_eq_filter languages mask
  rw [candidatesFor_of_new miss]
  refine ⟨eq, ?_⟩
  have nodup : (after recursive operations).rules.Nodup := wf.rules_ids_nodup.of_map
  exact eq ▸ nodup.filter _

/-- A rule of another severity is passed over, and a rule for all languages is not. -/
theorem candidatesFor_three_rules :
    let operations : List Operation := [.addRecords
      [{ id := "A", severity := .critical, appliesTo := ["go"] },
        { id := "B", severity := .moderate }, { id := "C", severity := .critical }] "test"]
    (after false operations).answers.lookup (answerKey ["go"] .critical) = none ∧
      ((after false operations).rules.filter fun rule =>
        rule.severity.intersects .critical && rule.concerns ["go"]).map (·.id) = ["A", "C"] ∧
      ((after false operations).candidatesFor ["go"] .critical).1.map (·.id) = ["A", "C"] := by
  intro operations
  have ids : ((after false operations).rules.filter fun rule =>
      rule.severity.intersects .critical && rule.concerns ["go"]).map (·.id) = ["A", "C"] := by
    decide +kernel
  have answer := (candidatesFor_eq_filter false operations ["go"] .critical rfl).1
  exact ⟨rfl, ids, answer ▸ ids⟩

/-- The names under which an answer is kept. -/
def joinedNames (languages : List String) : String := ",".intercalate (Language.normalize languages)

/-- What stands before and after the first bar of two equal texts is equal. -/
lemma eq_of_append_bar {front front' back back'} (free : '|' ∉ front) (free' : '|' ∉ front')
    (eq : front ++ '|' :: back = front' ++ '|' :: back') : front = front' ∧ back = back' := by
  have pos : ∀ {cs : List Char}, '|' ∉ cs → ∀ c ∈ cs, (c != '|') = true := by
    intro cs free c mem
    rw [bne_iff_ne]
    rintro rfl
    exact free mem
  have before := congrArg (List.takeWhile (· != '|')) eq
  have behind := congrArg (List.dropWhile (· != '|')) eq
  rw [List.takeWhile_append_of_pos (pos free), List.takeWhile_append_of_pos (pos free')] at before
  rw [List.dropWhile_append_of_pos (pos free), List.dropWhile_append_of_pos (pos free')] at behind
  exact ⟨by simpa using before, by simpa using behind⟩

/-- No number is written with a bar. -/
lemma bar_not_mem_toDigits (n : Nat) : '|' ∉ Nat.toDigits 10 n := by
  intro mem
  have digit := Nat.isDigit_of_mem_toDigits (by decide) (by decide) mem
  exact absurd digit (by decide)

/-- A key tells the severities and the joined names, and nothing else. -/
lemma answerKey_eq_iff {languages languages' mask mask'} :
    answerKey languages mask = answerKey languages' mask' ↔
      mask = mask' ∧ joinedNames languages = joinedNames languages' := by
  constructor
  · intro eq
    have chars := congrArg String.toList eq
    simp only [answerKey, String.toList_append, Nat.toString_eq_repr, Nat.toList_repr,
      List.append_assoc] at chars
    -- Digits hold no bar, so that the first bar of a key is the one behind the number.
    obtain ⟨digits, names⟩ :=
      eq_of_append_bar (bar_not_mem_toDigits _) (bar_not_mem_toDigits _) chars
    have number := congrArg (Nat.ofDigitChars 10 · 0) digits
    simp only [Nat.ofDigitChars_ten_toDigits] at number
    obtain ⟨bits⟩ := mask
    obtain ⟨bits'⟩ := mask'
    exact ⟨congrArg Severity.mk (UInt8.toNat_inj.mp number), String.toList_inj.mp names⟩
  · rintro ⟨rfl, eq⟩
    exact congrArg (toString mask.bits.toNat ++ "|" ++ ·) eq

/-- Names that are not empty and have no comma are the parts that are not empty of what joins them. -/
lemma splitOn_joined {names} (full : ∀ name ∈ names, name ≠ "") (plain : ∀ name ∈ names, ',' ∉ name.toList) :
    ((",".intercalate names).toList.splitOn ',').filter (! ·.isEmpty) = names.map String.toList := by
  by_cases none : names = []
  · subst none
    rfl
  · have plain' : ∀ cs ∈ names.map String.toList, ',' ∉ cs := by simpa using plain
    rw [String.toList_intercalate]
    refine (congrArg _ (List.splitOn_intercalate ',' plain' (by simpa using none))).trans ?_
    refine List.filter_eq_self.mpr fun cs mem => ?_
    obtain ⟨name, mem', rfl⟩ := List.mem_map.mp mem
    simpa using full name mem'

/-- Languages without commas can be told from their joined names. -/
lemma normalize_eq_of_joinedNames_eq {languages languages'}
    (plain : ∀ name ∈ Language.normalize languages, ',' ∉ name.toList)
    (plain' : ∀ name ∈ Language.normalize languages', ',' ∉ name.toList)
    (eq : joinedNames languages = joinedNames languages') :
    Language.normalize languages = Language.normalize languages' := by
  have parts := congrArg (fun s : String => (s.toList.splitOn ',').filter (! ·.isEmpty)) eq
  have full : ∀ {languages : List String}, ∀ name ∈ Language.normalize languages, name ≠ "" :=
    fun _ mem => (Language.mem_normalize.mp mem).1
  rw [joinedNames, joinedNames, splitOn_joined full plain, splitOn_joined full plain'] at parts
  exact List.map_injective_iff.mpr (fun _ _ => String.toList_inj.mp) parts

/-- A rule set with the questions whose answers it still holds, in the order they were asked. -/
structure Trace where
  set : RuleSet
  asked : List (List String × Severity) := []

namespace Trace

/-- The trace after an operation. A question is noted, and all notes go when the set remembers
nothing. -/
def apply (trace : Trace) : Operation → Trace
  | .ask languages mask =>
    ⟨trace.set.apply (.ask languages mask), trace.asked ++ [(languages, mask)]⟩
  | operation =>
    let set := trace.set.apply operation
    ⟨set, if set.answers.isEmpty then [] else trace.asked⟩

/-- The trace that operations leave, from an empty set on. -/
def after (recursive : Bool) (operations : List Operation) : Trace :=
  operations.foldl apply ⟨{ recursive }, []⟩

/-- The first noted question with the key of a question. -/
def first? (trace : Trace) (languages : List String) (mask : Severity) :
    Option (List String × Severity) :=
  trace.asked.find? fun question =>
    question.2 = mask && joinedNames question.1 = joinedNames languages

/-- The languages that a question is answered for: those of the first noted question with its key, or
else its own. -/
def heard (trace : Trace) (languages : List String) (mask : Severity) : List String :=
  ((trace.first? languages mask).map (·.1)).getD languages

/-- A trace follows its set. -/
lemma set_apply (trace : Trace) (operation : Operation) :
    (trace.apply operation).set = trace.set.apply operation := by
  cases operation <;> rfl

/-- A trace follows its set through all operations. -/
lemma set_after (recursive : Bool) (operations : List Operation) :
    (after recursive operations).set = RuleSet.after recursive operations := by
  suffices h : ∀ trace : Trace,
      (operations.foldl apply trace).set = operations.foldl RuleSet.apply trace.set from h _
  induction operations with
  | nil => exact fun _ => rfl
  | cons operation rest ih =>
    intro trace
    rw [List.foldl_cons, ih, set_apply, List.foldl_cons]

/-- The first noted question with a key has the severities and the joined names of the key. -/
lemma first?_eq_some {trace : Trace} {languages mask question} (eq : trace.first? languages mask = some question) :
    question ∈ trace.asked ∧ question.2 = mask ∧
      joinedNames question.1 = joinedNames languages := by
  have same := List.find?_some eq
  rw [Bool.and_eq_true, decide_eq_true_eq, decide_eq_true_eq] at same
  exact ⟨List.mem_of_find?_eq_some eq, same⟩

/-- The answers that a set holds are those to the questions noted of it. -/
def Sound (trace : Trace) : Prop :=
  ∀ languages mask, trace.set.answers.lookup (answerKey languages mask) =
    (trace.first? languages mask).map fun question => trace.set.lookup question.1 mask

/-- A noted question that has been asked before changes nothing, and a new one is the first with its
key. -/
lemma first?_ask (trace : Trace) (languages languages' : List String) (mask mask' : Severity) :
    (trace.apply (.ask languages mask)).first? languages' mask' =
      (trace.first? languages' mask').or
        (if answerKey languages mask = answerKey languages' mask' then some (languages, mask)
          else none) := by
  rw [first?, apply, List.find?_append]
  refine congrArg (Option.or _) ?_
  by_cases eq : answerKey languages mask = answerKey languages' mask'
  · obtain ⟨same, same'⟩ := answerKey_eq_iff.mp eq
    rw [if_pos eq, List.find?_singleton]
    simp [same, same']
  · rw [if_neg eq, List.find?_singleton]
    rw [answerKey_eq_iff] at eq
    simpa using eq

/-- Asking a question keeps the notes right. -/
lemma Sound.ask {trace : Trace} (sound : trace.Sound) (languages : List String) (mask : Severity) :
    (trace.apply (.ask languages mask)).Sound := by
  intro languages' mask'
  rw [first?_ask, set_apply, RuleSet.apply]
  cases h : trace.set.answers.lookup (answerKey languages mask) with
  | some known =>
    -- The set stays as it is, and an earlier question with the key comes first.
    rw [candidatesFor_of_known h, sound languages' mask']
    by_cases eq : answerKey languages mask = answerKey languages' mask'
    · have some := sound languages' mask'
      rw [← eq, h] at some
      obtain ⟨question, eq', _⟩ := Option.map_eq_some_iff.mp some.symm
      rw [eq', Option.some_or]
    · rw [if_neg eq, Option.or_none]
  | none =>
    -- The new answer is the first with its key, and other keys find what they found.
    rw [candidatesFor_of_new h]
    by_cases eq : answerKey languages mask = answerKey languages' mask'
    · have none := sound languages' mask'
      rw [← eq, h] at none
      rw [if_pos eq, ← eq, List.lookup_cons_self, Option.map_eq_none_iff.mp none.symm,
        Option.none_or, (answerKey_eq_iff.mp eq).1]
      rfl
    · rw [if_neg eq, Option.or_none, List.lookup_cons, beq_eq_false_iff_ne.mpr (Ne.symm eq)]
      exact sound languages' mask'

/-- Whatever is not a question leaves the set as it is or makes it forget all answers. -/
lemma apply_eq_self_or_answers_nil (set : RuleSet) {operation}
    (other : ∀ languages mask, operation ≠ .ask languages mask) :
    set.apply operation = set ∨ (set.apply operation).answers = [] := by
  have keep : ∀ {precedence : Precedence} {set' : RuleSet} (content records source),
      RuleRecord.decode precedence content source = .ok records → set' = set ∨ set'.answers = [] →
        (set'.addRecords records source).1 = set ∨ (set'.addRecords records source).1.answers = [] :=
    fun _ _ _ _ _ => .inr rfl
  have start : set = set ∨ set.answers = [] := .inl rfl
  cases operation with
  | add content source _ =>
    exact add_preserves (P := fun set' => set' = set ∨ set'.answers = []) keep start content source
  | addRecords records source => exact .inr rfl
  | addCorpus corpus root label _ =>
    exact addCorpus_preserves (P := fun set' => set' = set ∨ set'.answers = []) keep start
      corpus root label
  | addDirectory fs dir label _ =>
    exact addDirectory_preserves (P := fun set' => set' = set ∨ set'.answers = []) keep start
      fs dir label
  | removeSource name =>
    rw [RuleSet.apply, RuleSet.removeSource]
    split
    · exact .inr rfl
    · exact .inl rfl
  | clone => exact .inr rfl
  | ask languages mask => exact absurd rfl (other languages mask)

/-- A set that is left as it is keeps its notes, and one that forgets loses them. -/
lemma Sound.change {trace : Trace} (sound : trace.Sound) {set} (change : set = trace.set ∨ set.answers = []) :
    Sound ⟨set, if set.answers.isEmpty then [] else trace.asked⟩ := by
  intro languages mask
  by_cases none : set.answers = []
  · simp [first?, none]
  · obtain rfl := change.resolve_right none
    simpa [first?, none] using sound languages mask

/-- Every operation keeps the notes right. -/
lemma Sound.apply {trace : Trace} (sound : trace.Sound) (operation : Operation) :
    (trace.apply operation).Sound := by
  cases operation with
  | ask languages mask => exact sound.ask languages mask
  | add _ _ _ | addRecords _ _ | addCorpus _ _ _ _ | addDirectory _ _ _ _ | removeSource _ | clone =>
    exact sound.change (apply_eq_self_or_answers_nil trace.set nofun)

/-- The notes of every trace are right. -/
lemma sound_after (recursive : Bool) (operations : List Operation) :
    (after recursive operations).Sound := by
  suffices h : ∀ trace : Trace, trace.Sound → (operations.foldl Trace.apply trace).Sound from
    h _ fun _ _ => rfl
  induction operations with
  | nil => exact fun _ sound => sound
  | cons operation rest ih => exact fun trace sound => ih _ (sound.apply operation)

/-- A question is answered for the languages it hears. -/
lemma Sound.candidatesFor_eq_lookup {trace : Trace} (sound : trace.Sound) (languages : List String)
    (mask : Severity) :
    (trace.set.candidatesFor languages mask).1 =
      trace.set.lookup (trace.heard languages mask) mask := by
  have known := sound languages mask
  rw [heard]
  cases h : trace.first? languages mask with
  | none =>
    rw [h, Option.map_none] at known
    rw [candidatesFor_of_new known]
    rfl
  | some question =>
    rw [h, Option.map_some] at known
    rw [candidatesFor_of_known known]
    rfl

/-- A question hears its own languages if the set holds no answers. -/
lemma Sound.heard_of_answers_nil {trace : Trace} (sound : trace.Sound) (none : trace.set.answers = [])
    (languages : List String) (mask : Severity) : trace.heard languages mask = languages := by
  have unknown := sound languages mask
  rw [none, List.lookup_nil] at unknown
  rw [heard, Option.map_eq_none_iff.mp unknown.symm]
  rfl

/-- A question hears its own languages if none of the languages that were asked for has a comma. -/
lemma normalize_heard {trace : Trace} {languages mask} (plain : ∀ question ∈ (languages, mask) :: trace.asked,
      ∀ name ∈ Language.normalize question.1, ',' ∉ name.toList) :
    Language.normalize (trace.heard languages mask) = Language.normalize languages := by
  rw [heard]
  cases h : trace.first? languages mask with
  | none => rfl
  | some question =>
    obtain ⟨mem, _, eq⟩ := first?_eq_some h
    exact normalize_eq_of_joinedNames_eq (plain question (List.mem_cons_of_mem _ mem))
      (plain (languages, mask) List.mem_cons_self) eq

end Trace

/-- After any operations, a question is answered with the rules that have a severity in force and
concern the languages it hears. -/
lemma candidatesFor_after (recursive : Bool) (operations : List Operation) (languages : List String)
    (mask : Severity) :
    ((after recursive operations).candidatesFor languages mask).1 =
      (after recursive operations).rules.filter fun rule =>
        rule.severity.intersects mask &&
          rule.concerns ((Trace.after recursive operations).heard languages mask) := by
  have answer := (Trace.sound_after recursive operations).candidatesFor_eq_lookup languages mask
  rw [Trace.set_after] at answer
  rw [answer, (wellFormed_after recursive operations).lookup_eq_filter]

/-- A clone answers every question for its own languages. -/
lemma WellFormed.clone_candidatesFor {set : RuleSet} (wf : set.WellFormed) (languages : List String)
    (mask : Severity) : (set.clone.candidatesFor languages mask).1 =
      set.rules.filter fun rule => rule.severity.intersects mask && rule.concerns languages := by
  rw [candidatesFor_of_new rfl, wf.clone.lookup_eq_filter, wf.clone.rules_eq, wf.rules_eq]
  rfl

/-- Rules concern languages by their normalized names. -/
lemma concerns_congr {rule : Rule} {languages languages'}
    (eq : Language.normalize languages = Language.normalize languages') :
    rule.concerns languages = rule.concerns languages' := by
  rw [Rule.concerns, Rule.concerns, eq]

/-- What a set remembers changes no answer just when no rule in force tells the languages that the
question hears from those it asks for. This is so if no language that was asked for has a comma. -/
theorem candidatesFor_eq_clone_iff (recursive : Bool) (operations : List Operation)
    (languages : List String) (mask : Severity) :
    (((after recursive operations).candidatesFor languages mask).1 =
        ((after recursive operations).clone.candidatesFor languages mask).1 ↔
      ∀ rule ∈ (after recursive operations).rules, rule.severity.intersects mask = true →
        (rule.concerns ((Trace.after recursive operations).heard languages mask) = true ↔
          rule.concerns languages = true)) ∧
    ((∀ question ∈ (languages, mask) :: (Trace.after recursive operations).asked,
        ∀ name ∈ Language.normalize question.1, ',' ∉ name.toList) →
      ((after recursive operations).candidatesFor languages mask).1 =
        ((after recursive operations).clone.candidatesFor languages mask).1) := by
  rw [candidatesFor_after, (wellFormed_after recursive operations).clone_candidatesFor]
  refine ⟨⟨?_, ?_⟩, ?_⟩
  · intro eq rule mem force
    have iff := Iff.of_eq (congrArg (rule ∈ ·) eq)
    simpa only [List.mem_filter, mem, force, Bool.true_and, true_and] using iff
  · intro same
    refine List.filter_congr fun rule mem => ?_
    cases force : rule.severity.intersects mask with
    | false => rfl
    | true =>
      rw [Bool.true_and, Bool.true_and, Bool.eq_iff_iff]
      exact same rule mem force
  · intro plain
    refine List.filter_congr fun rule _ => ?_
    rw [concerns_congr (Trace.normalize_heard plain)]

end RuleSet

end Sift
