import Sift.Processor.Concurrent
import Sift.Proofs.Publishing

/-!
# Processors that are changed while they are used

Rule set and severities are published as one value, so calls at the same time change a processor as they would
one after another, in the order in which they publish (`Processor.publishes_in_order`). No call undoes what another
has set: the rules in force are those that the last call which sets rules has set, and so are the severities
(`Processor.Carries`). No reader meets the rules of one call with the severities of another that had not published
them together, and critical severities are in force throughout.
-/

namespace Sift

namespace Severity

variable {a b c : Severity}

lemma has_union_left (has : a.has c = true) : (a.union b).has c = true := by
  rw [Severity.has, Bool.and_eq_true, beq_iff_eq] at has ⊢
  obtain ⟨some, all⟩ := has
  have distrib : (a.bits ||| b.bits) &&& c.bits = (a.bits &&& c.bits) ||| (b.bits &&& c.bits) :=
    UInt8.toBitVec_inj.mp BitVec.and_or_distrib_right
  have absorbed : c.bits ||| (b.bits &&& c.bits) = c.bits := by
    apply UInt8.toBitVec_inj.mp
    ext i
    simp
  exact ⟨some, by rw [union, distrib, all, absorbed]⟩

lemma has_union_right (has : b.has c = true) : (a.union b).has c = true := by
  rw [union, UInt8.or_comm]
  exact has_union_left has

lemma has_foldl_union (levels : List Severity) (has : a.has c = true) : (levels.foldl union a).has c = true := by
  induction levels generalizing a with
  | nil => exact has
  | cons level rest ih => exact ih (has_union_left has)

end Severity

namespace Processor

open Publishing

section Updates

variable {bundled : Option Corpus} {recursive : Bool} {syntaxes : SyntaxRegistry}

lemma syntaxes_updated (processor : Processor) (update : Update) :
    (updated bundled recursive processor update).syntaxes = processor.syntaxes := by
  cases update <;> rfl

/-- Loading anew depends on nothing that is published. -/
lemma reload_eq_of_syntaxes {a b : Processor} (same : a.syntaxes = b.syntaxes) (files : FileSystem)
    (settings : Settings) :
    (a.reload files bundled recursive settings).1 = (b.reload files bundled recursive settings).1 := by
  simp only [reload, same]

/-- An update's effect is the update. -/
lemma apply_effect (processor : Processor) (update : Update) :
    (update.effect bundled recursive processor.syntaxes).apply processor =
      updated bundled recursive processor update := by
  cases update with
  | setRules rules => rfl
  | setSeverity mask => rfl
  | reload files settings => exact reload_eq_of_syntaxes rfl files settings

/-- The updates are applied one after the other. -/
lemma outcome_effect (first : Processor) (updates : List Update) :
    outcome (Update.effect bundled recursive first.syntaxes) first updates =
      updates.foldl (updated bundled recursive) first := by
  induction updates generalizing first with
  | nil => rfl
  | cons update rest ih =>
    have later := ih (updated bundled recursive first update)
    rw [syntaxes_updated] at later
    rw [outcome, List.foldl_cons, List.foldl_cons, apply_effect, ← later, outcome]

/-- An update keeps critical rules on. -/
lemma has_critical_updated {processor} (has : processor.mask.has .critical = true) (update : Update) :
    (updated bundled recursive processor update).mask.has .critical = true := by
  cases update with
  | setRules rules => exact has
  | setSeverity mask => exact Severity.has_union_right (by decide)
  | reload files settings => exact Severity.has_foldl_union _ (by decide)

lemma has_critical_foldl {processor} (has : processor.mask.has .critical = true) (updates : List Update) :
    (updates.foldl (updated bundled recursive) processor).mask.has .critical = true := by
  induction updates generalizing processor with
  | nil => exact has
  | cons update rest ih => exact ih (has_critical_updated has update)

end Updates

section Last

variable (bundled : Option Corpus) (recursive : Bool)

/-- The rules that a call puts in force, if it does. -/
def Update.rules? : Update → Option (Option RuleSet)
  | setRules rules => some rules
  | setSeverity _ => none
  | reload files settings => some (some (loadRules files bundled recursive settings).1)

/-- The severities that a call puts in force, if it does. -/
def Update.mask? : Update → Option Severity
  | setRules _ => none
  | setSeverity mask => some (mask.union .critical)
  | reload _ settings => some settings.mask

/-- What the last call that sets something has set, or what was there at first if none has. -/
def lastSet {α : Type} (sets? : Update → Option α) (first : α) (updates : List Update) : α :=
  (updates.filterMap sets?).getLast?.getD first

/-- One more call sets what it sets and leaves the rest. -/
lemma lastSet_concat {α : Type} (sets? : Update → Option α) (first : α) (updates : List Update) (update : Update) :
    lastSet sets? first (updates ++ [update]) = (sets? update).getD (lastSet sets? first updates) := by
  cases set : sets? update with
  | none => simp [lastSet, set]
  | some value => simp [lastSet, set]

/-- Rules and severities are what the last calls that set them have set. -/
structure Carries (first : Processor) (updates : List Update) (snapshot : Processor) : Prop where
  rules_eq : snapshot.rules = lastSet (Update.rules? bundled recursive) first.rules updates
  mask_eq : snapshot.mask = lastSet Update.mask? first.mask updates
  syntaxes_eq : snapshot.syntaxes = first.syntaxes

variable {bundled recursive}

/-- A call sets its own part and keeps the part that another has set. -/
lemma Carries.updated {first snapshot updates} (carries : Carries bundled recursive first updates snapshot)
    (update : Update) :
    Carries bundled recursive first (updates ++ [update]) (updated bundled recursive snapshot update) := by
  obtain ⟨rules, mask, syntaxes⟩ := carries
  refine ⟨?_, ?_, (syntaxes_updated snapshot update).trans syntaxes⟩
  · rw [lastSet_concat]
    cases update with
    | setRules _ => rfl
    | setSeverity _ => exact rules
    | reload _ _ => rfl
  · rw [lastSet_concat]
    cases update with
    | setRules _ => exact mask
    | setSeverity _ => rfl
    | reload _ _ => rfl

/-- So do calls one after another. -/
lemma carries_foldl (first : Processor) (updates : List Update) :
    Carries bundled recursive first updates (updates.foldl (Processor.updated bundled recursive) first) := by
  induction updates using List.reverseRecOn with
  | nil => exact ⟨rfl, rfl, rfl⟩
  | append_singleton updates update ih =>
    rw [List.foldl_append]
    exact ih.updated update

end Last

section Runs

variable (bundled : Option Corpus) (recursive : Bool)

/-- The calls that events complete, in their order. -/
def updatesOf (events : List (Event Processor Update)) : List Update := (completed events).map (·.2)

/-- The processor after the calls that events complete, one after another. -/
def updatedBy (first : Processor) (events : List (Event Processor Update)) : Processor :=
  (updatesOf events).foldl (updated bundled recursive) first

variable {bundled recursive}

lemma syntaxes_updatedBy (first : Processor) (events : List (Event Processor Update)) :
    (updatedBy bundled recursive first events).syntaxes = first.syntaxes := by
  rw [updatedBy]
  induction updatesOf events generalizing first with
  | nil => rfl
  | cons update rest ih => exact (ih _).trans (syntaxes_updated first update)

lemma outcomeOf_effect (first : Processor) (events : List (Event Processor Update)) :
    outcomeOf (Update.effect bundled recursive first.syntaxes) first events =
      updatedBy bundled recursive first events := outcome_effect first _

section First

variable {first : Processor} {events before after : List (Event Processor Update)} {state : State Processor Update}
  (run : Run (Update.effect bundled recursive first.syntaxes) (.initial first) events state)

include run

/-- What is published is the update of what was. -/
lemma publish_eq {i update snapshot} (split : events = before ++ .publish i update snapshot :: after) :
    snapshot = updated bundled recursive (updatedBy bundled recursive first before) update := by
  subst split
  obtain ⟨middle, changed, earlier, step⟩ := run.exists_step
  have eq := (consistent_initial.run earlier).publish_eq step
  rwa [List.nil_append, outcomeOf_effect, ← syntaxes_updatedBy first before, apply_effect] at eq

/-- What a call sees is what was published when it looked. -/
lemma look_eq {i snapshot} (split : events = before ++ .look i snapshot :: after) :
    ∃ earlier between, before = earlier ++ .load i :: between ∧ .load i ∉ between ∧
      snapshot = updatedBy bundled recursive first earlier := by
  subst split
  obtain ⟨middle, changed, earlier, step⟩ := run.exists_step
  obtain ⟨earlier, between, split, last, shown⟩ := (consistent_initial.run earlier).seen step
  exact ⟨earlier, between, split, last, shown.trans (outcomeOf_effect first earlier)⟩

/-- Every snapshot has critical rules on. -/
lemma has_critical_of_shows (critical : first.mask.has .critical = true) {event} (mem : event ∈ events) {snapshot}
    (shown : snapshot ∈ event.shows?) :
    snapshot.mask.has .critical = true := by
  obtain ⟨before, after, split⟩ := List.append_of_mem mem
  cases event with
  | look i value =>
    cases shown
    obtain ⟨earlier, between, -, -, eq⟩ := look_eq run split
    exact eq ▸ has_critical_foldl critical _
  | publish i update value =>
    cases shown
    rw [publish_eq run split]
    exact has_critical_updated (has_critical_foldl critical _) update
  | begin _ | load _ | make _ | place _ | retry _ | leave _ => cases shown

end First

/-- Calls change a processor as they would one after another, in the order of their swaps and stores: what is
published, what a reader looks at and what is in force are processors that these updates come to. Each carries the
rules and the severities that the last of the calls before it that set them have set, so none is lost. A call has
returned if and only if its update is among them, once, and a call that has not can still return. Critical
severities are always in force. -/
theorem publishes_in_order (rules : Option RuleSet) (syntaxes : SyntaxRegistry)
    {events : List (Event Processor Update)} {state : State Processor Update}
    (run : Run (Update.effect bundled recursive syntaxes) (.initial (ofRules rules recursive syntaxes)) events state) :
    let first := ofRules rules recursive syntaxes
    (∀ before i update snapshot after, events = before ++ .publish i update snapshot :: after →
      snapshot = updated bundled recursive (updatedBy bundled recursive first before) update ∧
      Carries bundled recursive first (updatesOf before ++ [update]) snapshot) ∧
    (∀ before i snapshot after, events = before ++ .look i snapshot :: after →
      ∃ earlier between, before = earlier ++ .load i :: between ∧ .load i ∉ between ∧
        snapshot = updatedBy bundled recursive first earlier ∧
        Carries bundled recursive first (updatesOf earlier) snapshot) ∧
    state.value = updatedBy bundled recursive first events ∧
    Carries bundled recursive first (updatesOf events) state.value ∧
    ((completed events).map (·.1)).Nodup ∧
    (∀ i update, (i, update) ∈ completed events ↔ state.calls[i]? = some (.update update, .returned)) ∧
    (∀ i call stage, state.calls[i]? = some (call, stage) →
      CanReturn (Update.effect bundled recursive syntaxes) state i call) ∧
    (∀ event ∈ events, ∀ snapshot ∈ event.shows?, snapshot.mask.has .critical = true) ∧
    state.value.mask.has .critical = true := by
  intro first
  have run : Run (Update.effect bundled recursive first.syntaxes) (.initial first) events state := run
  have consistent := consistent_initial.run run
  have critical : first.mask.has .critical = true := by
    show Severity.critical.has .critical = true
    decide
  have value : state.value = updatedBy bundled recursive first events :=
    consistent.value_eq.trans (outcomeOf_effect first events)
  refine ⟨?_, ?_, value, ?_, consistent.nodup, consistent.mem_completed, ?_, ?_, ?_⟩
  · intro before i update snapshot after split
    have published := publish_eq run split
    exact ⟨published, published ▸ (carries_foldl first _).updated update⟩
  · intro before i snapshot after split
    obtain ⟨earlier, between, eq, last, seen⟩ := look_eq run split
    exact ⟨earlier, between, eq, last, seen, seen ▸ carries_foldl first _⟩
  · rw [value]
    exact carries_foldl first _
  · intro i call stage stands
    exact consistent.canReturn stands
  · intro event mem snapshot shown
    exact has_critical_of_shows run critical mem shown
  · rw [value]
    exact has_critical_foldl critical _

/-- Two updates race, and one is made again. -/
theorem publishes_in_order_race :
    let first := ofRules none false .builtIn
    let settings : Settings := { moderate := true }
    let reload : Update := .reload ⟨.dir [], "/"⟩ settings
    let effect := Update.effect none false .builtIn
    ∃ events state, Run effect (.initial first) events state ∧ .retry 0 ∈ events ∧
      completed events = [(1, reload), (0, .setSeverity .important)] ∧
      state.value = updated none false (updated none false first reload) (.setSeverity .important) ∧
      state.value.rules = some (loadRules ⟨.dir [], "/"⟩ none false settings).1 ∧
      state.value.mask = Severity.important.union .critical := by
  intro first settings reload effect
  -- The first call has a value ready when the second stores its own.
  have run : Run effect (.initial first) _ _ :=
    .cons (.begin (.update (.setSeverity .important))) <| .cons (.begin (.update reload)) <|
    .cons (.load (i := 0) rfl ⟨_, rfl⟩) <| .cons (.modify (i := 0) rfl rfl) <|
    .cons (.place (i := 0) rfl ⟨(by decide : 1 ≠ _), by decide⟩) <| .cons (.make (i := 1) rfl rfl) <|
    .cons (.place (i := 1) rfl ⟨(by decide : 2 ≠ _), by decide⟩) <| .cons (.store (i := 1) rfl) <|
    .cons (.retry (i := 0) rfl (by decide)) <| .cons (.load (i := 0) rfl ⟨_, rfl⟩) <|
    .cons (.modify (i := 0) rfl rfl) <| .cons (.place (i := 0) rfl ⟨(by decide : 1 ≠ _), by decide⟩) <|
    .cons (.swap (i := 0) rfl) .nil
  obtain ⟨-, -, value, carries, -⟩ := publishes_in_order none .builtIn run
  exact ⟨_, _, run, by simp, rfl, value, carries.rules_eq, carries.mask_eq⟩

end Runs

end Processor

end Sift
