import Mathlib.Data.List.Basic
import Mathlib.Data.Fintype.EquivFin
import Sift.Publishing

/-!
# What publishing comes to

In every state that a run reaches, the value in force is what the completed updates come to one after another, in
the order of their swaps and stores (`Publishing.Consistent`). The reason is that a cell does not change while
someone can reach it: what a call made from a cell is still made from the cell's value when the call finds the
pointer unchanged, wherever the pointer has led in between. So each value published is the next in that order
(`Consistent.publish_eq`), and each look is at the whole value that was in force at the load (`Consistent.seen`).
A call that has not returned can return from every such state (`Consistent.canReturn`).
-/

namespace Sift.Publishing

variable {σ υ : Type}

/-- The call that an event completes, with its update. -/
def Event.completes? : Event σ υ → Option (Nat × υ)
  | publish call update _ => some (call, update)
  | _ => none

/-- The value that an event shows. -/
def Event.shows? : Event σ υ → Option σ
  | look _ value => some value
  | publish _ _ value => some value
  | _ => none

/-- The updates completed, with their calls, in the order of the swaps and stores. -/
def completed (events : List (Event σ υ)) : List (Nat × υ) := events.filterMap Event.completes?

section Specification

variable (effect : υ → Effect σ) (first : σ)

/-- What updates come to one after another. -/
def outcome (updates : List υ) : σ := updates.foldl (fun value update => (effect update).apply value) first

/-- What the updates that events complete come to. -/
def outcomeOf (events : List (Event σ υ)) : σ := outcome effect first ((completed events).map (·.2))

/-- The value was in force when the call last loaded the pointer. -/
def Seen (events : List (Event σ υ)) (i : Nat) (value : σ) : Prop :=
  ∃ before between, events = before ++ .load i :: between ∧ .load i ∉ between ∧ value = outcomeOf effect first before

/-- The value is what a call makes of that in its source; without a source, what it makes of any value. -/
def Makes (memory : Nat → σ) (call : Call υ) (source : Option Nat) (value : σ) : Prop :=
  ∃ update, call = .update update ∧
    ∀ old, (∀ cell ∈ source, memory cell = old) → value = (effect update).apply old

/-- What is known of a call at its stage. -/
def Stage.Fits (memory : Nat → σ) (events : List (Event σ υ)) (i : Nat) (call : Call υ) : Stage σ → Prop
  | begun => True
  | loaded cell => call.Loads effect ∧ Seen effect first events i (memory cell)
  | made source value => Makes effect memory call source value
  | placed source cell => Makes effect memory call source (memory cell)
  | returned => True

/-- The call at each place fits its stage. -/
def State.Fits (events : List (Event σ υ)) (state : State σ υ) : Prop :=
  ∀ (i : Nat) (call : Call υ) (stage : Stage σ), state.calls[i]? = some (call, stage) →
    stage.Fits effect first state.memory events i call

/-- What holds between the steps, after some events. -/
structure Consistent (events : List (Event σ υ)) (state : State σ υ) : Prop where
  value_eq : state.value = outcomeOf effect first events
  fits : state.Fits effect first events
  nodup : ((completed events).map (·.1)).Nodup
  mem_completed : ∀ i update,
    (i, update) ∈ completed events ↔ state.calls[i]? = some (.update update, .returned)

end Specification

section Runs

variable {effect : υ → Effect σ} {first : σ} {events : List (Event σ υ)} {state next : State σ υ}
  {event : Event σ υ}

section Calls

variable {i : Nat} {call : Call υ} {stage : Stage σ}

lemma getElem?_move {standing} (stands : state.calls[i]? = some standing) (j : Nat) :
    (state.move i call stage).calls[j]? = if i = j then some (call, stage) else state.calls[j]? := by
  obtain ⟨lt, -⟩ := List.getElem?_eq_some_iff.mp stands
  simp only [State.move, List.getElem?_set, lt, if_true]

lemma getElem?_move_self {standing} (stands : state.calls[i]? = some standing) :
    (state.move i call stage).calls[i]? = some (call, stage) := (getElem?_move stands i).trans (if_pos rfl)

lemma getElem?_start {standing j} :
    (state.start call).calls[j]? = some standing ↔
      state.calls[j]? = some standing ∨ j = state.calls.length ∧ standing = (call, .begun) := by
  rw [State.start, List.getElem?_append]
  grind

lemma memory_write_self (cell : Nat) (new : σ) : (state.write cell new).memory cell = new := if_pos rfl

lemma memory_write_of_ne {cell other} (ne : other ≠ cell) (new : σ) :
    (state.write cell new).memory other = state.memory other := if_neg ne

lemma completed_append_of_none (none : event.completes? = none) : completed (events ++ [event]) = completed events := by
  rw [completed, List.filterMap_append, List.filterMap_cons_none none, List.filterMap_nil, List.append_nil, completed]

lemma outcomeOf_append_of_none (none : event.completes? = none) :
    outcomeOf effect first (events ++ [event]) = outcomeOf effect first events := by
  rw [outcomeOf, completed_append_of_none none, outcomeOf]

lemma completed_publish {update value} :
    completed (events ++ [.publish i update value]) = completed events ++ [(i, update)] :=
  List.filterMap_append

lemma outcomeOf_publish {update value} :
    outcomeOf effect first (events ++ [.publish i update value]) =
      (effect update).apply (outcomeOf effect first events) := by
  simp only [outcomeOf, outcome, completed_publish, List.map_append, List.map_cons, List.map_nil, List.foldl_append,
    List.foldl_cons, List.foldl_nil]

/-- What is known of a call stays known until it loads the pointer again. -/
lemma Stage.Fits.append {memory} (fits : stage.Fits effect first memory events i call) (other : event ≠ .load i) :
    stage.Fits effect first memory (events ++ [event]) i call := by
  cases stage with
  | loaded cell =>
    obtain ⟨loads, before, between, rfl, notin, seen⟩ := fits
    refine ⟨loads, before, between ++ [event], by simp, ?_, seen⟩
    simpa [notin] using other.symm
  | begun | made _ _ | placed _ _ | returned => exact fits

/-- Writing elsewhere changes no copy. -/
lemma Makes.write {source value new cell} (makes : Makes effect state.memory call source value)
    (unheld : cell ∉ source) : Makes effect (state.write cell new).memory call source value := by
  obtain ⟨update, rfl, all⟩ := makes
  refine ⟨update, rfl, fun old same => all old fun seen mem => ?_⟩
  have ne : seen ≠ cell := fun eq => unheld (eq ▸ mem)
  rw [← memory_write_of_ne ne new]
  exact same seen mem

/-- A cell that the call does not hold can be written. -/
lemma Stage.Fits.write {cell new} (fits : stage.Fits effect first state.memory events i call)
    (unheld : cell ∉ stage.held) : stage.Fits effect first (state.write cell new).memory events i call := by
  cases stage with
  | begun | returned => trivial
  | loaded seen =>
    have ne : seen ≠ cell := fun eq => unheld (List.mem_singleton.mpr eq.symm)
    rw [Stage.Fits, memory_write_of_ne ne]
    exact fits
  | made source value => exact Makes.write fits fun mem => unheld (Option.mem_toList.mpr mem)
  | placed source own =>
    have ne : own ≠ cell := fun eq => unheld (eq ▸ List.mem_cons_self)
    rw [Stage.Fits, memory_write_of_ne ne]
    exact Makes.write fits fun mem => unheld (List.mem_cons_of_mem _ (Option.mem_toList.mpr mem))

/-- One call moves on, and of the others the same is known. -/
lemma State.Fits.move {standing} (fits : state.Fits effect first events) (stands : state.calls[i]? = some standing)
    (own : ∀ j, event = .load j → j = i) (moved : stage.Fits effect first state.memory (events ++ [event]) i call) :
    (state.move i call stage).Fits effect first (events ++ [event]) := by
  intro j other stage at_j
  rw [getElem?_move stands] at at_j
  split at at_j
  case isTrue eq =>
    cases at_j
    exact eq ▸ moved
  case isFalse ne => exact (fits j other stage at_j).append fun eq => ne (own j eq).symm

end Calls

/-- The protocol begins consistent. -/
lemma consistent_initial : Consistent effect first [] (.initial first : State σ υ) where
  value_eq := rfl
  fits := by
    intro i call stage at_i
    cases at_i
  nodup := List.nodup_nil
  mem_completed := by
    intro i update
    exact iff_of_false List.not_mem_nil (by rintro ⟨⟩)

/-- A step that completes no update keeps the value in force and returns no update. -/
lemma Consistent.of_none (consistent : Consistent effect first events state) (none : event.completes? = none)
    (value : next.value = state.value) (fits : next.Fits effect first (events ++ [event]))
    (returned : ∀ (i : Nat) (update : υ), next.calls[i]? = some (.update update, .returned) ↔
      state.calls[i]? = some (.update update, .returned)) :
    Consistent effect first (events ++ [event]) next where
  value_eq := by
    rw [value, consistent.value_eq, outcomeOf_append_of_none none]
  fits := fits
  nodup := by
    rw [completed_append_of_none none]
    exact consistent.nodup
  mem_completed := by
    intro i update
    rw [completed_append_of_none none, consistent.mem_completed, returned]

/-- A call moves on without an effect on the value in force. -/
lemma Consistent.move {i call stage standing} (consistent : Consistent effect first events state)
    (stands : state.calls[i]? = some standing) (none : event.completes? = none) (own : ∀ j, event = .load j → j = i)
    (before : ∀ update, standing ≠ (.update update, .returned))
    (after : ∀ update, (call, stage) ≠ (.update update, .returned))
    (moved : stage.Fits effect first state.memory (events ++ [event]) i call) :
    Consistent effect first (events ++ [event]) (state.move i call stage) := by
  refine consistent.of_none none rfl (consistent.fits.move stands own moved) fun j update => ?_
  rw [getElem?_move stands]
  split
  case isTrue eq =>
    subst eq
    rw [stands, Option.some_inj, Option.some_inj]
    exact iff_of_false (after update) (before update)
  case isFalse => exact Iff.rfl

/-- An unused cell can be written. -/
lemma Consistent.write {cell new} (consistent : Consistent effect first events state) (unused : state.Unused cell) :
    Consistent effect first events (state.write cell new) where
  value_eq := (memory_write_of_ne unused.1.symm new).trans consistent.value_eq
  fits i call stage at_i := (consistent.fits i call stage at_i).write (unused.2 _ (List.mem_of_getElem? at_i))
  nodup := consistent.nodup
  mem_completed := consistent.mem_completed

/-- The pointer still leads to where the new value was made from, or the value was made from none. -/
lemma Makes.eq_apply_value {update source value} (makes : Makes effect state.memory (.update update) source value)
    (unmoved : ∀ cell ∈ source, cell = state.current) : value = (effect update).apply state.value := by
  obtain ⟨_, ⟨⟩, all⟩ := makes
  exact all _ fun cell mem => congrArg state.memory (unmoved cell mem)

/-- A call that publishes what it has made is completed by that. -/
lemma Consistent.publish {i cell update source} (consistent : Consistent effect first events state)
    (stands : state.calls[i]? = some (.update update, .placed source cell))
    (unmoved : ∀ seen ∈ source, seen = state.current) :
    Consistent effect first (events ++ [.publish i update (state.memory cell)])
      ((state.move i (.update update) .returned).point cell) where
  value_eq := by
    rw [outcomeOf_publish, ← consistent.value_eq]
    exact Makes.eq_apply_value (consistent.fits i _ _ stands) unmoved
  fits := consistent.fits.move stands (by rintro j ⟨⟩) trivial
  nodup := by
    -- A call that has completed an update has returned, and this one has not.
    have fresh : i ∉ (completed events).map (·.1) := by
      rw [List.mem_map]
      rintro ⟨⟨j, done⟩, mem, rfl⟩
      rw [consistent.mem_completed, stands] at mem
      cases mem
    rw [completed_publish, List.map_append, List.map_singleton, List.nodup_append]
    refine ⟨consistent.nodup, List.nodup_singleton i, ?_⟩
    rintro j mem _ only rfl
    rw [List.mem_singleton.mp only] at mem
    exact fresh mem
  mem_completed := by
    intro j done
    rw [State.point, getElem?_move stands, completed_publish, List.mem_append, List.mem_singleton,
      consistent.mem_completed]
    split
    case isTrue eq =>
      subst eq
      rw [stands]
      simp [eq_comm]
    case isFalse ne => simp [Ne.symm ne]

/-- A call that begins keeps it so. -/
lemma Consistent.begin (consistent : Consistent effect first events state) (call : Call υ) :
    Consistent effect first (events ++ [.begin call]) (state.start call) := by
  refine consistent.of_none rfl rfl ?_ ?_
  · intro j other stage at_j
    obtain at_j | ⟨-, eq⟩ := getElem?_start.mp at_j
    · exact (consistent.fits j other stage at_j).append (by rintro ⟨⟩)
    · cases eq
      trivial
  · intro j update
    refine getElem?_start.trans (or_iff_left ?_)
    rintro ⟨-, ⟨⟩⟩

/-- A step keeps it so. -/
lemma Consistent.step (consistent : Consistent effect first events state) (step : Step effect state event next) :
    Consistent effect first (events ++ [event]) next := by
  cases step with
  | begin call => exact consistent.begin call
  | load stands loads =>
    refine consistent.move stands rfl ?_ (by rintro _ ⟨⟩) (by rintro _ ⟨⟩) ?_
    · rintro j ⟨⟩
      rfl
    · exact ⟨loads, events, [], rfl, List.not_mem_nil, consistent.value_eq⟩
  | look stands =>
    refine consistent.of_none rfl rfl ?_ fun _ _ => Iff.rfl
    exact fun j other stage at_j => (consistent.fits j other stage at_j).append (by rintro ⟨⟩)
  | leave stands =>
    exact consistent.move stands rfl (by rintro _ ⟨⟩) (by rintro _ ⟨⟩) (by rintro _ ⟨⟩) trivial
  | @modify i cell update change stands modifies =>
    refine consistent.move stands rfl (by rintro _ ⟨⟩) (by rintro _ ⟨⟩) (by rintro _ ⟨⟩) ⟨update, rfl, ?_⟩
    intro old same
    rw [modifies, Effect.apply, same cell rfl]
  | @make i update value stands replaces =>
    refine consistent.move stands rfl (by rintro _ ⟨⟩) (by rintro _ ⟨⟩) (by rintro _ ⟨⟩) ⟨update, rfl, ?_⟩
    intro old _
    rw [replaces, Effect.apply]
  | @place i cell update source value stands unused =>
    refine (consistent.write unused).move stands rfl (by rintro _ ⟨⟩) (by rintro _ ⟨⟩) (by rintro _ ⟨⟩) ?_
    have unheld : cell ∉ source :=
      fun mem => unused.2 _ (List.mem_of_getElem? stands) (Option.mem_toList.mpr mem)
    rw [Stage.Fits, memory_write_self]
    exact Makes.write (consistent.fits i _ _ stands) unheld
  | swap stands => exact consistent.publish stands fun cell mem => (Option.mem_some.mp mem).symm
  | retry stands moved =>
    exact consistent.move stands rfl (by rintro _ ⟨⟩) (by rintro _ ⟨⟩) (by rintro _ ⟨⟩) trivial
  | store stands => exact consistent.publish stands fun cell mem => nomatch mem

/-- A run keeps it so. -/
lemma Consistent.run {more} (consistent : Consistent effect first events state) (run : Run effect state more next) :
    Consistent effect first (events ++ more) next := by
  induction run generalizing events with
  | nil => simpa using consistent
  | cons step _ ih => simpa using ih (consistent.step step)

/-- A run stops before each of its steps. -/
lemma Run.exists_step {before after} (run : Run effect state (before ++ event :: after) next) :
    ∃ middle changed, Run effect state before middle ∧ Step effect middle event changed := by
  induction before generalizing state with
  | nil =>
    cases run with
    | cons step _ => exact ⟨_, _, .nil, step⟩
  | cons earlier before ih =>
    cases run with
    | cons step run =>
      obtain ⟨middle, changed, run, last⟩ := ih run
      exact ⟨middle, changed, .cons step run, last⟩

/-- What is published is what the update makes of the value in force. -/
lemma Consistent.publish_eq {i update value} (consistent : Consistent effect first events state)
    (step : Step effect state (.publish i update value) next) :
    value = (effect update).apply (outcomeOf effect first events) := by
  have shown : value = next.value := by cases step <;> rfl
  rw [shown, (consistent.step step).value_eq, outcomeOf_publish]

/-- A look is at the value that was in force at the load. -/
lemma Consistent.seen {i value} (consistent : Consistent effect first events state)
    (step : Step effect state (.look i value) next) : Seen effect first events i value := by
  cases step with
  | look stands => exact (consistent.fits i _ _ stands).2
  | modify stands _ => exact (consistent.fits i _ _ stands).2

section Progress

variable {i : Nat} {call : Call υ}

/-- A run leads to where the call has returned. -/
def CanReturn (effect : υ → Effect σ) (state : State σ υ) (i : Nat) (call : Call υ) : Prop :=
  ∃ more last, Run effect state more last ∧ last.calls[i]? = some (call, .returned)

lemma CanReturn.of_step (step : Step effect state event next) (can : CanReturn effect next i call) :
    CanReturn effect state i call := by
  obtain ⟨more, last, run, returned⟩ := can
  exact ⟨event :: more, last, .cons step run, returned⟩

/-- There always is a new cell. -/
lemma exists_unused (state : State σ υ) : ∃ cell, state.Unused cell := by
  obtain ⟨cell, notin⟩ :=
    Infinite.exists_notMem_finset (state.current :: state.calls.flatMap (·.2.held)).toFinset
  rw [List.mem_toFinset, List.mem_cons, List.mem_flatMap, not_or] at notin
  exact ⟨cell, notin.1, fun call mem held => notin.2 ⟨call, mem, held⟩⟩

/-- An update can end if nothing was published since. -/
lemma canReturn_of_unmoved {update source cell}
    (stands : state.calls[i]? = some (.update update, .placed source cell))
    (unmoved : ∀ seen ∈ source, seen = state.current) : CanReturn effect state i (.update update) := by
  have returned : ((state.move i (.update update) .returned).point cell).calls[i]? =
      some (.update update, .returned) := getElem?_move_self stands
  cases source with
  | none => exact ⟨_, _, .cons (.store stands) .nil, returned⟩
  | some seen =>
    rw [unmoved seen rfl] at stands
    exact ⟨_, _, .cons (.swap stands) .nil, returned⟩

/-- What a call has made can be put into a cell, and the pointer stays where it is. -/
lemma canReturn_of_made {update source value} (stands : state.calls[i]? = some (.update update, .made source value))
    (placed : ∀ (cell : Nat) (next : State σ υ), next.calls[i]? = some (.update update, .placed source cell) →
      next.current = state.current → CanReturn effect next i (.update update)) :
    CanReturn effect state i (.update update) := by
  obtain ⟨cell, unused⟩ := exists_unused state
  refine .of_step (.place stands unused) (placed cell _ ?_ rfl)
  have stands : (state.write cell value).calls[i]? = some (.update update, .made source value) := stands
  exact getElem?_move_self stands

/-- A call that nothing interferes with returns. -/
lemma canReturn_of_begun (stands : state.calls[i]? = some (call, .begun)) : CanReturn effect state i call := by
  have moved (stage : Stage σ) : (state.move i call stage).calls[i]? = some (call, stage) :=
    getElem?_move_self stands
  cases call with
  | read =>
    refine .of_step (.load stands trivial) (.of_step (.leave (moved _)) ⟨[], _, .nil, ?_⟩)
    exact getElem?_move_self (moved _)
  | update update =>
    cases how : effect update with
    | modify change =>
      refine .of_step (.load stands ⟨change, how⟩) (.of_step (.modify (moved _) how) ?_)
      refine canReturn_of_made (getElem?_move_self (moved _)) fun cell next placed current => ?_
      refine canReturn_of_unmoved placed fun seen mem => ?_
      rw [current]
      exact (Option.mem_some.mp mem).symm
    | replace value =>
      refine .of_step (.make stands how) (canReturn_of_made (moved _) fun cell next placed _ => ?_)
      exact canReturn_of_unmoved placed fun seen mem => nomatch mem

/-- A call that finds the pointer moved begins anew. -/
lemma canReturn_of_placed {update source cell}
    (stands : state.calls[i]? = some (.update update, .placed source cell)) :
    CanReturn effect state i (.update update) := by
  by_cases unmoved : ∀ seen ∈ source, seen = state.current
  · exact canReturn_of_unmoved stands unmoved
  · push Not at unmoved
    obtain ⟨seen, rfl, moved⟩ := unmoved
    refine .of_step (.retry stands moved) (canReturn_of_begun ?_)
    exact getElem?_move_self stands

/-- Every call can end. -/
lemma Consistent.canReturn {stage} (consistent : Consistent effect first events state)
    (stands : state.calls[i]? = some (call, stage)) : CanReturn effect state i call := by
  have fits := consistent.fits i call stage stands
  cases stage with
  | begun => exact canReturn_of_begun stands
  | loaded cell =>
    cases call with
    | read =>
      exact .of_step (.leave stands) ⟨[], _, .nil, getElem?_move_self stands⟩
    | update update =>
      obtain ⟨⟨change, how⟩, -⟩ := fits
      refine .of_step (.modify stands how) ?_
      exact canReturn_of_made (getElem?_move_self stands)
        fun cell next placed _ => canReturn_of_placed placed
  | made source value =>
    obtain ⟨update, rfl, -⟩ := fits
    exact canReturn_of_made stands fun cell next placed _ => canReturn_of_placed placed
  | placed source cell =>
    obtain ⟨update, rfl, -⟩ := fits
    exact canReturn_of_placed stands
  | returned => exact ⟨[], state, .nil, stands⟩

end Progress

end Runs

end Sift.Publishing
