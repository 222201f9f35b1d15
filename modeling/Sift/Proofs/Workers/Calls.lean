import Mathlib.Data.List.Infix
import Sift.Proofs.Workers

/-!
# Each call once

A run shows of the call of a worker its beginning and its end, in this order and each once, as far as the worker
has come (`Traced`). As a worker has a place while it calls, no more calls are begun and not ended than there are
places. Where each call fills the slot of its index, a slot is filled once the call has ended (`Filled`), so that
all slots are filled when the loop returns, whatever the order of the steps was (`filling_each_once`).
-/

namespace Sift.Workers

variable {σ α β γ : Type}

namespace Event

def isBegin : Event α → Bool
  | begin _ _ => true
  | _ => false

def isFinish : Event α → Bool
  | finish _ => true
  | _ => false

/-- Whether the call of a worker begins or ends. -/
def isOf (worker : Nat) : Event α → Bool
  | begin other _ => other == worker
  | finish other => other == worker
  | _ => false

end Event

namespace Stage

def isCalling : Stage β → Bool
  | calling _ => true
  | _ => false

/-- Whether the call has ended. -/
def isFinished : Stage β → Bool
  | started | calling _ => false
  | _ => true

end Stage

/-- A call from its beginning to its end. -/
def wholeCall (worker : Nat) (value : α) : List (Event α) := [.begin worker value, .finish worker]

/-- What has happened of the call of a worker. -/
def callSoFar (worker : Nat) : α × Stage β → List (Event α)
  | (_, .started) => []
  | (value, .calling _) => [.begin worker value]
  | (value, _) => wholeCall worker value

/-- Each call does what `job` does, and leaves what `f` gives for its index and value in the slot of the index. -/
def Job.filling (job : Job σ (α × Nat) β) (f : Nat → α → γ) : Job (σ × List γ) (α × Nat) (β × Nat × γ) where
  answer shared value := (job.answer shared.1 value, value.2, f value.2 value.1)
  keep shared result := (job.keep shared.1 result.1, shared.2.set result.2.1 result.2.2)

/-- What has happened fits how far the workers have come. -/
structure Traced (events : List (Event α)) (state : State σ α β) : Prop where
  calls_eq : ∀ i, events.filter (·.isOf i) = (state.workers[i]?).elim [] (callSoFar i)
  count_eq : events.countP (·.isBegin) = events.countP (·.isFinish) + state.workers.countP (·.2.isCalling)

section Traces

variable {limit : Int} {job : Job σ α β} {state next : State σ α β} {event : Event α} {events : List (Event α)}

lemma traced_initial (values : List α) (shared : σ) : Traced [] (.initial values shared : State σ α β) :=
  ⟨fun _ => rfl, rfl⟩

lemma getElem?_moved {ω : Type} (front back : List ω) (old new : ω) (i : Nat) :
    (front ++ new :: back)[i]? = if i = front.length then some new else (front ++ old :: back)[i]? := by
  rcases Nat.lt_trichotomy i front.length with lt | rfl | gt
  · rw [if_neg (Nat.ne_of_lt lt), List.getElem?_append_left lt, List.getElem?_append_left lt]
  · rw [if_pos rfl, List.getElem?_append_right (Nat.le_refl _), Nat.sub_self, List.getElem?_cons_zero]
  · obtain ⟨k, rfl⟩ := Nat.exists_eq_add_of_lt gt
    rw [if_neg (Nat.ne_of_gt gt), List.getElem?_append_right (by omega), List.getElem?_append_right (by omega),
      show front.length + k + 1 - front.length = k + 1 by omega, List.getElem?_cons_succ, List.getElem?_cons_succ]

/-- One worker moves on: what has happened of its call grows by the event, if that is one of its own. -/
lemma calls_moved {front back value} {stage stage' : Stage β}
    (calls : ∀ i, events.filter (·.isOf i) = ((front ++ (value, stage) :: back)[i]?).elim [] (callSoFar i))
    (own : callSoFar front.length (value, stage') =
      callSoFar front.length (value, stage) ++ [event].filter (·.isOf front.length))
    (other : ∀ i, i ≠ front.length → event.isOf i = false) (i : Nat) :
    (events ++ [event]).filter (·.isOf i) = ((front ++ (value, stage') :: back)[i]?).elim [] (callSoFar i) := by
  rw [List.filter_append, calls i, getElem?_moved front back (value, stage) (value, stage') i]
  split
  · rename_i eq
    subst eq
    rw [Option.elim_some, own, getElem?_moved front back (value, stage) (value, stage), if_pos rfl, Option.elim_some]
  · rename_i ne
    rw [List.filter_singleton, other i ne, cond_false, List.append_nil]

/-- A step keeps the trace. -/
lemma Traced.step (traced : Traced events state) (step : Step limit job state event next) :
    Traced (events ++ [event]) next := by
  obtain ⟨calls, count⟩ := traced
  cases step with
  | take | count | leave =>
    exact ⟨by simpa [Event.isOf] using calls, by simpa [Event.isBegin, Event.isFinish] using count⟩
  | start loop =>
    refine ⟨fun i => ?_, by simpa [Event.isBegin, Event.isFinish, Stage.isCalling] using count⟩
    rw [List.filter_append, calls i]
    rcases Nat.lt_or_ge i state.workers.length with lt | ge
    · simp [Event.isOf, List.getElem?_append_left lt]
    · rw [List.getElem?_append_right ge, List.getElem?_eq_none ge]
      cases i - state.workers.length <;> rfl
  | begin workers =>
    rw [workers] at calls count
    refine ⟨calls_moved calls ?_ ?_, ?_⟩
    · simp [callSoFar, Event.isOf]
    · intro i ne
      simp [Event.isOf, ne.symm]
    · simp only [List.countP_append, List.countP_cons, List.countP_nil, Event.isBegin, Event.isFinish,
        Stage.isCalling] at count ⊢
      grind
  | finish workers =>
    rw [workers] at calls count
    refine ⟨calls_moved calls ?_ ?_, ?_⟩
    · simp [callSoFar, wholeCall, Event.isOf]
    · intro i ne
      simp [Event.isOf, ne.symm]
    · simp only [List.countP_append, List.countP_cons, List.countP_nil, Event.isBegin, Event.isFinish,
        Stage.isCalling] at count ⊢
      grind
  | release workers | signOff workers =>
    rw [workers] at calls count
    refine ⟨calls_moved calls ?_ fun _ _ => rfl, ?_⟩
    · simp [callSoFar, Event.isOf]
    · simpa [Event.isBegin, Event.isFinish, Stage.isCalling] using count

/-- A run keeps the trace. -/
lemma Traced.run {before} (traced : Traced before state) (run : Run limit job state events next) :
    Traced (before ++ events) next := by
  induction run generalizing before with
  | nil => rwa [List.append_nil]
  | cons step _ ih =>
    rw [List.append_cons]
    exact ih (traced.step step)

end Traces

section Filling

variable {limit : Int} {job : Job σ (α × Nat) β} {f : Nat → α → γ} {values : List α} {slots : List γ}
  {state next : State (σ × List γ) (α × Nat) (β × Nat × γ)} {event : Event (α × Nat)}
  {events : List (Event (α × Nat))}

/-- What a call comes to names the slot of its index and what belongs there. -/
def Names (f : Nat → α → γ) (value : α × Nat) (result : β × Nat × γ) : Prop :=
  result.2 = (value.2, f value.2 value.1)

lemma names_answer (now : σ × List γ) (value : α × Nat) : Names f value ((job.filling f).answer now value) := rfl

/-- What a slot holds, by how far the worker of its index has come. -/
def slotAt {δ : Type} (f : Nat → α → γ) (slots : List γ) (i : Nat) : Option ((α × Nat) × Stage δ) → Option γ
  | some (value, stage) => if stage.isFinished then some (f i value.1) else slots[i]?
  | none => slots[i]?

/-- A slot is filled once the call for its index has ended. -/
structure Filled (f : Nat → α → γ) (slots : List γ) (state : State (σ × List γ) (α × Nat) (β × Nat × γ)) : Prop where
  length_eq : state.shared.2.length = slots.length
  slot_eq : ∀ i, state.shared.2[i]? = slotAt f slots i state.workers[i]?

lemma filled_initial (values : List (α × Nat)) (shared : σ) :
    Filled f slots (.initial values (shared, slots) : State (σ × List γ) (α × Nat) (β × Nat × γ)) :=
  ⟨rfl, fun _ => rfl⟩

/-- One worker moves on, and its call has ended as little or as much as before. -/
lemma slotAt_moved {δ : Type} {front back value} {stage stage' : Stage δ}
    (same : stage'.isFinished = stage.isFinished) (i : Nat) :
    slotAt f slots i (front ++ (value, stage') :: back)[i]? =
      slotAt f slots i (front ++ (value, stage) :: back)[i]? := by
  rw [getElem?_moved front back (value, stage) (value, stage'), getElem?_moved front back (value, stage) (value, stage)]
  split
  · rw [slotAt, slotAt, same]
  · rfl

/-- A worker stands where its value does. -/
lemma Consistent.index_eq {δ τ : Type} {shows fits} {state : State τ (α × Nat) δ}
    (consistent : Consistent limit values.zipIdx shows fits state) {i} {value : α × Nat} {stage}
    (stands : state.workers[i]? = some (value, stage)) : values[i]? = some value.1 ∧ value.2 = i := by
  have at_place : values.zipIdx[i]? = some value := by
    obtain ⟨lt, eq⟩ := List.getElem?_eq_some_iff.mp stands
    rw [← consistent.values_eq, List.getElem?_append_left (by simpa using lt), List.getElem?_map, stands,
      Option.map_some]
  rw [List.getElem?_zipIdx, Nat.zero_add] at at_place
  obtain ⟨own, get, rfl⟩ := Option.map_eq_some_iff.mp at_place
  exact ⟨get, rfl⟩

lemma Consistent.value_of_returned {δ τ : Type} {shows fits} {state : State τ (α × Nat) δ}
    (consistent : Consistent limit values.zipIdx shows fits state) (loop : state.loop = .returned) (i : Nat) :
    values[i]? = (state.workers[i]?).map (·.1.1) := by
  have all := consistent.values_eq
  rw [loop, Loop.ahead, List.append_nil] at all
  have at_place := congrArg (fun list => (list[i]?).map (·.1)) all
  simpa [Function.comp_def] using at_place.symm

/-- A step keeps the slots filled. -/
lemma Filled.step (filled : Filled f slots state) (length : slots.length = values.length)
    (consistent : Consistent limit values.zipIdx (fun _ => True) (Names f) state)
    (step : Step limit (job.filling f) state event next) : Filled f slots next := by
  obtain ⟨length_eq, slot_eq⟩ := filled
  cases step with
  | take | count | leave => exact ⟨length_eq, slot_eq⟩
  | start loop =>
    refine ⟨length_eq, fun i => (slot_eq i).trans ?_⟩
    rcases Nat.lt_or_ge i state.workers.length with lt | ge
    · rw [List.getElem?_append_left lt]
    · rw [List.getElem?_append_right ge, List.getElem?_eq_none ge]
      cases i - state.workers.length <;> rfl
  | begin workers | release workers _ | signOff workers =>
    rw [workers] at slot_eq
    exact ⟨length_eq, fun i => (slot_eq i).trans (slotAt_moved (by rfl) i).symm⟩
  | @finish front back value result workers =>
    have stands : state.workers[front.length]? = some (value, .calling result) := by simp [workers]
    have mem : (value, Stage.calling result) ∈ state.workers := List.mem_of_getElem? stands
    -- The worker stands at its index, so that it is the slot of its own place that it fills.
    have names : result.2 = (value.2, f value.2 value.1) := consistent.fits _ mem result rfl
    obtain ⟨get, index⟩ := consistent.index_eq stands
    have bounded : front.length < state.shared.2.length := by
      rw [length_eq, length]
      exact (List.getElem?_eq_some_iff.mp get).1
    refine ⟨by simpa [Job.filling] using length_eq, fun i => ?_⟩
    rw [getElem?_moved front back (value, .calling result)]
    simp only [Job.filling, names, index]
    by_cases own : i = front.length
    · subst own
      rw [if_pos rfl, List.getElem?_set_self bounded]
      rfl
    · rw [if_neg own, List.getElem?_set_ne (Ne.symm own), slot_eq i, workers]

/-- A run keeps the slots filled. -/
lemma Filled.run (filled : Filled f slots state) (length : slots.length = values.length)
    (consistent : Consistent limit values.zipIdx (fun _ => True) (Names f) state)
    (run : Run limit (job.filling f) state events next) : Filled f slots next := by
  induction run with
  | nil => exact filled
  | cons step _ ih =>
    have consistent' := consistent.step (fun now value _ => names_answer now value) (fun _ _ _ _ _ => trivial) step
    exact ih (filled.step length consistent step) consistent'

/-- When the loop has returned, the call for each value has begun and ended. -/
lemma Traced.calls_of_returned {δ τ : Type} {shows fits} {state : State τ (α × Nat) δ}
    (traced : Traced events state) (consistent : Consistent limit values.zipIdx shows fits state)
    (loop : state.loop = .returned) (i : Nat) :
    events.filter (·.isOf i) = (values[i]?).elim [] fun value => wholeCall i (value, i) := by
  rw [traced.calls_eq i, consistent.value_of_returned loop i]
  cases stands : state.workers[i]? with
  | none => rfl
  | some worker =>
    obtain ⟨⟨value, index⟩, stage⟩ := worker
    obtain ⟨result, rfl⟩ := consistent.done loop _ (List.mem_of_getElem? stands)
    obtain ⟨-, rfl⟩ := consistent.index_eq stands
    rfl

/-- Whatever the order of the steps, of the call for an index no more is seen than its beginning and its end. -/
lemma Traced.calls_prefix {δ τ : Type} {shows fits} {state : State τ (α × Nat) δ} (traced : Traced events state)
    (consistent : Consistent limit values.zipIdx shows fits state) (i : Nat) :
    events.filter (·.isOf i) <+: (values[i]?).elim [] fun value => wholeCall i (value, i) := by
  rw [traced.calls_eq i]
  cases stands : state.workers[i]? with
  | none => exact List.nil_prefix
  | some worker =>
    obtain ⟨⟨value, index⟩, stage⟩ := worker
    obtain ⟨get, rfl⟩ := consistent.index_eq stands
    rw [get, Option.elim_some, Option.elim_some]
    cases stage with
    | started => exact List.nil_prefix
    | calling => exact ⟨[.finish index], rfl⟩
    | called | released | done => exact List.prefix_rfl

/-- A worker that calls has a place. -/
lemma Traced.begun_le {δ τ : Type} {shows fits values} {state : State τ α δ} {events} (traced : Traced events state)
    (consistent : Consistent limit values shows fits state) :
    events.countP (·.isBegin) ≤ events.countP (·.isFinish) + places limit := by
  have calling : state.workers.countP (·.2.isCalling) ≤ state.workers.countP (·.2.holdsPlace) := by
    refine List.countP_mono_left fun worker _ calling => ?_
    cases stage : worker.2 with
    | started | calling | called => rfl
    | released | done => simp [stage, Stage.isCalling] at calling
  have count := traced.count_eq
  have taken := consistent.taken_eq
  have room := consistent.taken_le
  omega

/-- When the loop has returned, all slots are filled. -/
lemma Filled.slots_of_returned (filled : Filled f slots state) (length : slots.length = values.length)
    (consistent : Consistent limit values.zipIdx (fun _ => True) (Names f) state) (loop : state.loop = .returned) :
    state.shared.2 = values.mapIdx f := by
  refine List.ext_getElem? fun i => ?_
  have value := consistent.value_of_returned loop i
  rw [filled.slot_eq i, List.getElem?_mapIdx]
  cases stands : state.workers[i]? with
  | none =>
    rw [stands, Option.map_none] at value
    rw [slotAt, value, Option.map_none, List.getElem?_eq_none_iff, length]
    exact List.getElem?_eq_none_iff.mp value
  | some worker =>
    obtain ⟨result, done⟩ := consistent.done loop _ (List.mem_of_getElem? stands)
    rw [value, stands, slotAt, done]
    rfl

/-- At no moment are more calls begun and not ended than the limit allows. Of the call for an index only its
beginning, with the value of the index, and its end are ever seen, each once and in this order. When the loop has
returned, all of these have been seen and the slots hold what `f` gives for the values one after another. The loop
can always return. -/
theorem filling_each_once (limit : Int) (job : Job σ (α × Nat) β) (f : Nat → α → γ) (values : List α) (shared : σ)
    (slots : List γ) (length : slots.length = values.length) (events : List (Event (α × Nat)))
    (state : State (σ × List γ) (α × Nat) (β × Nat × γ))
    (run : Run limit (job.filling f) (.initial values.zipIdx (shared, slots)) events state) :
    events.countP (·.isBegin) ≤ events.countP (·.isFinish) + places limit ∧
    (∀ i, events.filter (·.isOf i) <+: (values[i]?).elim [] fun value => wholeCall i (value, i)) ∧
    (state.loop = .returned →
      (∀ i, events.filter (·.isOf i) = (values[i]?).elim [] fun value => wholeCall i (value, i)) ∧
      state.shared.2 = values.mapIdx f) ∧
    ∃ later last, Run limit (job.filling f) state later last ∧ last.loop = .returned := by
  have initial : Consistent limit values.zipIdx (fun _ => True) (Names f)
      (.initial values.zipIdx (shared, slots) : State (σ × List γ) (α × Nat) (β × Nat × γ)) :=
    consistent_initial trivial
  have consistent := initial.run (fun now value _ => names_answer now value) (fun _ _ _ _ _ => trivial) run
  have traced : Traced events state := (traced_initial values.zipIdx (shared, slots)).run run
  have filled : Filled f slots state := (filled_initial values.zipIdx shared).run length initial run
  refine ⟨traced.begun_le consistent, traced.calls_prefix consistent, fun loop => ⟨?_, ?_⟩, ?_⟩
  · exact traced.calls_of_returned consistent loop
  · exact filled.slots_of_returned length consistent loop
  · exact consistent.exists_run (fun now value _ => names_answer now value) (fun _ _ _ _ _ => trivial)

/-- One call overtakes another. -/
theorem filling_each_once_overtaken :
    let job : Job Unit (Nat × Nat) Unit := ⟨fun _ _ => (), fun _ _ => ()⟩
    let f : Nat → Nat → Nat := fun i value => 100 * i + value
    ∃ events state, Run 2 (job.filling f) (.initial [7, 8].zipIdx ((), [0, 0])) events state ∧
      events.filter (·.isFinish) = [.finish 1, .finish 0] ∧ state.loop = .returned ∧ state.shared.2 = [7, 108] := by
  intro job f
  have run : Run 2 (job.filling f) (.initial [7, 8].zipIdx ((), [0, 0])) _ _ :=
    .cons (.take rfl (by decide)) <| .cons (.count rfl) <| .cons (.start rfl) <|
    .cons (.take rfl (by decide)) <| .cons (.count rfl) <| .cons (.start rfl) <|
    .cons (.begin (rfl : _ = [] ++ _)) <| .cons (.begin (rfl : _ = [_] ++ _)) <|
    .cons (.finish (rfl : _ = [_] ++ _)) <| .cons (.finish (rfl : _ = [] ++ _)) <|
    .cons (.release (rfl : _ = [_] ++ _) (by decide)) <| .cons (.signOff (rfl : _ = [_] ++ _)) <|
    .cons (.release (rfl : _ = [] ++ _) (by decide)) <| .cons (.signOff (rfl : _ = [] ++ _)) <|
    .cons (.leave rfl rfl) .nil
  obtain ⟨-, -, returned, -⟩ := filling_each_once 2 job f [7, 8] () [0, 0] rfl _ _ run
  exact ⟨_, _, run, rfl, rfl, (returned rfl).2⟩

end Filling

end Sift.Workers
