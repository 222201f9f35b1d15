import Mathlib.Data.List.Basic
import Sift.Workers

/-!
# What bounded work comes to

In every state that a run reaches, the places taken and the workers waited for are those that the stages of
the workers show (`Workers.Consistent`). So no state but the last is stuck (`Consistent.exists_step`), and since
every step brings the end nearer, the loop can always return (`Consistent.exists_run`). What the calls come to
then fits the values one by one, whatever the order of the steps was (`Returns.forall₂`).
-/

namespace Sift.Workers

variable {σ α β : Type}

namespace Loop

/-- The values that no worker was started for. -/
def ahead : Loop α → List α
  | ready rest => rest
  | admitted value rest => value :: rest
  | counted value rest => value :: rest
  | returned => []

/-- The places that the loop has itself. -/
def held : Loop α → Nat
  | admitted _ _ => 1
  | counted _ _ => 1
  | _ => 0

/-- The workers that the loop has counted and not yet started. -/
def unstarted : Loop α → Nat
  | counted _ _ => 1
  | _ => 0

end Loop

/-- What holds between the steps: `shows` of what is shared and `fits` of what a call for a value came to. -/
structure Consistent (limit : Int) (values : List α) (shows : σ → Prop) (fits : α → β → Prop)
    (state : State σ α β) : Prop where
  values_eq : state.workers.map (·.1) ++ state.loop.ahead = values
  taken_eq : state.taken = state.workers.countP (·.2.holdsPlace) + state.loop.held
  taken_le : state.taken ≤ places limit
  awaited_eq : state.awaited = state.workers.countP (·.2.isAwaited) + state.loop.unstarted
  ended : state.loop = .returned → state.awaited = 0
  shows : shows state.shared
  fits : ∀ worker ∈ state.workers, ∀ result ∈ worker.2.result?, fits worker.1 result

section Runs

variable {limit : Int} {job : Job σ α β} {values : List α} {shows : σ → Prop} {fits : α → β → Prop}
  {state next : State σ α β} {event : Event α}

lemma places_pos (limit : Int) : 0 < places limit := by
  unfold places
  split
  · exact Nat.one_pos
  · omega

lemma consistent_initial {shared} (first : shows shared) :
    Consistent limit values shows fits (.initial values shared : State σ α β) where
  values_eq := rfl
  taken_eq := rfl
  taken_le := Nat.zero_le _
  awaited_eq := rfl
  ended := by rintro ⟨⟩
  shows := first
  fits := List.forall_mem_nil _

/-- One worker moves on, and the others stay where they are. -/
lemma fits_moved {front back value} {stage stage' : Stage β}
    (all : ∀ worker ∈ front ++ (value, stage) :: back, ∀ result ∈ worker.2.result?, fits worker.1 result)
    (moved : ∀ result ∈ stage'.result?, fits value result) :
    ∀ worker ∈ front ++ (value, stage') :: back, ∀ result ∈ worker.2.result?, fits worker.1 result := by
  rw [List.forall_mem_append, List.forall_mem_cons] at all ⊢
  exact ⟨all.1, moved, all.2.2⟩

/-- A step keeps the state consistent. -/
lemma Consistent.step (consistent : Consistent limit values shows fits state)
    (answers : ∀ shared value, shows shared → fits value (job.answer shared value))
    (keeps : ∀ shared value result, shows shared → fits value result → shows (job.keep shared result))
    (step : Step limit job state event next) : Consistent limit values shows fits next := by
  obtain ⟨values_eq, taken_eq, taken_le, awaited_eq, ended, shown, fitting⟩ := consistent
  cases step with
  | take loop room =>
    rw [loop] at values_eq taken_eq awaited_eq
    exact ⟨values_eq, by simpa [Loop.held] using taken_eq, room, awaited_eq, (by rintro ⟨⟩), shown, fitting⟩
  | count loop =>
    rw [loop] at values_eq taken_eq awaited_eq
    exact ⟨values_eq, taken_eq, taken_le, by simpa [Loop.unstarted] using awaited_eq, (by rintro ⟨⟩), shown,
      fitting⟩
  | start loop =>
    rw [loop] at values_eq taken_eq awaited_eq
    refine ⟨?_, ?_, taken_le, ?_, (by rintro ⟨⟩), shown, ?_⟩
    · simpa [Loop.ahead] using values_eq
    · simpa [Loop.held, Stage.holdsPlace] using taken_eq
    · simpa [Loop.unstarted, Stage.isAwaited] using awaited_eq
    · refine List.forall_mem_append.mpr ⟨fitting, List.forall_mem_singleton.mpr ?_⟩
      exact fun result mem => nomatch mem
  | begin workers =>
    rw [workers] at values_eq taken_eq awaited_eq fitting
    refine ⟨by simpa using values_eq, ?_, taken_le, ?_, ended, shown, fits_moved fitting ?_⟩
    · simpa [Stage.holdsPlace] using taken_eq
    · simpa [Stage.isAwaited] using awaited_eq
    · rintro result ⟨⟩
      exact answers _ _ shown
  | @finish _ _ value result workers =>
    rw [workers] at values_eq taken_eq awaited_eq fitting
    have fit : fits value result := fitting _ (List.mem_append_right _ List.mem_cons_self) result rfl
    refine ⟨by simpa using values_eq, ?_, taken_le, ?_, ended, keeps _ _ _ shown fit, fits_moved fitting ?_⟩
    · simpa [Stage.holdsPlace] using taken_eq
    · simpa [Stage.isAwaited] using awaited_eq
    · rintro result ⟨⟩
      exact fit
  | @release _ _ value result workers some =>
    rw [workers] at values_eq taken_eq awaited_eq fitting
    have fit : fits value result := fitting _ (List.mem_append_right _ List.mem_cons_self) result rfl
    refine ⟨by simpa using values_eq, ?_, Nat.le_trans (Nat.sub_le _ _) taken_le, ?_, ended, shown,
      fits_moved fitting ?_⟩
    · simp only [List.countP_append, List.countP_cons, Stage.holdsPlace] at taken_eq ⊢
      grind
    · simpa [Stage.isAwaited] using awaited_eq
    · rintro result ⟨⟩
      exact fit
  | @signOff _ _ value result workers =>
    rw [workers] at values_eq taken_eq awaited_eq fitting
    have fit : fits value result := fitting _ (List.mem_append_right _ List.mem_cons_self) result rfl
    refine ⟨by simpa using values_eq, ?_, taken_le, ?_, ?_, shown, fits_moved fitting ?_⟩
    · simpa [Stage.holdsPlace] using taken_eq
    · simp only [List.countP_append, List.countP_cons, Stage.isAwaited] at awaited_eq ⊢
      grind
    · intro loop
      simp [ended loop]
    · rintro result ⟨⟩
      exact fit
  | leave loop none =>
    rw [loop] at values_eq taken_eq awaited_eq
    exact ⟨values_eq, taken_eq, taken_le, awaited_eq, fun _ => none, shown, fitting⟩

/-- A run keeps the state consistent. -/
lemma Consistent.run (consistent : Consistent limit values shows fits state)
    (answers : ∀ shared value, shows shared → fits value (job.answer shared value))
    (keeps : ∀ shared value result, shows shared → fits value result → shows (job.keep shared result)) {events}
    (run : Run limit job state events next) :
    Consistent limit values shows fits next := by
  induction run with
  | nil => exact consistent
  | cons step _ ih => exact ih (consistent.step answers keeps step)

/-- When the loop has returned, all workers are done. -/
lemma Consistent.done (consistent : Consistent limit values shows fits state) (loop : state.loop = .returned) :
    ∀ worker ∈ state.workers, ∃ result, worker.2 = .done result := by
  have awaited := consistent.awaited_eq
  rw [consistent.ended loop, loop] at awaited
  have none : ∀ worker ∈ state.workers, ¬ worker.2.isAwaited = true := List.countP_eq_zero.mp awaited.symm
  intro worker mem
  have done := none worker mem
  cases stage : worker.2 with
  | done result => exact ⟨result, rfl⟩
  | started | calling _ | called _ | released _ =>
    rw [stage] at done
    exact absurd rfl done

/-- Unless it has returned, the loop or one of the workers can take a step. -/
lemma Consistent.exists_step (consistent : Consistent limit values shows fits state)
    (loop : state.loop ≠ .returned) (job : Job σ α β) : ∃ event next, Step limit job state event next := by
  by_cases busy : ∃ worker ∈ state.workers, worker.2.isAwaited = true
  · obtain ⟨⟨value, stage⟩, mem, awaited⟩ := busy
    obtain ⟨front, back, workers⟩ := List.append_of_mem mem
    cases stage with
    | started => exact ⟨_, _, .begin workers⟩
    | calling result => exact ⟨_, _, .finish workers⟩
    | called result =>
      have taken := consistent.taken_eq
      have holds : 0 < state.workers.countP (·.2.holdsPlace) := List.countP_pos_iff.mpr ⟨_, mem, rfl⟩
      exact ⟨_, _, .release workers (by omega)⟩
    | released result => exact ⟨_, _, .signOff workers⟩
    | done result => cases awaited
  · -- No worker is left: then no place is taken by one, and nothing is waited for.
    have awaited : state.workers.countP (·.2.isAwaited) = 0 :=
      List.countP_eq_zero.mpr fun worker mem awaited => busy ⟨worker, mem, awaited⟩
    have holding : state.workers.countP (·.2.holdsPlace) = 0 := by
      refine List.countP_eq_zero.mpr fun worker mem holds => busy ⟨worker, mem, ?_⟩
      cases stage : worker.2 with
      | started | calling _ | called _ | released _ => rfl
      | done result =>
        rw [stage] at holds
        cases holds
    cases stands : state.loop with
    | ready rest =>
      have taken := consistent.taken_eq
      have waited := consistent.awaited_eq
      rw [stands, holding] at taken
      rw [stands, awaited] at waited
      cases rest with
      | nil => exact ⟨_, _, .leave stands waited⟩
      | cons value rest => exact ⟨_, _, .take stands (taken ▸ places_pos limit)⟩
    | admitted value rest => exact ⟨_, _, .count stands⟩
    | counted value rest => exact ⟨_, _, .start stands⟩
    | returned => exact absurd stands loop

/-- The steps that a worker has yet to take. -/
def Stage.ahead : Stage β → Nat
  | started => 4
  | calling _ => 3
  | called _ => 2
  | released _ => 1
  | done _ => 0

/-- The steps that the loop and the workers it has not started yet have to take. -/
def Loop.steps : Loop α → Nat
  | ready rest => 7 * rest.length + 1
  | admitted _ rest => 7 * rest.length + 7
  | counted _ rest => 7 * rest.length + 6
  | returned => 0

/-- The steps that workers have yet to take. -/
def stepsOf : List (α × Stage β) → Nat
  | [] => 0
  | worker :: rest => worker.2.ahead + stepsOf rest

lemma stepsOf_append (front back : List (α × Stage β)) : stepsOf (front ++ back) = stepsOf front + stepsOf back := by
  induction front with
  | nil => rw [List.nil_append, stepsOf, Nat.zero_add]
  | cons worker rest ih => rw [List.cons_append, stepsOf, ih, stepsOf, Nat.add_assoc]

/-- The steps to the end. -/
def State.steps (state : State σ α β) : Nat := state.loop.steps + stepsOf state.workers

/-- Each step is one of those to the end. -/
lemma Step.steps_eq (step : Step limit job state event next) : state.steps = next.steps + 1 := by
  cases step with
  | take loop _ | count loop | leave loop _ =>
    simp only [State.steps, loop, Loop.steps, List.length_cons, List.length_nil]
    omega
  | start loop =>
    simp only [State.steps, loop, Loop.steps, stepsOf_append, stepsOf, Stage.ahead]
    omega
  | begin workers | finish workers | release workers _ | signOff workers =>
    simp only [State.steps, workers, stepsOf_append, stepsOf, Stage.ahead]
    omega

/-- The loop can return from every state that a run reaches. -/
lemma Consistent.exists_run (consistent : Consistent limit values shows fits state)
    (answers : ∀ shared value, shows shared → fits value (job.answer shared value))
    (keeps : ∀ shared value result, shows shared → fits value result → shows (job.keep shared result)) :
    ∃ events last, Run limit job state events last ∧ last.loop = .returned := by
  induction left : state.steps generalizing state with
  | zero =>
    refine ⟨[], state, .nil, ?_⟩
    by_contra loop
    obtain ⟨event, next, step⟩ := consistent.exists_step loop job
    have := step.steps_eq
    omega
  | succ n ih =>
    by_cases loop : state.loop = .returned
    · exact ⟨[], state, .nil, loop⟩
    · obtain ⟨event, next, step⟩ := consistent.exists_step loop job
      have fewer : next.steps = n := by
        have := step.steps_eq
        omega
      obtain ⟨events, last, run, returned⟩ := ih (consistent.step answers keeps step) fewer
      exact ⟨event :: events, last, .cons step run, returned⟩

section Results

variable {workers : List (α × Stage β)}

lemma forall₂_of_result? (fitting : ∀ worker ∈ workers, ∀ result ∈ worker.2.result?, fits worker.1 result) {results}
    (eq : workers.map (·.2.result?) = results.map some) :
    List.Forall₂ fits (workers.map (·.1)) results := by
  induction workers generalizing results with
  | nil =>
    obtain rfl := List.map_eq_nil_iff.mp eq.symm
    exact .nil
  | cons worker rest ih =>
    obtain ⟨result, results, rfl, first, others⟩ := List.map_eq_cons_iff.mp eq.symm
    obtain ⟨fit, fitting⟩ := List.forall_mem_cons.mp fitting
    exact .cons (fit result first.symm) (ih fitting others.symm)

lemma exists_results (done : ∀ worker ∈ workers, ∃ result, worker.2 = .done result) :
    ∃ results : List β, workers.map (·.2.result?) = results.map some := by
  induction workers with
  | nil => exact ⟨[], rfl⟩
  | cons worker rest ih =>
    obtain ⟨⟨result, first⟩, others⟩ := List.forall_mem_cons.mp done
    obtain ⟨results, eq⟩ := ih others
    exact ⟨result :: results, by rw [List.map_cons, eq, first]; rfl⟩

end Results

variable {shared : σ} (first : shows shared)
  (answers : ∀ shared value, shows shared → fits value (job.answer shared value))
  (keeps : ∀ shared value result, shows shared → fits value result → shows (job.keep shared result))
include first answers keeps

/-- In every order of the steps, the results fit the values one by one. -/
lemma Returns.forall₂ {results} (returns : Returns limit job values shared results) :
    List.Forall₂ fits values results := by
  obtain ⟨events, state, run, loop, eq⟩ := returns
  have consistent := (consistent_initial first).run answers keeps run
  have values_eq := consistent.values_eq
  rw [loop, Loop.ahead, List.append_nil] at values_eq
  exact values_eq ▸ forall₂_of_result? consistent.fits eq

/-- The loop can return for every limit. -/
lemma exists_returns (limit : Int) (values : List α) : ∃ results, Returns limit job values shared results := by
  have initial : Consistent limit values shows fits (.initial values shared : State σ α β) :=
    consistent_initial first
  obtain ⟨events, state, run, loop⟩ := initial.exists_run answers keeps
  obtain ⟨results, eq⟩ := exists_results ((initial.run answers keeps run).done loop)
  exact ⟨results, events, state, run, loop, eq⟩

end Runs

end Sift.Workers
