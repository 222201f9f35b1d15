import Mathlib.Data.List.Basic
import Sift.Watch.Loop

/-!
# No change is lost

A change is pending from when it is received until the rules are loaded. Between its steps the loop knows of it
(`Steady`): while it has work to do there is a change pending, and while it waits for whatever comes first, a
pending change has the timer running or its tick at hand, and the tick waited for. So each reload has a change that
it is made for, and each change comes to a reload if the timer is left to run out (`loses_no_change`).
-/

namespace Sift

namespace Watcher

/-- What a watcher makes of an event depends on nothing but whether it is recursive. -/
lemma judge_fst_congr {watcher other : Watcher} (same : watcher.recursive = other.recursive) (files : FileSystem)
    (event : Event) : (watcher.judge files event).1 = (other.judge files event).1 := by
  simp only [judge, same]
  split
  · rfl
  · split
    · rfl
    · split <;> rfl

/-- Judging an event does not change how deep is watched. -/
lemma judge_recursive (watcher : Watcher) (files : FileSystem) (event : Event) :
    (watcher.judge files event).2.recursive = watcher.recursive := by
  simp only [judge]
  split
  · rfl
  · split
    · rfl
    · split <;> rfl

/-- Seeing a notice does not change how deep is watched. -/
lemma see_recursive (watcher : Watcher) (notice : FileSystem.Notice) :
    (watcher.see notice).2.recursive = watcher.recursive := by
  cases notice <;> rfl

end Watcher

namespace Reloader

/-- A change that may concern rule files was received, and the rules were not loaded since. -/
def Pending (reloader : Reloader) (events : List Event) : Prop :=
  ∃ before files event after, events = before ++ .receive files event :: after ∧
    (reloader.watcher.judge files event).1 = true ∧ ∀ files, .reload files ∉ after

/-- Whether this neither brings a change nor loads the rules. -/
def Event.isNeutral : Event → Bool
  | receive _ _ | reload _ => false
  | _ => true

section Pending

variable {first : Reloader} {events : List Event}

/-- At first nothing is pending. -/
lemma not_pending_nil : ¬ first.Pending [] := by
  rintro ⟨before, files, event, after, eq, -⟩
  exact List.append_ne_nil_of_right_ne_nil before (List.cons_ne_nil _ _) eq.symm

/-- A place in a list with one more element is the last one or lies before it. -/
lemma concat_eq_append_cons {before after here last} (eq : events ++ [last] = before ++ here :: after) :
    here = last ∧ after = [] ∨ ∃ rest, after = rest ++ [last] ∧ events = before ++ here :: rest := by
  rcases List.eq_nil_or_concat' after with rfl | ⟨rest, other, rfl⟩
  · exact .inl ⟨(List.singleton_inj.mp (List.append_inj' eq rfl).2).symm, rfl⟩
  · rw [← List.cons_append, ← List.append_assoc] at eq
    obtain ⟨front, back⟩ := List.append_inj' eq rfl
    exact .inr ⟨rest, by rw [back], front⟩

/-- A change that concerns the rules is pending. -/
lemma pending_receive {files event} (concerns : (first.watcher.judge files event).1 = true) :
    first.Pending (events ++ [.receive files event]) :=
  ⟨events, files, event, [], rfl, concerns, fun _ => List.not_mem_nil⟩

/-- A reload leaves nothing pending. -/
lemma not_pending_reload (files : FileSystem) : ¬ first.Pending (events ++ [.reload files]) := by
  rintro ⟨before, files', event, after, eq, -, none⟩
  rcases concat_eq_append_cons eq with ⟨here, -⟩ | ⟨rest, rfl, -⟩
  · cases here
  · exact none files (List.mem_append_right _ (List.mem_singleton_self _))

/-- Any other step leaves a change pending that was, and makes none so. -/
lemma pending_concat_iff {last} (kept : ∀ files, last ≠ .reload files)
    (unconcerned : ∀ files event, last = .receive files event → (first.watcher.judge files event).1 = false) :
    first.Pending (events ++ [last]) ↔ first.Pending events := by
  constructor
  · rintro ⟨before, files, event, after, eq, concerns, none⟩
    rcases concat_eq_append_cons eq with ⟨here, -⟩ | ⟨rest, rfl, rfl⟩
    · rw [unconcerned files event here.symm] at concerns
      cases concerns
    · exact ⟨before, files, event, rest, rfl, concerns, fun files mem => none files (List.mem_append_left _ mem)⟩
  · rintro ⟨before, files, event, after, rfl, concerns, none⟩
    refine ⟨before, files, event, after ++ [last], by simp, concerns, fun files mem => ?_⟩
    rcases List.mem_append.mp mem with mem | mem
    · exact none files mem
    · exact kept files (List.mem_singleton.mp mem).symm

/-- Other events change nothing about what is pending. -/
lemma pending_concat_of_isNeutral {last} (neutral : last.isNeutral = true) :
    first.Pending (events ++ [last]) = first.Pending events := by
  refine propext (pending_concat_iff ?_ ?_)
  · rintro _ rfl
    cases neutral
  · rintro _ _ rfl
    cases neutral

end Pending

end Reloader

namespace Watch.Debounce

/-- What the quiet period shows of whether there is a change to reload for. While the loop waits for whatever comes
first, it waits for a tick just when there is, and the tick is there or comes. -/
inductive Knows (pending : Prop) : Debounce → Prop where
  | selecting {timer : Option Timer} {armed : Bool} (armed_iff : armed = true ↔ pending)
      (comes : armed = true → ∃ made, timer = some made ∧ (made.running = true ∨ made.tick = true)) :
      Knows pending ⟨.selecting, timer, armed⟩
  | changed {timer : Option Timer} {armed : Bool} (waits : pending) : Knows pending ⟨.changed, timer, armed⟩
  | draining {timer : Timer} {armed : Bool} (waits : pending) : Knows pending ⟨.draining, some timer, armed⟩
  | stopped {timer : Timer} {armed : Bool} (waits : pending) : Knows pending ⟨.stopped, some timer, armed⟩
  | due {timer : Option Timer} (waits : pending) : Knows pending ⟨.due, timer, false⟩
  | ended {timer : Option Timer} {armed : Bool} : Knows pending ⟨.ended, timer, armed⟩

namespace Knows

variable {pending : Prop} {quiet : Debounce}

/-- A timer that was started anew is waited for. -/
lemma restarted {timer} (waits : pending) (running : timer.running = true) :
    Knows pending ⟨.selecting, some timer, true⟩ :=
  .selecting ⟨fun _ => waits, fun _ => rfl⟩ fun _ => ⟨timer, rfl, .inl running⟩

/-- Going on keeps what is known. -/
lemma proceed (knows : Knows pending quiet) : Knows pending quiet.proceed := by
  cases knows with
  | selecting armed_iff comes => exact .selecting armed_iff comes
  | @changed timer armed waits =>
    cases timer with
    | none => exact restarted waits rfl
    | some timer =>
      obtain ⟨running, tick⟩ := timer
      cases running with
      | false => exact .draining waits
      | true => exact .stopped waits
  | draining waits => exact .stopped waits
  | stopped waits => exact restarted waits rfl
  | due waits => exact .due waits
  | ended => exact .ended

/-- Taking a tick keeps what is known. -/
lemma take (knows : Knows pending quiet) (selecting : quiet.stage = .selecting) (ticks : quiet.ticks = true) :
    Knows pending quiet.take := by
  cases knows with
  | selecting armed_iff _ => exact .due (armed_iff.mp (Bool.and_eq_true_iff.mp ticks).1)
  | changed | draining | stopped | due | ended => cases selecting

/-- After a reload nothing needs to be known. -/
lemma resume {later : Prop} (knows : Knows pending quiet) (due : quiet.stage = .due) (none : ¬ later) :
    Knows later quiet.resume := by
  cases knows with
  | due _ => exact .selecting ⟨nofun, fun waits => absurd waits none⟩ nofun
  | selecting | changed | draining | stopped | ended => cases due

/-- The timer may run on in any stage, as long as a tick that comes is not lost. -/
lemma map_timer (knows : Knows pending quiet) {change}
    (kept : ∀ timer : Timer, timer.running = true ∨ timer.tick = true →
      (change timer).running = true ∨ (change timer).tick = true) :
    Knows pending { quiet with timer := quiet.timer.map change } := by
  cases knows with
  | selecting armed_iff comes =>
    refine .selecting armed_iff fun armed => ?_
    obtain ⟨timer, rfl, near⟩ := comes armed
    exact ⟨change timer, rfl, kept timer near⟩
  | changed waits => exact .changed waits
  | draining waits => exact .draining waits
  | stopped waits => exact .stopped waits
  | due waits => exact .due waits
  | ended => exact .ended

/-- A timer that expires keeps what is known. -/
lemma expire (knows : Knows pending quiet) : Knows pending quiet.expire := by
  refine knows.map_timer fun timer comes => ?_
  unfold Timer.expire
  split
  · exact .inr rfl
  · exact comes

/-- A late tick keeps what is known. -/
lemma delay (knows : Knows pending quiet) : Knows pending quiet.delay :=
  knows.map_timer fun _ _ => .inr rfl

end Knows

end Watch.Debounce

namespace Reloader

open Watch (Debounce)

/-- The loop is recursive as at its beginning, and knows of a pending change. -/
structure Steady (first : Reloader) (events : List Event) (reloader : Reloader) : Prop where
  recursive_eq : reloader.watcher.recursive = first.watcher.recursive
  knows : reloader.quiet.Knows (first.Pending events)

section Runs

variable {first reloader next : Reloader} {event : Event} {events : List Event}

/-- The loop begins steady. -/
lemma steady_initial (fresh : first.quiet = {}) : Steady first [] first := by
  refine ⟨rfl, ?_⟩
  rw [fresh]
  exact .selecting ⟨nofun, fun pending => absurd pending not_pending_nil⟩ nofun

/-- What neither brings a change nor loads the rules leaves pending what was. -/
lemma Steady.of_isNeutral (steady : Steady first events reloader) (neutral : event.isNeutral = true)
    (recursive : next.watcher.recursive = reloader.watcher.recursive)
    (kept : ∀ pending, reloader.quiet.Knows pending → next.quiet.Knows pending) :
    Steady first (events ++ [event]) next := by
  refine ⟨recursive.trans steady.recursive_eq, ?_⟩
  rw [pending_concat_of_isNeutral neutral]
  exact kept _ steady.knows

/-- A step keeps the loop steady. -/
lemma Steady.step (steady : Steady first events reloader) (step : Step reloader event next) :
    Steady first (events ++ [event]) next := by
  cases step with
  | @change files event selecting concerns =>
    rw [Watcher.judge_fst_congr steady.recursive_eq] at concerns
    exact ⟨(Watcher.judge_recursive _ _ _).trans steady.recursive_eq, .changed (pending_receive concerns)⟩
  | @pass files event selecting concerns =>
    rw [Watcher.judge_fst_congr steady.recursive_eq] at concerns
    refine ⟨(Watcher.judge_recursive _ _ _).trans steady.recursive_eq, ?_⟩
    have same : first.Pending (events ++ [.receive files event]) ↔ first.Pending events := by
      refine pending_concat_iff (by rintro _ ⟨⟩) ?_
      rintro _ _ ⟨⟩
      exact concerns
    rw [same]
    exact steady.knows
  | @reload files due => exact ⟨steady.recursive_eq, steady.knows.resume due (not_pending_reload files)⟩
  | leave selecting => exact ⟨steady.recursive_eq, .ended⟩
  | fault selecting => exact steady.of_isNeutral rfl rfl fun _ knows => knows
  | proceed busy => exact steady.of_isNeutral rfl rfl fun _ knows => knows.proceed
  | take selecting ticks => exact steady.of_isNeutral rfl rfl fun _ knows => knows.take selecting ticks
  | expire made running => exact steady.of_isNeutral rfl rfl fun _ knows => knows.expire
  | delay made => exact steady.of_isNeutral rfl rfl fun _ knows => knows.delay
  | notice notice => exact steady.of_isNeutral rfl (Watcher.see_recursive _ _) fun _ knows => knows

/-- A run keeps the loop steady. -/
lemma Steady.run {before} (steady : Steady first before reloader) (run : Run reloader events next) :
    Steady first (before ++ events) next := by
  induction run generalizing before with
  | nil => rwa [List.append_nil]
  | cons step _ ih =>
    rw [List.append_cons]
    exact ih (steady.step step)

/-- Each event of a run is a step of it. -/
lemma Run.exists_step {before after} (run : Run first (before ++ event :: after) reloader) :
    ∃ middle later, Run first before middle ∧ Step middle event later := by
  induction before generalizing first with
  | nil =>
    cases run with
    | cons step _ => exact ⟨first, _, .nil, step⟩
  | cons _ _ ih =>
    cases run with
    | cons step run =>
      obtain ⟨middle, later, earlier, here⟩ := ih run
      exact ⟨middle, later, .cons step earlier, here⟩

/-- Whether the loop and its timer do this by themselves. -/
def Event.isOwn : Event → Bool
  | proceed | expire | take => true
  | _ => false

/-- The loop comes to a reload if it and the timer are left alone. -/
def CanReload (reloader : Reloader) : Prop :=
  ∀ files, ∃ own last, Run reloader (own ++ [.reload files]) last ∧ ∀ event ∈ own, event.isOwn = true

/-- Before a step of its own the loop can do what it can do after it. -/
lemma CanReload.of_step (can : next.CanReload) (step : Step reloader event next) (own : event.isOwn = true) :
    reloader.CanReload := by
  intro files
  obtain ⟨later, last, run, all⟩ := can files
  exact ⟨event :: later, last, .cons step run, List.forall_mem_cons.mpr ⟨own, all⟩⟩

/-- A due reload comes. -/
lemma canReload_of_due (due : reloader.quiet.stage = .due) : reloader.CanReload := by
  intro files
  exact ⟨[], _, .cons (.reload due) .nil, List.forall_mem_nil _⟩

/-- A tick that waits is taken. -/
lemma canReload_of_ticks (selecting : reloader.quiet.stage = .selecting) (ticks : reloader.quiet.ticks = true) :
    reloader.CanReload :=
  (canReload_of_due rfl).of_step (.take selecting ticks) rfl

/-- The timer is running or has its tick ready, and the tick is waited for. -/
lemma canReload_of_armed {timer} (quiet : reloader.quiet = ⟨.selecting, some timer, true⟩)
    (comes : timer.running = true ∨ timer.tick = true) : reloader.CanReload := by
  have selecting : reloader.quiet.stage = .selecting := congrArg Debounce.stage quiet
  rcases comes with running | tick
  · have ticks : reloader.quiet.expire.ticks = true := by
      simp [quiet, Debounce.expire, Debounce.ticks, Watch.Timer.expire, running]
    refine CanReload.of_step ?_ (.expire (congrArg Debounce.timer quiet) running) rfl
    exact canReload_of_ticks selecting ticks
  · exact canReload_of_ticks selecting (by simp [quiet, Debounce.ticks, tick])

lemma canReload_of_stopped {timer armed} (quiet : reloader.quiet = ⟨.stopped, some timer, armed⟩) :
    reloader.CanReload :=
  (canReload_of_armed (congrArg Debounce.proceed quiet) (.inl rfl)).of_step (.proceed (by simp [quiet])) rfl

lemma canReload_of_draining {timer armed} (quiet : reloader.quiet = ⟨.draining, some timer, armed⟩) :
    reloader.CanReload :=
  (canReload_of_stopped (congrArg Debounce.proceed quiet)).of_step (.proceed (by simp [quiet])) rfl

/-- A change that was noted leads to a reload. -/
lemma canReload_of_changed {timer armed} (quiet : reloader.quiet = ⟨.changed, timer, armed⟩) : reloader.CanReload := by
  refine CanReload.of_step ?_ (.proceed (by simp [quiet])) rfl
  cases timer with
  | none => exact canReload_of_armed (congrArg Debounce.proceed quiet) (.inl rfl)
  | some timer =>
    obtain ⟨running, tick⟩ := timer
    cases running with
    | false => exact canReload_of_draining (congrArg Debounce.proceed quiet)
    | true => exact canReload_of_stopped (congrArg Debounce.proceed quiet)

/-- A steady loop with something pending can reload. -/
lemma Steady.canReload (steady : Steady first events reloader) (open_ : reloader.quiet.stage ≠ .ended)
    (pending : first.Pending events) : reloader.CanReload := by
  have knows := steady.knows
  generalize quiet : reloader.quiet = now at knows open_
  cases knows with
  | selecting armed_iff comes =>
    obtain rfl := armed_iff.mpr pending
    obtain ⟨timer, rfl, near⟩ := comes rfl
    exact canReload_of_armed quiet near
  | changed waits => exact canReload_of_changed quiet
  | draining waits => exact canReload_of_draining quiet
  | stopped waits => exact canReload_of_stopped quiet
  | due waits => exact canReload_of_due (by rw [quiet])
  | ended => exact absurd rfl open_

/-! ## The loop as it is followed

`Reloader.follow` lets each change be seen through before the next one comes, and the timer run out behind the last
one. It is one of the runs of the loop.
-/

/-- Runs follow each other. -/
lemma Run.append {middle later} (run : Run reloader events middle) (run' : Run middle later next) :
    Run reloader (events ++ later) next := by
  induction run with
  | nil => exact run'
  | cons step _ ih => exact .cons step (ih run')

/-- A run without a reload leads there. -/
def Leads (reloader next : Reloader) : Prop := ∃ events, Run reloader events next ∧ ∀ files, .reload files ∉ events

lemma Leads.trans {middle} (leads : reloader.Leads middle) (leads' : middle.Leads next) :
    reloader.Leads next := by
  obtain ⟨events, run, none⟩ := leads
  obtain ⟨later, run', none'⟩ := leads'
  refine ⟨events ++ later, run.append run', fun files mem => ?_⟩
  exact (List.mem_append.mp mem).elim (none files) (none' files)

lemma leads_self : reloader.Leads reloader := ⟨[], .nil, fun _ => List.not_mem_nil⟩

/-- A step other than a reload leads on. -/
lemma leads_step (step : Step reloader event next) (other : ∀ files, event ≠ .reload files) : reloader.Leads next :=
  ⟨[event], .cons step .nil, fun files mem => other files (List.mem_singleton.mp mem).symm⟩

/-- Where there is nothing to go on with, the loop stays where it is. -/
lemma leads_proceed (reloader : Reloader) : reloader.Leads { reloader with quiet := reloader.quiet.proceed } := by
  by_cases busy : reloader.quiet.stage ∈ [.changed, .draining, .stopped]
  · exact leads_step (.proceed busy) (by rintro _ ⟨⟩)
  · have same : reloader.quiet.proceed = reloader.quiet := by
      simp only [List.mem_cons, List.not_mem_nil, or_false, not_or] at busy
      simp [Debounce.proceed, busy]
    rw [same]
    exact leads_self

lemma stage_changes {quiet : Debounce} (selecting : quiet.stage = .selecting) (count : Nat) :
    (quiet.changes count).stage = .selecting := by
  induction count generalizing quiet with
  | zero => exact selecting
  | succ count ih =>
    refine ih ?_
    obtain ⟨stage, timer, armed⟩ := quiet
    cases timer with
    | none => rfl
    | some timer =>
      obtain ⟨running, tick⟩ := timer
      cases running <;> rfl

/-- Changes come one after the other. -/
lemma changes_add (quiet : Debounce) (count more : Nat) :
    quiet.changes (count + more) = (quiet.changes count).changes more := by
  induction count generalizing quiet with
  | zero => rw [Nat.zero_add, Debounce.changes]
  | succ count ih => rw [Nat.succ_add, Debounce.changes, Debounce.changes, ih]

/-- The loop can take an event in. -/
lemma leads_judge (selecting : reloader.quiet.stage = .selecting) (files : FileSystem) (event : Watcher.Event) :
    reloader.Leads { reloader with
      watcher := (reloader.watcher.judge files event).2
      quiet := reloader.quiet.changes (if (reloader.watcher.judge files event).1 then 1 else 0) } := by
  by_cases concerns : (reloader.watcher.judge files event).1 = true
  · rw [if_pos concerns]
    refine (leads_step (.change selecting concerns) (by rintro _ ⟨⟩)).trans ?_
    exact ((leads_proceed _).trans (leads_proceed _)).trans (leads_proceed _)
  · rw [if_neg concerns]
    exact leads_step (.pass selecting (by simpa using concerns)) (by rintro _ ⟨⟩)

/-- The loop can take events in, one after the other. -/
lemma leads_judgeAll (files : FileSystem) (seen : List Watcher.Event) (selecting : reloader.quiet.stage = .selecting) :
    reloader.Leads { reloader with
      watcher := (reloader.watcher.judgeAll files seen).2
      quiet := reloader.quiet.changes (reloader.watcher.judgeAll files seen).1 } := by
  induction seen generalizing reloader with
  | nil => exact leads_self
  | cons event rest ih =>
    have first := leads_judge selecting files event
    have later := first.trans (ih (stage_changes selecting _))
    rw [← changes_add] at later
    have count : ∀ more, (if (reloader.watcher.judge files event).1 then 1 else 0) + more =
        if (reloader.watcher.judge files event).1 then more + 1 else more := by grind
    rw [count] at later
    exact later

/-- The loop can take notices in, one after the other. -/
lemma leads_notices (files : FileSystem) (notices : List FileSystem.Notice)
    (selecting : reloader.quiet.stage = .selecting) :
    reloader.Leads { reloader with
      watcher := (reloader.watcher.follow files notices).2
      quiet := reloader.quiet.changes (reloader.watcher.follow files notices).1 } := by
  induction notices generalizing reloader with
  | nil => exact leads_self
  | cons notice rest ih =>
    have seen : reloader.Leads _ := leads_step (.notice notice) (by rintro _ ⟨⟩)
    have judged := seen.trans (leads_judgeAll files (reloader.watcher.see notice).1 selecting)
    have later := judged.trans (ih (stage_changes selecting _))
    rw [← changes_add] at later
    exact later

/-- Where the timer is not running, time has nothing to run out for. -/
lemma leads_expire (reloader : Reloader) : reloader.Leads { reloader with quiet := reloader.quiet.expire } := by
  obtain ⟨watcher, processor, corpus, settings, ⟨stage, timer, armed⟩, fault⟩ := reloader
  cases timer with
  | none => exact leads_self
  | some timer =>
    obtain ⟨running, tick⟩ := timer
    cases running with
    | false => exact leads_self
    | true => exact leads_step (.expire rfl rfl) (by rintro _ ⟨⟩)

/-- Following a change is a run of the loop, and it loads the rules if the run does. -/
lemma exists_run_follow (selecting : reloader.quiet.stage = .selecting) (files : FileSystem)
    (change : FileSystem.Change) :
    ∃ events, Run reloader events (reloader.follow files change).2.2 ∧
      ((reloader.follow files change).2.1 = true ↔ ∃ files, .reload files ∈ events) ∧
      (reloader.follow files change).2.2.quiet.stage = .selecting := by
  generalize applied : change.apply files = made
  obtain ⟨files, notices⟩ := made
  have leads := (leads_notices files notices selecting).trans (leads_expire _)
  have stage := stage_changes selecting (reloader.watcher.follow files notices).1
  obtain ⟨events, run, none⟩ := leads
  rw [follow, applied]
  dsimp only
  split
  · rename_i ticks
    refine ⟨events ++ [.take, .reload files],
      run.append (.cons (.take stage ticks) (.cons (.reload rfl) .nil)), ?_, rfl⟩
    simp
  · exact ⟨events, run, by simp [none], stage⟩

/-- Whenever the loop waits for whatever comes first and a change is pending, it waits for a tick and the timer is
running or has its tick ready. Each reload is made for a change that was pending. Unless the loop has ended, a
pending change comes to a reload by the steps of the loop and the timer alone. -/
theorem loses_no_change (first : Reloader) (fresh : first.quiet = {}) (events : List Event) (reloader : Reloader)
    (run : Run first events reloader) :
    (reloader.quiet.stage = .selecting → first.Pending events →
      reloader.quiet.armed = true ∧
        ∃ timer, reloader.quiet.timer = some timer ∧ (timer.running = true ∨ timer.tick = true)) ∧
    (∀ before files after, events = before ++ .reload files :: after → first.Pending before) ∧
    (reloader.quiet.stage ≠ .ended → first.Pending events → reloader.CanReload) := by
  have steady : Steady first events reloader := (steady_initial fresh).run run
  refine ⟨fun selecting pending => ?_, ?_, steady.canReload⟩
  · have knows := steady.knows
    generalize reloader.quiet = quiet at knows selecting
    cases knows with
    | selecting armed_iff comes => exact ⟨armed_iff.mpr pending, comes (armed_iff.mpr pending)⟩
    | changed | draining | stopped | due | ended => cases selecting
  · rintro before files after rfl
    obtain ⟨middle, later, earlier, step⟩ := run.exists_step
    have knows := ((steady_initial fresh).run earlier).knows
    cases step with
    | reload due =>
      generalize middle.quiet = quiet at knows due
      cases knows with
      | due waits => exact waits
      | selecting | changed | draining | stopped | ended => cases due

/-- A second change may be received while the tick of the first waits, and another tick come behind the drain. -/
lemma exists_run_late_tick (fresh : first.quiet = {}) {files event}
    (concerns : (first.watcher.judge files event).1 = true) :
    ∃ events reloader, Run first events reloader ∧ .delay ∈ events ∧ first.Pending events ∧
      reloader.quiet = ⟨.selecting, some ⟨true, true⟩, true⟩ := by
  obtain ⟨watcher, processor, corpus, settings, quiet, fault⟩ := first
  obtain rfl : quiet = {} := fresh
  have again : ((watcher.judge files event).2.judge files event).1 = true :=
    (Watcher.judge_fst_congr (Watcher.judge_recursive _ _ _) files event).trans concerns
  refine ⟨[.receive files event, .proceed, .expire, .receive files event, .proceed, .proceed, .delay, .proceed], _,
    .cons (.change rfl concerns) <| .cons (.proceed (.head _)) <| .cons (.expire rfl rfl) <|
    .cons (.change rfl again) <| .cons (.proceed (.head _)) <| .cons (.proceed (.tail _ (.head _))) <|
    .cons (.delay rfl) <| .cons (.proceed (.tail _ (.tail _ (.head _)))) .nil, by simp, ?_, rfl⟩
  exact ⟨[], files, event, _, rfl, concerns, by simp⟩

/-- A tick comes late, and the change is not lost. -/
theorem loses_no_change_with_late_tick :
    let first : Reloader :=
      { watcher := { recursive := false }, processor := .ofRules none false .builtIn, corpus := none, settings := {} }
    ∃ events reloader, Run first events reloader ∧ .delay ∈ events ∧ first.Pending events ∧
      reloader.quiet = ⟨.selecting, some ⟨true, true⟩, true⟩ ∧ reloader.CanReload := by
  intro first
  have concerns : (first.watcher.judge ⟨.dir [], "/"⟩ ⟨"rules/a.json", [.chmod, .written]⟩).1 = true := by decide +kernel
  obtain ⟨events, reloader, run, late, pending, quiet⟩ := exists_run_late_tick (rfl : first.quiet = {}) concerns
  obtain ⟨-, -, can⟩ := loses_no_change first rfl events reloader run
  exact ⟨events, reloader, run, late, pending, quiet, can (by simp [quiet]) pending⟩

end Runs

end Reloader

end Sift
