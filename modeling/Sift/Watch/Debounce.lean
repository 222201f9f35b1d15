/-!
# The quiet period

Changes often come in bursts. A timer is started anew at every change, and only when it has run out does anything
happen. The timer runs on its own and leaves a tick to be taken when it has run out. A tick may also come late,
after the timer was stopped or started anew.
-/

namespace Sift.Watch

/-- The timer of the quiet period. -/
structure Timer where
  running : Bool
  /-- A tick waits to be taken. -/
  tick : Bool
  deriving DecidableEq, Repr

namespace Timer

/-- A timer that has just been made. -/
def fresh : Timer := ⟨true, false⟩

/-- Time runs out. -/
def expire (timer : Timer) : Timer := if timer.running then ⟨false, true⟩ else timer

/-- A late tick comes. There is room for one tick only. -/
def delay (timer : Timer) : Timer := { timer with tick := true }

/-- Stops the timer, and whether it was running. -/
def stop (timer : Timer) : Bool × Timer := (timer.running, { timer with running := false })

/-- Takes the tick if there is one. -/
def drain (timer : Timer) : Timer := { timer with tick := false }

/-- Starts the timer anew. A tick that waits is left there. -/
def restart (timer : Timer) : Timer := { timer with running := true }

end Timer

/-- Where a loop with a quiet period stands. -/
inductive Stage where
  /-- It waits for whatever comes first. -/
  | selecting
  /-- A change has come, and the timer is to be started anew. -/
  | changed
  /-- The timer was not running when it was stopped, so that its tick may wait. -/
  | draining
  /-- The timer is stopped. -/
  | stopped
  /-- The tick was taken, and it is time to reload. -/
  | due
  | ended
  deriving DecidableEq, Repr

/-- The state of the quiet period. -/
structure Debounce where
  stage : Stage := .selecting
  /-- There is no timer before the first change. -/
  timer : Option Timer := none
  /-- Whether the tick of the timer is waited for. -/
  armed : Bool := false
  deriving DecidableEq, Repr

namespace Debounce

/-- A change comes. -/
def change (quiet : Debounce) : Debounce := { quiet with stage := .changed }

/-- The next step of the loop on its way to start the timer anew. -/
def proceed (quiet : Debounce) : Debounce :=
  match quiet.stage, quiet.timer with
  | .changed, none => ⟨.selecting, some .fresh, true⟩
  | .changed, some timer =>
    let (wasRunning, timer) := timer.stop
    { quiet with stage := if wasRunning then .stopped else .draining, timer := some timer }
  | .draining, some timer => { quiet with stage := .stopped, timer := some timer.drain }
  | .stopped, some timer => ⟨.selecting, some timer.restart, true⟩
  | _, _ => quiet

/-- Time runs out. -/
def expire (quiet : Debounce) : Debounce := { quiet with timer := quiet.timer.map Timer.expire }

/-- A late tick comes. -/
def delay (quiet : Debounce) : Debounce := { quiet with timer := quiet.timer.map Timer.delay }

/-- Whether there is a tick that is waited for. -/
def ticks (quiet : Debounce) : Bool := quiet.armed && quiet.timer.any (·.tick)

/-- The tick is taken, and none is waited for until the next change. -/
def take (quiet : Debounce) : Debounce := ⟨.due, quiet.timer.map Timer.drain, false⟩

/-- The reload is made. -/
def resume (quiet : Debounce) : Debounce := { quiet with stage := .selecting }

/-- The loop ends. -/
def leave (quiet : Debounce) : Debounce :=
  { quiet with stage := .ended, timer := quiet.timer.map fun timer => timer.stop.2 }

/-- A number of changes, each seen through before the next one comes. -/
def changes : Nat → Debounce → Debounce
  | 0, quiet => quiet
  | count + 1, quiet => changes count quiet.change.proceed.proceed.proceed

end Debounce

end Sift.Watch
