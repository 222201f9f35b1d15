/-!
# Bounded work

A loop starts a worker for each of some values and returns when all of them are done. Before it starts a
worker it takes one of a limited number of places, which the worker gives back when its call has ended. The
steps of the loop and of the workers come in any order that the places and the count of workers allow.
-/

namespace Sift.Workers

/-- What is called for each value, with what all calls share. -/
structure Job (σ α β : Type) where
  /-- What a call comes to, by what it finds shared when it begins. -/
  answer : σ → α → β
  /-- What is shared once a call has left there what it came to. -/
  keep : σ → β → σ

/-- The number of places for a limit; there always is one. -/
def places (limit : Int) : Nat := if limit ≤ 0 then 1 else limit.toNat

/-- How far a worker has come. -/
inductive Stage (β : Type) where
  | started
  | calling (result : β)
  | called (result : β)
  /-- The place is given back. -/
  | released (result : β)
  | done (result : β)

namespace Stage

/-- What the call of a worker comes to. -/
def result? {β : Type} : Stage β → Option β
  | started => none
  | calling result => some result
  | called result => some result
  | released result => some result
  | done result => some result

/-- Whether a worker has a place. -/
def holdsPlace {β : Type} : Stage β → Bool
  | started => true
  | calling _ => true
  | called _ => true
  | released _ => false
  | done _ => false

/-- Whether a worker is waited for. -/
def isAwaited {β : Type} : Stage β → Bool
  | done _ => false
  | _ => true

end Stage

/-- Where the loop stands. -/
inductive Loop (α : Type) where
  /-- About to take a place for the next value, or to wait if there is none. -/
  | ready (rest : List α)
  /-- With a place for a value. -/
  | admitted (value : α) (rest : List α)
  /-- With a place for a value whose worker is counted. -/
  | counted (value : α) (rest : List α)
  | returned

/-- The loop, its workers in the order of their values, the places taken, the number of workers that are
waited for, and what the calls share. -/
structure State (σ α β : Type) where
  loop : Loop α
  workers : List (α × Stage β) := []
  taken : Nat := 0
  awaited : Nat := 0
  shared : σ

/-- What happens in a step. A worker is named by its place in their order. -/
inductive Event (α : Type) where
  | take
  | count
  | start
  | begin (worker : Nat) (value : α)
  | finish (worker : Nat)
  | release (worker : Nat)
  | signOff (worker : Nat)
  | leave

section Run

variable {σ α β : Type} (limit : Int) (job : Job σ α β)

/-- A step of the loop or of one of the workers. -/
inductive Step : State σ α β → Event α → State σ α β → Prop where
  | take {state : State σ α β} {value : α} {rest : List α} (loop : state.loop = .ready (value :: rest))
      (room : state.taken < places limit) :
      Step state .take { state with loop := .admitted value rest, taken := state.taken + 1 }
  | count {state : State σ α β} {value : α} {rest : List α} (loop : state.loop = .admitted value rest) :
      Step state .count { state with loop := .counted value rest, awaited := state.awaited + 1 }
  | start {state : State σ α β} {value : α} {rest : List α} (loop : state.loop = .counted value rest) :
      Step state .start { state with loop := .ready rest, workers := state.workers ++ [(value, .started)] }
  | begin {state : State σ α β} {front back : List (α × Stage β)} {value : α}
      (workers : state.workers = front ++ (value, .started) :: back) :
      Step state (.begin front.length value)
        { state with workers := front ++ (value, .calling (job.answer state.shared value)) :: back }
  | finish {state : State σ α β} {front back : List (α × Stage β)} {value : α} {result : β}
      (workers : state.workers = front ++ (value, .calling result) :: back) :
      Step state (.finish front.length)
        { state with workers := front ++ (value, .called result) :: back, shared := job.keep state.shared result }
  | release {state : State σ α β} {front back : List (α × Stage β)} {value : α} {result : β}
      (workers : state.workers = front ++ (value, .called result) :: back) (some : 0 < state.taken) :
      Step state (.release front.length)
        { state with workers := front ++ (value, .released result) :: back, taken := state.taken - 1 }
  | signOff {state : State σ α β} {front back : List (α × Stage β)} {value : α} {result : β}
      (workers : state.workers = front ++ (value, .released result) :: back) :
      Step state (.signOff front.length)
        { state with workers := front ++ (value, .done result) :: back, awaited := state.awaited - 1 }
  | leave {state : State σ α β} (loop : state.loop = .ready []) (none : state.awaited = 0) :
      Step state .leave { state with loop := .returned }

/-- Steps one after another. -/
inductive Run : State σ α β → List (Event α) → State σ α β → Prop where
  | nil {state : State σ α β} : Run state [] state
  | cons {state next last : State σ α β} {event : Event α} {events : List (Event α)}
      (step : Step limit job state event next) (run : Run next events last) : Run state (event :: events) last

/-- Before the first value. -/
def State.initial (values : List α) (shared : σ) : State σ α β := { loop := .ready values, shared }

/-- The loop returns, and this is what the calls came to, in the order of the values. -/
def Returns (values : List α) (shared : σ) (results : List β) : Prop :=
  ∃ events state, Run limit job (.initial values shared) events state ∧ state.loop = .returned ∧
    state.workers.map (·.2.result?) = results.map some

end Run

end Sift.Workers
