/-!
# Publishing values

Values are kept in cells, and one pointer leads to the cell of the value in force. A call that modifies the value
loads the pointer, looks at the value there, puts the one it makes into a cell of its own, and swaps the pointer
for one to that cell if the pointer is still what it was; if not, it begins anew. A call that replaces the value
makes the new one without a look at the old and stores the pointer to it. A reader loads the pointer and looks at
what it leads to as often as it likes. The steps of all calls come in any order. A cell may be used again once
the pointer does not lead to it and no call holds it.
-/

namespace Sift.Publishing

/-- How an update changes the value in force. -/
inductive Effect (σ : Type) where
  | modify (change : σ → σ)
  | replace (value : σ)

/-- The value after an update. -/
def Effect.apply {σ : Type} : Effect σ → σ → σ
  | modify change, value => change value
  | replace value, _ => value

inductive Call (υ : Type) where
  | read
  | update (update : υ)

/-- How far a call has come. -/
inductive Stage (σ : Type) where
  | begun
  | loaded (cell : Nat)
  /-- With a new value, made from that of a loaded cell if there is one. -/
  | made (source : Option Nat) (value : σ)
  /-- With the new value in a cell. -/
  | placed (source : Option Nat) (cell : Nat)
  | returned

/-- The cells that a call holds. -/
def Stage.held {σ : Type} : Stage σ → List Nat
  | begun => []
  | loaded cell => [cell]
  | made source _ => source.toList
  | placed source cell => cell :: source.toList
  | returned => []

/-- The cells, the one that the pointer leads to, and the calls in the order in which they began. -/
structure State (σ υ : Type) where
  memory : Nat → σ
  current : Nat
  calls : List (Call υ × Stage σ) := []

/-- What happens in a step. A call is named by its place in their order. -/
inductive Event (σ υ : Type) where
  | begin (call : Call υ)
  | load (call : Nat)
  | look (call : Nat) (value : σ)
  | make (call : Nat)
  | place (call : Nat)
  /-- A swap that succeeds, or a store. -/
  | publish (call : Nat) (update : υ) (value : σ)
  | retry (call : Nat)
  | leave (call : Nat)

section Run

variable {σ υ : Type} (effect : υ → Effect σ)

/-- The call begins with a load of the pointer. -/
def Call.Loads : Call υ → Prop
  | .read => True
  | .update request => ∃ change, effect request = .modify change

namespace State

/-- The value in force. -/
def value (state : State σ υ) : σ := state.memory state.current

/-- No one can reach the cell. -/
def Unused (state : State σ υ) (cell : Nat) : Prop :=
  cell ≠ state.current ∧ ∀ call ∈ state.calls, cell ∉ call.2.held

/-- A call begins. -/
def start (state : State σ υ) (call : Call υ) : State σ υ :=
  { state with calls := state.calls ++ [(call, .begun)] }

/-- A call comes to another stage. -/
def move (state : State σ υ) (i : Nat) (call : Call υ) (stage : Stage σ) : State σ υ :=
  { state with calls := state.calls.set i (call, stage) }

/-- A value is put into a cell. -/
def write (state : State σ υ) (cell : Nat) (value : σ) : State σ υ :=
  { state with memory := fun other => if other = cell then value else state.memory other }

/-- The pointer is made to lead to a cell. -/
def point (state : State σ υ) (cell : Nat) : State σ υ := { state with current := cell }

/-- A value in force before any call. -/
def initial (first : σ) : State σ υ := { memory := fun _ => first, current := 0 }

end State

/-- A step of one of the calls. -/
inductive Step : State σ υ → Event σ υ → State σ υ → Prop where
  | begin {state : State σ υ} (call : Call υ) : Step state (.begin call) (state.start call)
  | load {state : State σ υ} {i : Nat} {call : Call υ} (stands : state.calls[i]? = some (call, .begun))
      (loads : call.Loads effect) : Step state (.load i) (state.move i call (.loaded state.current))
  | look {state : State σ υ} {i cell : Nat} (stands : state.calls[i]? = some (.read, .loaded cell)) :
      Step state (.look i (state.memory cell)) state
  | leave {state : State σ υ} {i cell : Nat} (stands : state.calls[i]? = some (.read, .loaded cell)) :
      Step state (.leave i) (state.move i .read .returned)
  | modify {state : State σ υ} {i cell : Nat} {update : υ} {change : σ → σ}
      (stands : state.calls[i]? = some (.update update, .loaded cell)) (modifies : effect update = .modify change) :
      Step state (.look i (state.memory cell))
        (state.move i (.update update) (.made (some cell) (change (state.memory cell))))
  | make {state : State σ υ} {i : Nat} {update : υ} {value : σ}
      (stands : state.calls[i]? = some (.update update, .begun)) (replaces : effect update = .replace value) :
      Step state (.make i) (state.move i (.update update) (.made none value))
  | place {state : State σ υ} {i cell : Nat} {update : υ} {source : Option Nat} {value : σ}
      (stands : state.calls[i]? = some (.update update, .made source value)) (unused : state.Unused cell) :
      Step state (.place i) ((state.write cell value).move i (.update update) (.placed source cell))
  | swap {state : State σ υ} {i cell : Nat} {update : υ}
      (stands : state.calls[i]? = some (.update update, .placed (some state.current) cell)) :
      Step state (.publish i update (state.memory cell)) ((state.move i (.update update) .returned).point cell)
  | retry {state : State σ υ} {i source cell : Nat} {update : υ}
      (stands : state.calls[i]? = some (.update update, .placed (some source) cell))
      (moved : source ≠ state.current) : Step state (.retry i) (state.move i (.update update) .begun)
  | store {state : State σ υ} {i cell : Nat} {update : υ}
      (stands : state.calls[i]? = some (.update update, .placed none cell)) :
      Step state (.publish i update (state.memory cell)) ((state.move i (.update update) .returned).point cell)

/-- Steps one after another. -/
inductive Run : State σ υ → List (Event σ υ) → State σ υ → Prop where
  | nil {state : State σ υ} : Run state [] state
  | cons {state next last : State σ υ} {event : Event σ υ} {events : List (Event σ υ)}
      (step : Step effect state event next) (run : Run next events last) : Run state (event :: events) last

end Run

end Sift.Publishing
