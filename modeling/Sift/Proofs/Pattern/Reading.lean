import Mathlib.Tactic.Lemma
import Sift.Pattern.Matcher

/-!
# What matching reads

A node is upright if it reads forward and takes off the marks that it puts on. Whatever an upright node and
what follows it find together, what follows finds from a state that the node leads to (`Node.leads_run`):
the place has moved on by what the node reads at least, it stays in the text, and the marks are those of
before. So a match begins where it was looked for and ends behind what it has read
(`bounds_of_matchAt?`). A node is local if in addition it asks for nothing but the characters beside a
place.
-/

namespace Sift.Pattern

/-- The condition is on the characters beside a place, and an end of the text is to it what a line break
is. -/
def Anchor.isLocal : Anchor → Bool
  | .lineStart | .lineEnd | .boundary | .notBoundary => true
  | _ => false

namespace Node

/-- The node reads forward and asks for nothing but the characters beside a place. -/
def isLocal : Node → Bool
  | empty | nothing => true
  | char mode _ | repeatChar mode _ _ => !mode.backward
  | anchor condition => condition.isLocal
  | seq first second | alt first second => first.isLocal && second.isLocal
  | loop body count => !count.reluctant && body.isLocal
  | capture _ released body => released.isNone && body.isLocal
  | _ => false

/-- A number of characters that the node reads at least. -/
def least : Node → Nat
  | char _ _ => 1
  | repeatChar _ _ count => count.least
  | seq first second => first.least + second.least
  | alt first second => min first.least second.least
  | capture _ _ body => body.least
  | _ => 0

/-- The node reads forward and takes off the marks that it puts on. Of a repetition that may leave a mark
behind when a round reads nothing, each round has to read something. What is read in looking around does
not count. -/
def isUpright : Node → Bool
  | empty | nothing | anchor _ | look _ _ => true
  | char mode _ | repeatChar mode _ _ | backref mode _ => !mode.backward
  | seq first second | alt first second | ifGroup _ first second | ifMatch _ first second =>
    first.isUpright && second.isUpright
  | loop body count =>
    body.isUpright && (!count.reluctant || count.most.isSome || 1 < count.least || 0 < body.least)
  | capture _ _ body | atomic body => body.isUpright

/-- Local nodes are upright. -/
lemma isUpright_of_isLocal {node : Node} (isLocal : node.isLocal = true) : node.isUpright = true := by
  induction node with
  | empty | nothing | anchor _ => rfl
  | char _ _ | repeatChar _ _ _ => exact isLocal
  | seq first second ih ih' | alt first second ih ih' =>
    obtain ⟨local₁, local₂⟩ := Bool.and_eq_true_iff.mp isLocal
    exact Bool.and_eq_true_iff.mpr ⟨ih local₁, ih' local₂⟩
  | loop body count ih =>
    obtain ⟨greedy, body_local⟩ := Bool.and_eq_true_iff.mp isLocal
    rw [isUpright, ih body_local, greedy]
    rfl
  | capture group released body ih => exact ih (Bool.and_eq_true_iff.mp isLocal).2
  | backref _ _ | look _ _ _ | atomic _ _ | ifGroup _ _ _ _ _ | ifMatch _ _ _ _ _ _ => cases isLocal

end Node

/-- Matching may go on from a state with another one, after it has read some characters. -/
structure Leads (subject : Subject) (read : Nat) (state after : State) : Prop where
  le : state.place + read ≤ after.place
  bounded : state.place ≤ subject.codes.size → after.place ≤ subject.codes.size
  marks_eq : after.marks = state.marks

/-- What a step finds is found by what follows, from a state that the step leads to. -/
def LeadsAll (subject : Subject) (read : Nat) (step : Step) : Prop :=
  ∀ ⦃state next result⦄, step state next = some result →
    ∃ after, Leads subject read state after ∧ next after = some result

namespace Leads

variable {subject : Subject} {read read' : Nat} {state middle after : State}

lemma refl (state : State) : Leads subject 0 state state := ⟨Nat.le_refl _, id, rfl⟩

lemma trans (first : Leads subject read state middle) (second : Leads subject read' middle after) :
    Leads subject (read + read') state after where
  le := by
    have := first.le
    have := second.le
    omega
  bounded := second.bounded ∘ first.bounded
  marks_eq := second.marks_eq.trans first.marks_eq

lemma mono (leads : Leads subject read state after) (le : read' ≤ read) :
    Leads subject read' state after :=
  { leads with le := Nat.le_trans (Nat.add_le_add_left le _) leads.le }

end Leads

lemma LeadsAll.toZero {subject read step} (leads : LeadsAll subject read step) :
    LeadsAll subject 0 step := by
  intro state next result eq
  obtain ⟨after, leads', found⟩ := leads eq
  exact ⟨after, leads'.mono (Nat.zero_le _), found⟩

section Reading

variable {subject : Subject} {mode : Mode} {test : CharTest}

/-- Reading one character forward. -/
lemma read?_eq_some (forward : mode.backward = false) {place after} :
    subject.read? mode test place = some after ↔
      ∃ c, subject.codes[place]? = some c ∧
        test.accepts (if mode.ignoreCase then Unicode.toLower c else c) = true ∧
        after = place + 1 := by
  rw [Subject.read?, Subject.next?, forward, if_neg Bool.false_ne_true]
  cases subject.codes[place]? with
  | none => exact ⟨nofun, nofun⟩
  | some c =>
    dsimp only [Option.map_some]
    rw [Option.ite_none_right_eq_some, Option.some_inj]
    constructor
    · rintro ⟨accepted, rfl⟩
      exact ⟨c, rfl, accepted, rfl⟩
    · rintro ⟨_, ⟨⟩, accepted, rfl⟩
      exact ⟨accepted, rfl⟩

/-- The places behind characters that pass a test follow each other and stay in the text. -/
lemma exists_readAll_eq_range' (forward : mode.backward = false) (limit place : Nat) :
    ∃ count, subject.readAll mode test limit place = List.range' (place + 1) count ∧
      (place ≤ subject.codes.size → place + count ≤ subject.codes.size) := by
  induction limit generalizing place with
  | zero => exact ⟨0, rfl, id⟩
  | succ limit ih =>
    rw [Subject.readAll]
    cases found : subject.read? mode test place with
    | none => exact ⟨0, rfl, id⟩
    | some after =>
      obtain ⟨c, get, _, rfl⟩ := (read?_eq_some forward).mp found
      obtain ⟨count, eq, bounded⟩ := ih (place + 1)
      obtain ⟨lt, _⟩ := Array.getElem?_eq_some_iff.mp get
      refine ⟨count + 1, by rw [List.range'_succ, ← eq], fun _ => ?_⟩
      have := bounded lt
      omega

lemma read?_of_size_le (forward : mode.backward = false) {place} (le : subject.codes.size ≤ place) :
    subject.read? mode test place = none := by
  rw [Option.eq_none_iff_forall_ne_some]
  intro after read
  obtain ⟨c, get, _⟩ := (read?_eq_some forward).mp read
  obtain ⟨lt, _⟩ := Array.getElem?_eq_some_iff.mp get
  omega

/-- A limit that the text does not reach does not matter. -/
lemma readAll_eq_readAll (forward : mode.backward = false) {limit limit' place}
    (le : subject.codes.size ≤ place + limit) (le' : subject.codes.size ≤ place + limit') :
    subject.readAll mode test limit place = subject.readAll mode test limit' place := by
  -- Both limits end behind the text, so that where one of them is used up nothing is left to read.
  induction limit generalizing limit' place with
  | zero =>
    cases limit' with
    | zero => rfl
    | succ limit' =>
      have none := @read?_of_size_le subject mode test forward place le
      rw [Subject.readAll, Subject.readAll, none]
  | succ limit ih =>
    cases limit' with
    | zero =>
      have none := @read?_of_size_le subject mode test forward place le'
      rw [Subject.readAll, Subject.readAll, none]
    | succ limit' =>
      rw [Subject.readAll, Subject.readAll]
      cases found : subject.read? mode test place with
      | none => rfl
      | some after =>
        obtain ⟨c, _, _, rfl⟩ := (read?_eq_some forward).mp found
        have same := @ih limit' (place + 1) (by omega) (by omega)
        exact congrArg (List.cons (place + 1)) same

lemma tryPlaces_cons (state : State) (next : Continuation) (place : Nat) (rest : List Nat) :
    tryPlaces state next (place :: rest) =
      (next { state with place }).or (tryPlaces state next rest) := by
  rw [tryPlaces]
  cases next { state with place } <;> rfl

lemma tryPlaces_append (state : State) (next : Continuation) (places places' : List Nat) :
    tryPlaces state next (places ++ places') =
      (tryPlaces state next places).or (tryPlaces state next places') := by
  induction places with
  | nil => rfl
  | cons place rest ih =>
    rw [List.cons_append, tryPlaces_cons, tryPlaces_cons, ih, Option.or_assoc]

/-- What trying finds is found from one of the places. -/
lemma exists_of_tryPlaces {state result next places} (eq : tryPlaces state next places = some result) :
    ∃ place ∈ places, next { state with place } = some result := by
  induction places with
  | nil => cases eq
  | cons place rest ih =>
    rw [tryPlaces_cons] at eq
    rcases Option.or_eq_some_iff.mp eq with found | ⟨_, later⟩
    · exact ⟨place, List.mem_cons_self, found⟩
    · obtain ⟨place', mem, found⟩ := ih later
      exact ⟨place', List.mem_cons_of_mem _ mem, found⟩

/-- A repetition of one character leads on by as many as it needs at least. -/
lemma leads_repeatChars (forward : mode.backward = false) (count : Repeat) :
    LeadsAll subject count.least (repeatChars subject mode test count) := by
  intro state next result eq
  obtain ⟨place, mem, found⟩ := exists_of_tryPlaces eq
  obtain ⟨more, readAll, bounded⟩ := @exists_readAll_eq_range' subject mode test forward
    ((count.most.getD subject.codes.size).min subject.codes.size) state.place
  have mem' : place ∈ (List.range' state.place (more + 1)).drop count.least := by
    rw [List.range'_succ, ← readAll]
    split at mem
    · exact mem
    · exact List.mem_reverse.mp mem
  rw [List.drop_range', List.mem_range'_1] at mem'
  refine ⟨{ state with place }, ⟨?_, fun le => ?_, rfl⟩, found⟩
  · dsimp only
    omega
  · have := bounded le
    dsimp only
    omega

end Reading

section Rounds

variable {subject : Subject} {round : Step} {next : Continuation}

lemma moreRounds_succ (round : Step) (next : Continuation) (fuel place : Nat) (mark : Int)
    (marks : List Int) (captures : List Capture) :
    moreRounds round next (fuel + 1) ⟨place, mark :: marks, captures⟩ =
      if (place : Int) = mark then next ⟨place, marks, captures⟩
      else (round ⟨place, place :: marks, captures⟩ (moreRounds round next fuel)).or
        (next ⟨place, marks, captures⟩) := by
  rw [moreRounds]
  dsimp only [State.popMark, State.pushMark]
  cases round ⟨place, place :: marks, captures⟩ (moreRounds round next fuel) <;> rfl

lemma moreCounted_succ (round : Step) (extra : Option Nat) (next : Continuation) (fuel place : Nat)
    (count mark : Int) (marks : List Int) (captures : List Capture) :
    moreCounted round extra next (fuel + 1) ⟨place, count :: mark :: marks, captures⟩ =
      if extra.any (fun most => (most : Int) ≤ count) || ((place : Int) = mark && 0 ≤ count) then
        next ⟨place, marks, captures⟩
      else (round ⟨place, (count + 1) :: place :: marks, captures⟩
          (moreCounted round extra next fuel)).or
        (if 0 ≤ count then next ⟨place, marks, captures⟩ else none) := by
  rw [moreCounted]
  dsimp only [State.popMark, State.pushMark]
  cases round ⟨place, (count + 1) :: place :: marks, captures⟩ (moreCounted round extra next fuel) <;>
    rfl

lemma fewerRounds_succ (round : Step) (next : Continuation) (fuel place : Nat) (mark : Int)
    (marks : List Int) (captures : List Capture) :
    fewerRounds round next (fuel + 1) ⟨place, mark :: marks, captures⟩ =
      if (place : Int) = mark then next ⟨place, mark :: marks, captures⟩
      else (next ⟨place, marks, captures⟩).or
        (round ⟨place, place :: marks, captures⟩ (fewerRounds round next fuel)) := by
  rw [fewerRounds]
  dsimp only [State.popMark, State.pushMark]
  cases next ⟨place, marks, captures⟩ <;> rfl

lemma fewerCounted_succ (round : Step) (extra : Option Nat) (next : Continuation) (fuel place : Nat)
    (count mark : Int) (marks : List Int) (captures : List Capture) :
    fewerCounted round extra next (fuel + 1) ⟨place, count :: mark :: marks, captures⟩ =
      (if count < 0 then none else next ⟨place, marks, captures⟩).or
        (if count < 0 ∨ extra.all (fun most => count < (most : Int)) ∧ (place : Int) ≠ mark then
          round ⟨place, (count + 1) :: place :: marks, captures⟩ (fewerCounted round extra next fuel)
        else none) := by
  rw [fewerCounted]
  dsimp only [State.popMark, State.pushMark]
  by_cases required : count < 0
  · simp only [required, if_true, true_or, Option.none_or]
  · simp only [required, if_false, false_or, Bool.and_eq_true, decide_eq_true_eq]
    cases next ⟨place, marks, captures⟩ <;> rfl

/-- One more round leads on, if what comes after it does and takes off the marks that the round was
given. -/
lemma leads_again {read} (sound : LeadsAll subject read round) {again place given marks captures result}
    (later : ∀ place' captures, place + read ≤ place' → again ⟨place', given, captures⟩ = some result →
      ∃ after, Leads subject 0 ⟨place', marks, captures⟩ after ∧ next after = some result)
    (eq : round ⟨place, given, captures⟩ again = some result) :
    ∃ after, Leads subject 0 ⟨place, marks, captures⟩ after ∧ next after = some result := by
  obtain ⟨⟨place', _, captures'⟩, leads, more⟩ := sound eq
  obtain rfl := leads.marks_eq
  obtain ⟨after, leads', found⟩ := later place' captures' leads.le more
  have le : place ≤ place' := Nat.le_of_add_right_le leads.le
  exact ⟨after, ⟨Nat.le_trans le leads'.le, leads'.bounded ∘ leads.bounded, leads'.marks_eq⟩, found⟩

/-- Rounds without limit lead on, and take off the mark they were given. -/
lemma leads_moreRounds (sound : LeadsAll subject 0 round) {fuel place mark marks captures result}
    (eq : moreRounds round next fuel ⟨place, mark :: marks, captures⟩ = some result) :
    ∃ after, Leads subject 0 ⟨place, marks, captures⟩ after ∧ next after = some result := by
  induction fuel generalizing place mark captures with
  | zero => cases eq
  | succ fuel ih =>
    rw [moreRounds_succ] at eq
    split at eq
    · exact ⟨_, .refl _, eq⟩
    · rcases Option.or_eq_some_iff.mp eq with again | ⟨_, done⟩
      · exact leads_again sound (fun _ _ _ => ih) again
      · exact ⟨_, .refl _, done⟩

/-- Rounds that each read something never end at their mark, which is then taken off. -/
lemma leads_fewerRounds {read} (sound : LeadsAll subject read round) (pos : 0 < read) {fuel place : Nat}
    {mark marks captures result} (ne : (place : Int) ≠ mark)
    (eq : fewerRounds round next fuel ⟨place, mark :: marks, captures⟩ = some result) :
    ∃ after, Leads subject 0 ⟨place, marks, captures⟩ after ∧ next after = some result := by
  induction fuel generalizing place mark captures with
  | zero => cases eq
  | succ fuel ih =>
    rw [fewerRounds_succ, if_neg ne] at eq
    rcases Option.or_eq_some_iff.mp eq with done | ⟨_, again⟩
    · exact ⟨_, .refl _, done⟩
    · exact leads_again sound (fun _ _ le => ih (by omega)) again

/-- Counted rounds lead on. -/
lemma leads_moreCounted (sound : LeadsAll subject 0 round) {extra fuel place count mark marks captures result}
    (eq : moreCounted round extra next fuel ⟨place, count :: mark :: marks, captures⟩ = some result) :
    ∃ after, Leads subject 0 ⟨place, marks, captures⟩ after ∧ next after = some result := by
  induction fuel generalizing place count mark captures with
  | zero => cases eq
  | succ fuel ih =>
    rw [moreCounted_succ] at eq
    split at eq
    · exact ⟨_, .refl _, eq⟩
    · rcases Option.or_eq_some_iff.mp eq with again | ⟨_, done⟩
      · exact leads_again sound (fun _ _ _ => ih) again
      · split at done
        · exact ⟨_, .refl _, done⟩
        · cases done

/-- So do those that prefer fewer. -/
lemma leads_fewerCounted (sound : LeadsAll subject 0 round) {extra fuel place count mark marks captures result}
    (eq : fewerCounted round extra next fuel ⟨place, count :: mark :: marks, captures⟩ = some result) :
    ∃ after, Leads subject 0 ⟨place, marks, captures⟩ after ∧ next after = some result := by
  induction fuel generalizing place count mark captures with
  | zero => cases eq
  | succ fuel ih =>
    rw [fewerCounted_succ] at eq
    rcases Option.or_eq_some_iff.mp eq with done | ⟨_, again⟩
    · split at done
      · cases done
      · exact ⟨_, .refl _, done⟩
    · split at again
      · exact leads_again sound (fun _ _ _ => ih) again
      · cases again

/-- A repetition leads on unless it prefers fewer rounds, without limit, and a round may read nothing. -/
lemma leads_repeatGroup {read} (sound : LeadsAll subject read round) {count : Repeat}
    (upright : (!count.reluctant || count.most.isSome || 1 < count.least || 0 < read) = true) :
    LeadsAll subject 0 (repeatGroup subject round count) := by
  intro state next result eq
  simp only [repeatGroup] at eq
  split at eq
  · rename_i limitless
    cases reluctant : count.reluctant with
    | false =>
      simp only [reluctant, Bool.false_eq_true, if_false] at eq
      split at eq
      · exact leads_moreRounds sound.toZero eq
      · exact leads_again sound (fun _ _ _ => leads_moreRounds sound.toZero) eq
    | true =>
      have pos : 0 < read := by
        simp only [Bool.and_eq_true, Option.isNone_iff_eq_none, decide_eq_true_eq] at limitless
        simpa [reluctant, limitless.1, Nat.not_lt.mpr limitless.2] using upright
      simp only [reluctant, if_true] at eq
      split at eq
      · exact leads_fewerRounds sound pos (by omega) eq
      · exact leads_again sound (fun _ _ le => leads_fewerRounds sound pos (by omega)) eq
  · cases reluctant : count.reluctant with
    | false =>
      simp only [reluctant, Bool.false_eq_true, if_false] at eq
      split at eq
      · exact leads_moreCounted sound.toZero eq
      · exact leads_again sound (fun _ _ _ => leads_moreCounted sound.toZero) eq
    | true =>
      simp only [reluctant, if_true] at eq
      split at eq
      · exact leads_fewerCounted sound.toZero eq
      · exact leads_again sound (fun _ _ _ => leads_fewerCounted sound.toZero) eq

end Rounds

/-- The captures after a group has read a part of the text. -/
def recorded (group : Option Nat) (start stop : Int) (captures : List Capture) : List Capture :=
  match group with
  | none => captures
  | some group => ⟨group, start, (stop - start).toNat⟩ :: captures

/-- A group that gives up no other records what lies between its mark and the place. -/
lemma closeGroup_none (group : Option Nat) (next : Continuation) (place : Nat) (mark : Int)
    (marks : List Int) (captures : List Capture) :
    closeGroup group none next ⟨place, mark :: marks, captures⟩ =
      next ⟨place, marks,
        recorded group (min mark place) (max mark place) captures⟩ := by
  cases group <;> rfl

/-- A group that was opened at a place before records what was read since. -/
lemma recorded_of_le {start stop : Nat} (le : start ≤ stop) (group : Nat) (captures : List Capture) :
    recorded (some group) (min (start : Int) stop) (max (start : Int) stop) captures =
      ⟨group, start, stop - start⟩ :: captures := by
  rw [Int.min_eq_left (Int.ofNat_le.mpr le), Int.max_eq_right (Int.ofNat_le.mpr le), recorded, Int.toNat_sub]

/-- A group is closed without reading, and its mark is taken off. -/
lemma exists_of_closeGroup {group released next place mark marks captures result}
    (eq : closeGroup group released next ⟨place, mark :: marks, captures⟩ = some result) :
    ∃ captures', next ⟨place, marks, captures'⟩ = some result := by
  cases released with
  | none =>
    rw [closeGroup_none] at eq
    exact ⟨_, eq⟩
  | some number =>
    simp only [closeGroup, State.popMark] at eq
    split at eq
    · cases eq
    · cases group with
      | none => exact ⟨_, eq⟩
      | some group => exact ⟨_, eq⟩

/-- What a group has read is read again forward. -/
lemma reread?_eq_some {subject : Subject} {mode} (forward : mode.backward = false) {taken place after}
    (eq : subject.reread? mode taken place = some after) :
    after = place + taken.length ∧ after ≤ subject.codes.size := by
  rw [Subject.reread?, forward, if_neg Bool.false_ne_true] at eq
  split at eq
  · cases eq
  · split at eq
    · cases eq
      exact ⟨rfl, Nat.le_of_not_lt ‹_›⟩
    · cases eq

lemma Node.run_alt (subject : Subject) (first second : Node) (state : State) (next : Continuation) :
    (alt first second).run subject state next =
      (first.run subject state next).or (second.run subject state next) := by
  simp only [run]
  cases first.run subject state next <;> rfl

lemma Node.run_ofList_cons (subject : Subject) (first : Node) (rest : List Node) (state : State)
    (next : Continuation) : (ofList (first :: rest)).run subject state next =
      first.run subject state fun middle => (ofList rest).run subject middle next := by
  cases rest with
  | nil => rfl
  | cons second rest => rfl

/-- An upright node leads on by what it reads at least. -/
lemma Node.leads_run {subject : Subject} {node : Node} (upright : node.isUpright = true) :
    LeadsAll subject node.least (node.run subject) := by
  induction node with
  | empty => exact fun state _ _ eq => ⟨state, .refl state, eq⟩
  | nothing => exact nofun
  | char mode test =>
    intro state next result eq
    simp only [Node.run] at eq
    split at eq
    · rename_i place read
      obtain ⟨c, get, _, rfl⟩ := (read?_eq_some (by simpa [Node.isUpright] using upright)).mp read
      obtain ⟨lt, _⟩ := Array.getElem?_eq_some_iff.mp get
      exact ⟨{ state with place := state.place + 1 }, ⟨Nat.le_refl _, fun _ => lt, rfl⟩, eq⟩
    · cases eq
  | repeatChar mode test count =>
    exact leads_repeatChars (by simpa [Node.isUpright] using upright) count
  | backref mode group =>
    intro state next result eq
    simp only [Node.run] at eq
    split at eq
    · cases eq
    · split at eq
      · rename_i place reread
        obtain ⟨rfl, bounded⟩ := reread?_eq_some (by simpa [Node.isUpright] using upright) reread
        exact ⟨{ state with place := _ }, ⟨Nat.le_add_right _ _, fun _ => bounded, rfl⟩, eq⟩
      · cases eq
  | anchor condition =>
    intro state next result eq
    simp only [Node.run] at eq
    split at eq
    · exact ⟨_, .refl _, eq⟩
    · cases eq
  | seq first second ih ih' =>
    obtain ⟨upright₁, upright₂⟩ := Bool.and_eq_true_iff.mp upright
    intro state next result eq
    obtain ⟨middle, leads, eq'⟩ := ih upright₁ eq
    obtain ⟨after, leads', found⟩ := ih' upright₂ eq'
    exact ⟨after, leads.trans leads', found⟩
  | alt first second ih ih' =>
    obtain ⟨upright₁, upright₂⟩ := Bool.and_eq_true_iff.mp upright
    intro state next result eq
    rw [run_alt] at eq
    rcases Option.or_eq_some_iff.mp eq with eq' | ⟨_, eq'⟩
    · obtain ⟨after, leads, found⟩ := ih upright₁ eq'
      exact ⟨after, leads.mono (Nat.min_le_left _ _), found⟩
    · obtain ⟨after, leads, found⟩ := ih' upright₂ eq'
      exact ⟨after, leads.mono (Nat.min_le_right _ _), found⟩
  | loop body count ih =>
    obtain ⟨body_upright, rounds⟩ := Bool.and_eq_true_iff.mp upright
    exact leads_repeatGroup (ih body_upright) rounds
  | capture group released body ih =>
    intro state next result eq
    obtain ⟨⟨place, _, captures⟩, leads, closed⟩ := ih upright eq
    obtain rfl := leads.marks_eq
    -- The group takes off the mark that it has set.
    obtain ⟨captures', found⟩ := exists_of_closeGroup closed
    exact ⟨⟨place, state.marks, captures'⟩, ⟨leads.le, leads.bounded, rfl⟩, found⟩
  | look positive body _ =>
    intro state next result eq
    simp only [Node.run] at eq
    split at eq
    · refine ⟨_, ?_, eq⟩
      exact ⟨Nat.le_refl _, id, rfl⟩
    · cases eq
    · cases eq
    · exact ⟨_, .refl _, eq⟩
  | atomic body ih =>
    intro state next result eq
    simp only [Node.run] at eq
    split at eq
    · rename_i found run
      obtain ⟨after, leads, same⟩ := (ih upright).toZero run
      cases same
      refine ⟨_, ?_, eq⟩
      exact ⟨leads.le, leads.bounded, rfl⟩
    · cases eq
  | ifGroup group yes no ih ih' =>
    obtain ⟨upright₁, upright₂⟩ := Bool.and_eq_true_iff.mp upright
    intro state next result eq
    simp only [Node.run] at eq
    split at eq
    · exact (ih upright₁).toZero eq
    · exact (ih' upright₂).toZero eq
  | ifMatch condition yes no _ ih ih' =>
    obtain ⟨upright₁, upright₂⟩ := Bool.and_eq_true_iff.mp upright
    intro state next result eq
    simp only [Node.run] at eq
    split at eq
    · obtain ⟨after, leads, found⟩ := (ih upright₁).toZero eq
      exact ⟨after, ⟨leads.le, leads.bounded, leads.marks_eq⟩, found⟩
    · exact (ih' upright₂).toZero eq

/-- The match that a search at a place ends with. -/
def Match.ofState (place : Nat) (state : State) : Match :=
  ⟨place, state.place - place, state.place, state.captures⟩

/-- What an upright node finds as a whole lies behind the place it was looked for at, and is the first
capture. -/
lemma leads_whole {node} (upright : node.isUpright = true) {subject place state}
    (run : (Node.capture (some 0) none node).run subject ⟨place, [], []⟩ some = some state) :
    Leads subject node.least ⟨place, [], []⟩ state ∧
      state.captured? 0 = some ⟨0, place, state.place - place⟩ := by
  obtain ⟨⟨stop, _, captures⟩, leads, closed⟩ := Node.leads_run upright run
  obtain rfl := leads.marks_eq
  have le : place ≤ stop := Nat.le_of_add_right_le leads.le
  rw [State.pushMark, closeGroup_none, recorded_of_le le] at closed
  cases closed
  exact ⟨⟨leads.le, leads.bounded, rfl⟩, rfl⟩

/-- The match of an upright node at a place is what its run ends with. -/
lemma matchAt?_eq_map {node} (upright : node.isUpright = true) (subject : Subject) (place : Nat) :
    matchAt? node subject place =
      ((Node.capture (some 0) none node).run subject ⟨place, [], []⟩ some).map
        (Match.ofState place) := by
  cases h : (Node.capture (some 0) none node).run subject ⟨place, [], []⟩ some with
  | none => simp only [matchAt?, h, Option.map_none]
  | some state => simp only [matchAt?, h, (leads_whole upright h).2, Option.map_some, Match.ofState]

/-- A match of an upright node begins where it was looked for. -/
lemma start_of_matchAt? {node} (upright : node.isUpright = true) {subject place found}
    (eq : matchAt? node subject place = some found) : found.start = place := by
  rw [matchAt?_eq_map upright] at eq
  obtain ⟨state, _, rfl⟩ := Option.map_eq_some_iff.mp eq
  rfl

/-- It ends behind what it has read, and stays in the text. -/
lemma bounds_of_matchAt? {node} (upright : node.isUpright = true) {subject place found}
    (eq : matchAt? node subject place = some found) :
    found.place = place ∧ found.length = found.stop - place ∧ place + node.least ≤ found.stop ∧
      (place ≤ subject.codes.size → found.stop ≤ subject.codes.size) := by
  have start := start_of_matchAt? upright eq
  rw [matchAt?_eq_map upright] at eq
  obtain ⟨state, run, rfl⟩ := Option.map_eq_some_iff.mp eq
  obtain ⟨leads, _⟩ := leads_whole upright run
  exact ⟨by rw [Match.place, start, Int.toNat_natCast], rfl, leads.le, leads.bounded⟩

end Sift.Pattern
