import Sift.Proofs.Pattern.Reading

/-!
# One search after another

The matches of a text are found by one search after another, each of which begins where the last match ended,
one place further if it was empty. `Searches` says what they find without a bound on their number. If a search
finds nothing before the place it begins at and goes on where a match ends (`Orderly`), each one begins behind
the last one: so they end within the bound (`searches_findAll_iff`), there are no more matches than places
(`Searches.length_le`), no match begins before the last one ended (`Searches.pairwise`), and each one lies in the
text (`Searches.within`).

Matching stays inside the text whatever the node is (`Node.staysInside_run`), but a match may begin beside what
was read. The searches for an upright node are orderly (`orderly_find?`).
-/

namespace Sift.Pattern

/-- The match lies in a text of some size. -/
structure Match.Within (found : Match) (size : Nat) : Prop where
  nonneg : 0 ≤ found.start
  le : found.start + found.length ≤ size

/-- All that an engine finds for a node lies in the text. -/
def KeepsTo (engine : Engine) (node : Node) (codes : Array Nat) : Prop :=
  ∀ found ∈ findAll node codes engine, found.Within codes.size

/-- No search finds a match that begins before the search does, and the search goes on where the match
ends, which is no place behind the text. -/
structure Orderly (size : Nat) (search : Nat → Option Match) : Prop where
  start_le : ∀ ⦃start found⦄, search start = some found → start ≤ found.start
  stop_eq : ∀ ⦃start found⦄, search start = some found → found.stop = found.start + found.length
  stop_le : ∀ ⦃start found⦄, search start = some found → found.stop ≤ size

/-- What one search after another finds in a text of some size. They end when a search finds nothing, or when
the next one would begin behind the text. -/
inductive Searches (search : Nat → Option Match) (size : Nat) : Nat → List Match → Prop where
  | none {start : Nat} (eq : search start = none) : Searches search size start []
  | last {start : Nat} {found : Match} (eq : search start = some found) (lt : size < found.next) :
    Searches search size start [found]
  | more {start : Nat} {found : Match} {rest : List Match} (eq : search start = some found)
    (le : found.next ≤ size) (later : Searches search size found.next rest) :
    Searches search size start (found :: rest)

section Orderly

variable {search : Nat → Option Match} {size start : Nat}

/-- The next search begins behind the last one, and not before the end of its match. -/
lemma Orderly.lt_next (orderly : Orderly size search) {found} (eq : search start = some found) :
    start < found.next ∧ found.start + found.length ≤ found.next := by
  have le := orderly.start_le eq
  have stop := orderly.stop_eq eq
  unfold Match.next
  split <;> omega

namespace Searches

variable {found found' : List Match}

/-- What the searches find is determined. -/
lemma unique (searches : Searches search size start found) (searches' : Searches search size start found') :
    found = found' := by
  induction searches generalizing found' with
  | none eq =>
    cases searches' with
    | none _ => rfl
    | last eq' _ => cases eq.symm.trans eq'
    | more eq' _ _ => cases eq.symm.trans eq'
  | last eq lt =>
    cases searches' with
    | none eq' => cases eq.symm.trans eq'
    | last eq' _ =>
      cases eq.symm.trans eq'
      rfl
    | more eq' le _ =>
      cases eq.symm.trans eq'
      exact absurd le (Nat.not_le.mpr lt)
  | more eq le _ ih =>
    cases searches' with
    | none eq' => cases eq.symm.trans eq'
    | last eq' lt =>
      cases eq.symm.trans eq'
      exact absurd le (Nat.not_le.mpr lt)
    | more eq' _ later' =>
      cases eq.symm.trans eq'
      rw [ih later']

variable (orderly : Orderly size search)
include orderly

/-- There are no more matches than places. -/
lemma length_le (searches : Searches search size start found) (le : start ≤ size) :
    found.length + start ≤ size + 1 := by
  induction searches with
  | none _ =>
    rw [List.length_nil]
    omega
  | last _ _ =>
    rw [List.length_singleton]
    omega
  | more eq le' _ ih =>
    have := (orderly.lt_next eq).1
    have := ih le'
    rw [List.length_cons]
    omega

/-- No match begins before the searches do. -/
lemma start_le_start (searches : Searches search size start found) :
    ∀ first ∈ found, start ≤ first.start := by
  induction searches with
  | none _ => exact List.forall_mem_nil _
  | last eq _ => exact List.forall_mem_singleton.mpr (orderly.start_le eq)
  | more eq _ _ ih =>
    refine List.forall_mem_cons.mpr ⟨orderly.start_le eq, fun second mem => ?_⟩
    have behind := (orderly.lt_next eq).1
    have le := ih second mem
    omega

/-- No match begins before the last one ended. -/
lemma pairwise (searches : Searches search size start found) :
    found.Pairwise fun first second : Match => first.start + (first.length : Int) ≤ second.start := by
  induction searches with
  | none _ => exact .nil
  | last _ _ => exact List.pairwise_singleton _ _
  | more eq _ later ih =>
    refine .cons (fun second mem => ?_) ih
    exact Int.le_trans (orderly.lt_next eq).2 (later.start_le_start orderly second mem)

/-- Each match lies in the text. -/
lemma within (searches : Searches search size start found) : ∀ first ∈ found, first.Within size := by
  have here : ∀ ⦃start first⦄, search start = some first → first.Within size := by
    intro start first eq
    have le := orderly.start_le eq
    have stop := orderly.stop_eq eq
    have bound := orderly.stop_le eq
    exact ⟨by omega, by omega⟩
  induction searches with
  | none _ => exact List.forall_mem_nil _
  | last eq _ => exact List.forall_mem_singleton.mpr (here eq)
  | more eq _ _ ih => exact List.forall_mem_cons.mpr ⟨here eq, ih⟩

end Searches

end Orderly

section FindAll

variable {engine : Engine} {node : Node} {codes : Array Nat}

/-- Each search begins behind the last one, so that the fuel lasts until the text is searched. -/
lemma searches_findAllFrom (orderly : Orderly codes.size (engine node codes)) {fuel start}
    (enough : codes.size + 2 ≤ fuel + start) (le : start ≤ codes.size) :
    Searches (engine node codes) codes.size start (findAllFrom engine node codes fuel start) := by
  induction fuel generalizing start with
  | zero => omega
  | succ fuel ih =>
    rw [findAllFrom]
    split
    · exact .none ‹_›
    · rename_i found eq
      have lt := (orderly.lt_next eq).1
      split
      · exact .more eq ‹_› (ih (by omega) ‹_›)
      · exact .last eq (Nat.lt_of_not_le ‹_›)

/-- The matches of a text are what one search after another finds. -/
lemma searches_findAll_iff (orderly : Orderly codes.size (engine node codes)) {found} :
    Searches (engine node codes) codes.size 0 found ↔ found = findAll node codes engine := by
  have searches : Searches (engine node codes) codes.size 0 (findAll node codes engine) :=
    searches_findAllFrom orderly (Nat.le_refl _) (Nat.zero_le _)
  constructor
  · exact fun searches' => searches'.unique searches
  · rintro rfl
    exact searches

/-- Orderly searches keep to the text. -/
lemma Orderly.keepsTo (orderly : Orderly codes.size (engine node codes)) : KeepsTo engine node codes :=
  ((searches_findAll_iff orderly).mpr rfl).within orderly

/-- A match among places was found at one of them. -/
lemma exists_of_findAmong {subject count place found} (eq : findAmong node subject count place = some found) :
    ∃ later, place ≤ later ∧ later < place + count ∧ matchAt? node subject later = some found := by
  induction count generalizing place with
  | zero => cases eq
  | succ count ih =>
    rw [findAmong] at eq
    split at eq
    · rename_i here
      exact ⟨place, Nat.le_refl _, Nat.lt_add_of_pos_right (Nat.succ_pos _), here.trans eq⟩
    · obtain ⟨later, le, lt, found⟩ := ih eq
      exact ⟨later, Nat.le_of_succ_le le, by omega, found⟩

/-- A search looks at places of the text only, the one behind its last character included. -/
lemma exists_of_find? {start found} (eq : find? node codes start = some found) :
    ∃ place, start ≤ place ∧ place ≤ codes.size ∧ matchAt? node ⟨codes, start⟩ place = some found := by
  obtain ⟨place, le, lt, found⟩ := exists_of_findAmong eq
  exact ⟨place, le, by omega, found⟩

end FindAll

section Inside

/-- What a step finds from inside the text is found by what follows, from inside the text. -/
def StaysInside (subject : Subject) (step : Step) : Prop :=
  ∀ ⦃state next result⦄, step state next = some result → state.place ≤ subject.codes.size →
    ∃ after : State, after.place ≤ subject.codes.size ∧ next after = some result

variable {subject : Subject} {mode : Mode} {test : CharTest} {round : Step} {next : Continuation}
  {state result : State}

/-- A character is read from inside the text, forward or backward. -/
lemma read?_le_size {place after} (le : place ≤ subject.codes.size)
    (eq : subject.read? mode test place = some after) : after ≤ subject.codes.size := by
  rw [Subject.read?] at eq
  cases read : subject.next? mode place with
  | none =>
    rw [read] at eq
    cases eq
  | some pair =>
    obtain ⟨c, behind⟩ := pair
    have inside : behind ≤ subject.codes.size := by
      rw [Subject.next?] at read
      split at read
      · split at read
        · cases read
        · obtain ⟨_, _, pair⟩ := Option.map_eq_some_iff.mp read
          cases pair
          omega
      · obtain ⟨_, get, pair⟩ := Option.map_eq_some_iff.mp read
        cases pair
        exact (Array.getElem?_eq_some_iff.mp get).1
    rw [read] at eq
    obtain ⟨_, same⟩ := Option.ite_none_right_eq_some.mp eq
    cases same
    exact inside

/-- The places behind characters that pass a test are inside the text. -/
lemma readAll_le_size {limit place} (le : place ≤ subject.codes.size) :
    ∀ after ∈ subject.readAll mode test limit place, after ≤ subject.codes.size := by
  induction limit generalizing place with
  | zero => exact List.forall_mem_nil _
  | succ limit ih =>
    rw [Subject.readAll]
    cases read : subject.read? mode test place with
    | none => exact List.forall_mem_nil _
    | some after =>
      have inside := read?_le_size le read
      exact List.forall_mem_cons.mpr ⟨inside, ih inside⟩

/-- A repeated character stays inside the text. -/
lemma staysInside_repeatChars (count : Repeat) : StaysInside subject (repeatChars subject mode test count) := by
  intro state next result eq le
  obtain ⟨place, mem, found⟩ := exists_of_tryPlaces eq
  refine ⟨{ state with place }, ?_, found⟩
  have mem' : place ∈ state.place :: subject.readAll mode test
      ((count.most.getD subject.codes.size).min subject.codes.size) state.place := by
    split at mem
    · exact List.mem_of_mem_drop mem
    · exact List.mem_of_mem_drop (List.mem_reverse.mp mem)
  rcases List.mem_cons.mp mem' with rfl | mem'
  · exact le
  · exact readAll_le_size le _ mem'

/-- What a group has read is read again inside the text. -/
lemma reread?_le_size {taken place after} (le : place ≤ subject.codes.size)
    (eq : subject.reread? mode taken place = some after) : after ≤ subject.codes.size := by
  cases backward : mode.backward with
  | false => exact (reread?_eq_some backward eq).2
  | true =>
    rw [Subject.reread?, if_pos backward] at eq
    split at eq
    · cases eq
    · split at eq
      · cases eq
        omega
      · cases eq

/-- Taking a mark off reads nothing. -/
lemma State.popMark_place {mark popped} (eq : state.popMark = (mark, popped)) :
    popped.place = state.place := by
  rw [State.popMark] at eq
  split at eq <;> cases eq <;> rfl

/-- What rounds of a repetition find is found by what follows or by one more round, from where they stand. -/
def GoesOn (round : Step) (next : Continuation) (rounds : Nat → Continuation) : Prop :=
  ∀ ⦃fuel state result⦄, rounds fuel state = some result → ∃ onward : State, onward.place = state.place ∧
    (next onward = some result ∨ ∃ less < fuel, round onward (rounds less) = some result)

/-- Rounds that prefer more of them go on so. -/
lemma goesOn_moreRounds : GoesOn round next (moreRounds round next) := by
  rintro (_ | fuel) state result eq
  · cases eq
  · cases pop : state.popMark with
    | mk mark popped =>
      have place := State.popMark_place pop
      simp only [moreRounds, pop] at eq
      split at eq
      · exact ⟨popped, place, .inl eq⟩
      · split at eq
        · rename_i more
          exact ⟨popped.pushMark _, place, .inr ⟨fuel, fuel.lt_succ_self, more.trans eq⟩⟩
        · exact ⟨popped, place, .inl eq⟩

/-- So do rounds that prefer fewer. -/
lemma goesOn_fewerRounds : GoesOn round next (fewerRounds round next) := by
  rintro (_ | fuel) state result eq
  · cases eq
  · cases pop : state.popMark with
    | mk mark popped =>
      have place := State.popMark_place pop
      simp only [fewerRounds, pop] at eq
      split at eq
      · exact ⟨state, rfl, .inl eq⟩
      · split at eq
        · rename_i done
          exact ⟨popped, place, .inl (done.trans eq)⟩
        · exact ⟨popped.pushMark _, place, .inr ⟨fuel, fuel.lt_succ_self, eq⟩⟩

/-- So do counted rounds. -/
lemma goesOn_moreCounted {extra} : GoesOn round next (moreCounted round extra next) := by
  rintro (_ | fuel) state result eq
  · cases eq
  · cases pop : state.popMark with
    | mk count counted =>
      cases pop' : counted.popMark with
      | mk mark popped =>
        have place := (State.popMark_place pop').trans (State.popMark_place pop)
        simp only [moreCounted, pop, pop'] at eq
        split at eq
        · exact ⟨popped, place, .inl eq⟩
        · split at eq
          · rename_i more
            exact ⟨(popped.pushMark _).pushMark _, place, .inr ⟨fuel, fuel.lt_succ_self, more.trans eq⟩⟩
          · exact ⟨popped, place, .inl (Option.ite_none_right_eq_some.mp eq).2⟩

/-- So do counted rounds that prefer fewer. -/
lemma goesOn_fewerCounted {extra} : GoesOn round next (fewerCounted round extra next) := by
  rintro (_ | fuel) state result eq
  · cases eq
  · cases pop : state.popMark with
    | mk count counted =>
      cases pop' : counted.popMark with
      | mk mark popped =>
        have place := (State.popMark_place pop').trans (State.popMark_place pop)
        simp only [fewerCounted, pop, pop'] at eq
        split at eq
        · exact ⟨(popped.pushMark _).pushMark _, place, .inr ⟨fuel, fuel.lt_succ_self, eq⟩⟩
        · split at eq
          · rename_i done
            exact ⟨popped, place, .inl (done.trans eq)⟩
          · have again := (Option.ite_none_right_eq_some.mp eq).2
            exact ⟨(popped.pushMark _).pushMark _, place, .inr ⟨fuel, fuel.lt_succ_self, again⟩⟩

/-- Rounds stay inside the text, if each of them does. -/
lemma GoesOn.staysInside {rounds fuel} (goesOn : GoesOn round next rounds) (sound : StaysInside subject round)
    (eq : rounds fuel state = some result) (le : state.place ≤ subject.codes.size) :
    ∃ after : State, after.place ≤ subject.codes.size ∧ next after = some result := by
  induction fuel using Nat.strongRecOn generalizing state with
  | ind fuel ih =>
    obtain ⟨onward, place, done | ⟨less, lt, more⟩⟩ := goesOn eq
    · exact ⟨onward, place ▸ le, done⟩
    · obtain ⟨after, le', again⟩ := sound more (place ▸ le)
      exact ih less lt again le'

/-- A repetition stays inside the text, if its rounds do. -/
lemma staysInside_repeatGroup (sound : StaysInside subject round) (count : Repeat) :
    StaysInside subject (repeatGroup subject round count) := by
  intro state next result eq le
  -- The first round is one like the others, or it is required.
  have begins : ∀ {rounds fuel} (first required : State), GoesOn round next rounds → first.place = state.place →
      required.place = state.place →
      (if count.least = 0 then rounds fuel first else round required (rounds fuel)) = some result →
      ∃ after : State, after.place ≤ subject.codes.size ∧ next after = some result := by
    intro rounds fuel first required goesOn place place' eq
    split at eq
    · exact goesOn.staysInside sound eq (place ▸ le)
    · obtain ⟨middle, le', more⟩ := sound eq (place' ▸ le)
      exact goesOn.staysInside sound more le'
  simp only [repeatGroup] at eq
  cases reluctant : count.reluctant with
  | false =>
    simp only [reluctant, Bool.false_eq_true, if_false] at eq
    split at eq
    · exact begins (state.pushMark _) (state.pushMark _) goesOn_moreRounds rfl rfl eq
    · exact begins ((state.pushMark _).pushMark _) ((state.pushMark _).pushMark _) goesOn_moreCounted rfl rfl eq
  | true =>
    simp only [reluctant, if_true] at eq
    split at eq
    · exact begins (state.pushMark _) (state.pushMark _) goesOn_fewerRounds rfl rfl eq
    · exact begins ((state.pushMark _).pushMark _) ((state.pushMark _).pushMark _) goesOn_fewerCounted rfl rfl eq

/-- A group is closed where matching stands. -/
lemma exists_of_closeGroup_place {group released} (eq : closeGroup group released next state = some result) :
    ∃ after : State, after.place = state.place ∧ next after = some result := by
  cases pop : state.popMark with
  | mk mark popped =>
    have place := State.popMark_place pop
    simp only [closeGroup, pop] at eq
    cases released with
    | none =>
      refine ⟨_, ?_, eq⟩
      cases group <;> exact place
    | some number =>
      dsimp only at eq
      split at eq
      · cases eq
      · refine ⟨_, ?_, eq⟩
        cases group <;> exact place

/-- Matching begins and ends inside the text, whatever the node. -/
lemma Node.staysInside_run (node : Node) : StaysInside subject (node.run subject) := by
  induction node with
  | empty => exact fun state _ _ eq le => ⟨state, le, eq⟩
  | nothing =>
    rintro _ _ _ ⟨⟩
  | char mode test =>
    intro state next result eq le
    simp only [Node.run] at eq
    split at eq
    · exact ⟨_, read?_le_size le ‹_›, eq⟩
    · cases eq
  | repeatChar mode test count => exact staysInside_repeatChars count
  | backref mode group =>
    intro state next result eq le
    simp only [Node.run] at eq
    split at eq
    · cases eq
    · split at eq
      · exact ⟨_, reread?_le_size le ‹_›, eq⟩
      · cases eq
  | anchor condition =>
    intro state next result eq le
    simp only [Node.run] at eq
    split at eq
    · exact ⟨state, le, eq⟩
    · cases eq
  | seq first second ih ih' =>
    intro state next result eq le
    obtain ⟨middle, le', eq'⟩ := ih eq le
    exact ih' eq' le'
  | alt first second ih ih' =>
    intro state next result eq le
    rw [run_alt] at eq
    rcases Option.or_eq_some_iff.mp eq with eq' | ⟨_, eq'⟩
    · exact ih eq' le
    · exact ih' eq' le
  | loop body count ih => exact staysInside_repeatGroup ih count
  | capture group released body ih =>
    intro state next result eq le
    obtain ⟨middle, le', closed⟩ := ih eq le
    obtain ⟨after, place, found⟩ := exists_of_closeGroup_place closed
    exact ⟨after, place ▸ le', found⟩
  | look positive body _ =>
    intro state next result eq le
    simp only [Node.run] at eq
    split at eq
    · exact ⟨_, by exact le, eq⟩
    · cases eq
    · cases eq
    · exact ⟨state, le, eq⟩
  | atomic body ih =>
    intro state next result eq le
    simp only [Node.run] at eq
    split at eq
    · rename_i found run
      obtain ⟨after, le', same⟩ := ih run le
      cases same
      exact ⟨_, by exact le', eq⟩
    · cases eq
  | ifGroup group yes no ih ih' =>
    intro state next result eq le
    simp only [Node.run] at eq
    split at eq
    · exact ih eq le
    · exact ih' eq le
  | ifMatch condition yes no _ ih ih' =>
    intro state next result eq le
    simp only [Node.run] at eq
    split at eq
    · exact ih eq le
    · exact ih' eq le

/-- A search goes on inside the text, also where its match does not lie there. -/
lemma stop_le_of_find? {node codes start found} (eq : find? node codes start = some found) :
    found.stop ≤ codes.size := by
  obtain ⟨place, _, le, eq'⟩ := exists_of_find? eq
  simp only [matchAt?] at eq'
  split at eq'
  · cases eq'
  · rename_i state run
    obtain ⟨after, le', same⟩ := Node.staysInside_run _ run le
    cases same
    split at eq'
    · cases eq'
    · cases eq'
      exact le'

end Inside

/-- A match of an upright node begins where it was looked for, and the search goes on where it ends. -/
lemma orderly_find? {node} (upright : node.isUpright = true) (codes : Array Nat) :
    Orderly codes.size (find? node codes) where
  start_le start found eq := by
    obtain ⟨place, le, _, eq'⟩ := exists_of_find? eq
    rw [start_of_matchAt? upright eq']
    exact Int.ofNat_le.mpr le
  stop_eq start found eq := by
    obtain ⟨place, _, _, eq'⟩ := exists_of_find? eq
    obtain ⟨_, length, advance, _⟩ := bounds_of_matchAt? upright eq'
    rw [start_of_matchAt? upright eq', length]
    omega
  stop_le start found eq := stop_le_of_find? eq

end Sift.Pattern
