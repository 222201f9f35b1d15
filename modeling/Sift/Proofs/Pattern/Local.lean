import Sift.Proofs.Pattern.Reading

/-!
# Matching on one line

A window is a line in its text. A local node is matched in the whole text as on the line alone, place
by place (`Node.agrees_run`): as long as both stay on the line they are in the same situation, and
whatever the whole text allows beyond the line leads to a match that ends there. So where the whole text
has a match that ends on the line, the line has it too, and where the whole text has none, neither has
the line (`Window.matchAt?`).
-/

namespace Sift.Pattern

/-- A line in its text. Before and behind it stands nothing or a line break. -/
structure Window where
  front : List Nat
  line : List Nat
  back : List Nat
  front_break : front = [] ∨ ∃ rest, front = rest ++ [10]
  back_break : back = [] ∨ ∃ rest, back = 10 :: rest

namespace Window

variable (window : Window)

/-- The text. -/
def whole : List Nat := window.front ++ window.line ++ window.back

/-- Where the line begins. -/
def start : Nat := window.front.length

/-- Where the line ends. -/
def stop : Nat := window.start + window.line.length

lemma length_whole :
    window.whole.length = window.start + window.line.length + window.back.length := by
  rw [whole, List.length_append, List.length_append, start]

lemma length_le_size {subject : Subject} (codes : subject.codes = window.whole.toArray) :
    window.line.length ≤ subject.codes.size := by
  rw [codes, List.size_toArray, window.length_whole]
  omega

/-- Within the window, the text is the line. -/
lemma getElem?_whole {place} (lt : place < window.line.length) :
    window.whole[window.start + place]? = window.line[place]? := by
  rw [whole, start, List.append_assoc, List.getElem?_append_right (Nat.le_add_right _ _),
    Nat.add_sub_cancel_left, List.getElem?_append_left lt]

/-- A line break or the end is behind the line. -/
lemma getElem?_stop : window.whole[window.stop]? = none ∨ window.whole[window.stop]? = some 10 := by
  have eq : window.whole[window.stop]? = window.back[0]? := by
    rw [whole, stop, start, ← List.length_append, List.getElem?_append_right (Nat.le_refl _),
      Nat.sub_self]
  rw [eq]
  rcases window.back_break with none | ⟨rest, some⟩
  · simp [none]
  · simp [some]

/-- A line break is before the line. -/
lemma getElem?_start (pos : 0 < window.start) : window.whole[window.start - 1]? = some 10 := by
  rw [start] at pos
  rcases window.front_break with none | ⟨rest, some⟩
  · simp [none] at pos
  · rw [whole, start, some, List.append_assoc, List.append_assoc, List.length_append]
    simp

end Window

/-- A capture in a text that has more before it. -/
def Capture.shift (offset : Nat) (capture : Capture) : Capture :=
  { capture with start := offset + capture.start }

/-- The capture lies in a text of some size. -/
def Capture.Within (capture : Capture) (size : Nat) : Prop :=
  0 ≤ capture.start ∧ capture.start + capture.length ≤ size

/-- A state of matching in the text and one on the line alone are in the same situation. -/
structure Twin (window : Window) (state own : State) : Prop where
  place_eq : state.place = window.start + own.place
  le : own.place ≤ window.line.length
  captures_eq : state.captures = own.captures.map (Capture.shift window.start)
  captures_within : ∀ capture ∈ own.captures, capture.Within window.line.length

/-- What is found in the text ends beyond the line or is found on the line alone; where nothing is found,
nothing is found on the line alone. -/
def Outcome (window : Window) : Option State → Option State → Prop
  | none, own => own = none
  | some state, own => window.stop < state.place ∨ ∃ own', own = some own' ∧ Twin window state own'

/-- What follows in the text agrees with what follows on the line alone, for all that two states may
lead to. -/
structure Agree (window : Window) (next next' : Continuation) (state own : State) : Prop where
  beyond : ∀ {after result}, window.stop < after.place → after.marks = state.marks →
    next after = some result → window.stop < result.place
  twin : ∀ {after own'}, Twin window after own' → own.place ≤ own'.place →
    after.marks = state.marks → own'.marks = own.marks → Outcome window (next after) (next' own')

/-- A step in the text agrees with one on the line alone. -/
def Agrees (window : Window) (step step' : Step) : Prop :=
  ∀ ⦃state own next next'⦄, Twin window state own → Agree window next next' state own →
    Outcome window (step state next) (step' own next')

section Outcome

variable {window : Window} {next next' : Continuation} {state own : State}

/-- If the first attempts agree and the second ones do, both together do. -/
lemma Outcome.or {first first' second second'} (outcome : Outcome window first first')
    (outcome' : Outcome window second second') :
    Outcome window (first.or second) (first'.or second') := by
  cases first with
  | none =>
    cases outcome
    exact outcome'
  | some found =>
    rcases outcome with beyond | ⟨own', rfl, twin⟩
    · exact .inl beyond
    · exact .inr ⟨own', rfl, twin⟩

/-- What ends beyond the line if at all agrees with finding nothing. -/
lemma outcome_none {found} (beyond : ∀ result, found = some result → window.stop < result.place) :
    Outcome window found none := by
  cases found with
  | none => rfl
  | some result => exact .inl (beyond result rfl)

/-- What follows later agrees if what follows now does. -/
lemma Agree.mono (agree : Agree window next next' state own) {state' own'} (le : own.place ≤ own'.place)
    (marks : state'.marks = state.marks) (marks' : own'.marks = own.marks) : Agree window next next' state' own' where
  beyond lt eq := agree.beyond lt (eq.trans marks)
  twin twin le' eq eq' := agree.twin twin (Nat.le_trans le le') (eq.trans marks) (eq'.trans marks')

lemma Agree.now (agree : Agree window next next' state own) (twin : Twin window state own) :
    Outcome window (next state) (next' own) := agree.twin twin (Nat.le_refl _) rfl rfl

/-- Twins move together. -/
lemma Twin.move (twin : Twin window state own) {place} (le : place ≤ window.line.length) :
    Twin window { state with place := window.start + place } { own with place } :=
  ⟨rfl, le, twin.captures_eq, twin.captures_within⟩

lemma Twin.withMarks (twin : Twin window state own) (marks marks' : List Int) :
    Twin window { state with marks } { own with marks := marks' } :=
  ⟨twin.place_eq, twin.le, twin.captures_eq, twin.captures_within⟩

/-- Places are tried alike. -/
lemma outcome_tryPlaces (twin : Twin window state own) (agree : Agree window next next' state own) {places}
    (bounds : ∀ place ∈ places, own.place ≤ place ∧ place ≤ window.line.length) :
    Outcome window (tryPlaces state next (places.map (window.start + ·)))
      (tryPlaces own next' places) := by
  induction places with
  | nil => rfl
  | cons place rest ih =>
    obtain ⟨⟨ge, le⟩, bounds'⟩ := List.forall_mem_cons.mp bounds
    rw [List.map_cons, tryPlaces_cons, tryPlaces_cons]
    exact (agree.twin (twin.move le) ge rfl rfl).or (ih bounds')

/-- Trying places beyond the line agrees with finding nothing. -/
lemma outcome_tryPlaces_beyond (agree : Agree window next next' state own) {places}
    (far : ∀ place ∈ places, window.stop < place) :
    Outcome window (tryPlaces state next places) none := by
  refine outcome_none fun result eq => ?_
  obtain ⟨place, mem, found⟩ := exists_of_tryPlaces eq
  have behind : window.stop < { state with place }.place := far place mem
  exact agree.beyond behind rfl found

end Outcome

section Reading

variable {window : Window} {subject subject' : Subject}
  (codes : subject.codes = window.whole.toArray) (codes' : subject'.codes = window.line.toArray)
  {mode : Mode} {test : CharTest}
include codes codes'

/-- Within the line, both read the same. -/
lemma read?_window (forward : mode.backward = false) {place} (lt : place < window.line.length) :
    subject.read? mode test (window.start + place) =
      (subject'.read? mode test place).map (window.start + ·) := by
  simp only [Subject.read?, Subject.next?, forward, codes, codes', List.getElem?_toArray,
    Bool.false_eq_true, if_false, window.getElem?_whole lt]
  cases window.line[place]? with
  | none => rfl
  | some c =>
    dsimp only [Option.map_some]
    rw [apply_ite (Option.map _)]
    rfl

/-- Both see the same words. -/
lemma wordAt_window {place} (le : place ≤ window.line.length) :
    subject.wordAt (window.start + place) = subject'.wordAt place := by
  rw [Subject.wordAt, Subject.wordAt, codes, codes', List.getElem?_toArray, List.getElem?_toArray]
  rcases Nat.lt_or_eq_of_le le with lt | rfl
  · rw [window.getElem?_whole lt]
  · rw [List.getElem?_eq_none (Nat.le_refl _)]
    rcases window.getElem?_stop with none | some
    · rw [← Window.stop, none]
    · rw [← Window.stop, some]
      decide

/-- Both see the same boundaries. -/
lemma boundaryAt_window {place} (le : place ≤ window.line.length) :
    subject.boundaryAt (window.start + place) = subject'.boundaryAt place := by
  rw [Subject.boundaryAt, Subject.boundaryAt, wordAt_window codes codes' le]
  refine congrArg (· != subject'.wordAt place) ?_
  cases place with
  | succ place =>
    rw [← Nat.add_assoc, Nat.add_sub_cancel, Nat.add_sub_cancel,
      wordAt_window codes codes' (Nat.le_of_succ_le le)]
    simp
  | zero =>
    by_cases pos : 0 < window.start
    · rw [Nat.add_zero, Subject.wordAt, codes, List.getElem?_toArray, window.getElem?_start pos]
      simp [show Unicode.isWord 10 = false by decide]
    · simp [Nat.eq_zero_of_not_pos pos]

/-- Both see the line begin. -/
lemma holds_lineStart_window {place} (le : place ≤ window.line.length) :
    subject.holds (window.start + place) .lineStart = subject'.holds place .lineStart := by
  rw [Subject.holds, Subject.holds, codes, codes', List.getElem?_toArray, List.getElem?_toArray]
  cases place with
  | succ place =>
    rw [← Nat.add_assoc, Nat.add_sub_cancel, Nat.add_sub_cancel,
      window.getElem?_whole (Nat.lt_of_succ_le le)]
    simp
  | zero =>
    by_cases pos : 0 < window.start
    · rw [Nat.add_zero, window.getElem?_start pos]
      simp
    · simp [Nat.eq_zero_of_not_pos pos]

/-- Both see the line end. -/
lemma holds_lineEnd_window {place} (le : place ≤ window.line.length) :
    subject.holds (window.start + place) .lineEnd = subject'.holds place .lineEnd := by
  have size := window.length_whole
  rw [Subject.holds, Subject.holds, codes, codes', List.getElem?_toArray, List.getElem?_toArray,
    List.size_toArray, List.size_toArray]
  rcases Nat.lt_or_eq_of_le le with lt | rfl
  · have ne : (window.start + place == window.whole.length) = false := beq_false_of_ne (by omega)
    have ne' : (place == window.line.length) = false := beq_false_of_ne (by omega)
    rw [window.getElem?_whole lt, ne, ne']
  · rcases window.getElem?_stop with none | some
    · have stop := List.getElem?_eq_none_iff.mp none
      rw [Window.stop] at stop
      rw [beq_self_eq_true, beq_iff_eq.mpr (by omega), Bool.true_or, Bool.true_or]
    · rw [← Window.stop, some]
      simp

/-- A condition on the characters beside a place of the line holds in the text as on the line alone. -/
lemma holds_window {condition} (isLocal : condition.isLocal = true) {place} (le : place ≤ window.line.length) :
    subject.holds (window.start + place) condition = subject'.holds place condition := by
  cases condition with
  | boundary => exact boundaryAt_window codes codes' le
  | notBoundary => exact congrArg (! ·) (boundaryAt_window codes codes' le)
  | lineStart => exact holds_lineStart_window codes codes' le
  | lineEnd => exact holds_lineEnd_window codes codes' le
  | textStart | searchStart | textEndOrNewline | textEnd => cases isLocal

/-- What is read on in the text from a place of the line is what is read on the line alone, and then
characters beyond the line. -/
lemma readAll_window (forward : mode.backward = false) (limit : Nat) {place} (le : place ≤ window.line.length) :
    ∃ beyond, subject.readAll mode test limit (window.start + place) =
        (subject'.readAll mode test limit place).map (window.start + ·) ++ beyond ∧
      ∀ place ∈ beyond, window.stop < place := by
  induction limit generalizing place with
  | zero => exact ⟨[], rfl, nofun⟩
  | succ limit ih =>
    rcases Nat.lt_or_eq_of_le le with lt | rfl
    · rw [Subject.readAll, Subject.readAll, read?_window codes codes' forward lt]
      cases found : subject'.read? mode test place with
      | none => exact ⟨[], rfl, nofun⟩
      | some after =>
        obtain ⟨c, _, _, rfl⟩ := (read?_eq_some forward).mp found
        obtain ⟨beyond, eq, lt'⟩ := ih (Nat.succ_le_of_lt lt)
        refine ⟨beyond, ?_, lt'⟩
        rw [Option.map_some, List.map_cons, List.cons_append, ← eq]
    · -- The line alone ends here; whatever is read in the text lies beyond.
      obtain ⟨count, eq, _⟩ := @exists_readAll_eq_range' subject mode test forward (limit + 1)
        window.stop
      refine ⟨List.range' (window.stop + 1) count, ?_, fun place mem => ?_⟩
      · rw [← Window.stop, eq, Subject.readAll, read?_of_size_le forward (by simp [codes']),
          List.map_nil, List.nil_append]
      · rw [List.mem_range'_1] at mem
        omega

/-- The places behind a repetition of one character in the text are those on the line alone, and then
places beyond the line. -/
lemma places_window (forward : mode.backward = false) (most : Option Nat) {place : Nat}
    (le : place ≤ window.line.length) :
    ∃ places beyond,
      place :: subject'.readAll mode test
          ((most.getD subject'.codes.size).min subject'.codes.size) place = places ∧
      (window.start + place) :: subject.readAll mode test
          ((most.getD subject.codes.size).min subject.codes.size) (window.start + place) =
        places.map (window.start + ·) ++ beyond ∧
      (∀ q ∈ places, place ≤ q ∧ q ≤ window.line.length) ∧
      ∀ q ∈ beyond, window.stop < q := by
  have size := window.length_le_size codes
  have size' : subject'.codes.size = window.line.length := by rw [codes', List.size_toArray]
  -- The limits differ only where the line alone does not reach them.
  have limits : subject'.readAll mode test ((most.getD subject'.codes.size).min subject'.codes.size)
      place = subject'.readAll mode test ((most.getD subject.codes.size).min subject.codes.size)
        place := by
    rw [Nat.min_eq_min, Nat.min_eq_min, size']
    cases most with
    | none => exact readAll_eq_readAll forward (by simp; omega) (by simp; omega)
    | some most =>
      rw [Option.getD_some, Option.getD_some]
      by_cases reached : most ≤ window.line.length
      · rw [Nat.min_eq_left reached, Nat.min_eq_left (by omega)]
      · exact readAll_eq_readAll forward (by omega) (by omega)
  obtain ⟨beyond, eq, far⟩ := readAll_window codes codes' forward
    ((most.getD subject.codes.size).min subject.codes.size) le
  obtain ⟨count, range, bounded⟩ := @exists_readAll_eq_range' subject' mode test forward
    ((most.getD subject'.codes.size).min subject'.codes.size) place
  refine ⟨_, beyond, rfl, ?_, ?_, far⟩
  · rw [eq, limits, List.map_cons, List.cons_append]
  · intro q mem
    have := bounded (by omega)
    rw [range] at mem
    rcases List.mem_cons.mp mem with rfl | mem'
    · omega
    · rw [List.mem_range'_1] at mem'
      omega

/-- A repeated character agrees. -/
lemma agrees_repeatChars (forward : mode.backward = false) (count : Repeat) :
    Agrees window (repeatChars subject mode test count) (repeatChars subject' mode test count) := by
  intro state own next next' twin agree
  obtain ⟨places, beyond, eq', eq, bounds, far⟩ :=
    @places_window _ _ _ codes codes' mode test forward count.most _ twin.le
  simp only [repeatChars, twin.place_eq, eq', eq, List.drop_append, ← List.map_drop]
  have near : ∀ q ∈ places.drop count.least, own.place ≤ q ∧ q ≤ window.line.length :=
    fun q mem => bounds q (List.mem_of_mem_drop mem)
  have behind : ∀ q ∈ beyond.drop (count.least - (places.map (window.start + ·)).length),
      window.stop < q := fun q mem => far q (List.mem_of_mem_drop mem)
  split
  -- Places beyond the line are tried last by a reluctant repetition, and first by one that is not.
  · rw [tryPlaces_append, ← Option.or_none (o := tryPlaces own _ _)]
    exact (outcome_tryPlaces twin agree near).or (outcome_tryPlaces_beyond agree behind)
  · rw [List.reverse_append, tryPlaces_append, ← List.map_reverse]
    refine Outcome.or (outcome_tryPlaces_beyond agree fun q mem => ?_)
      (outcome_tryPlaces twin agree fun q mem => ?_)
    · exact behind q (List.mem_reverse.mp mem)
    · exact near q (List.mem_reverse.mp mem)

end Reading

section Rounds

variable {window : Window} {subject : Subject} {round round' : Step} {next next' : Continuation}

/-- Two marks stand for the same place of the line, or for none. -/
def SameMark (window : Window) (mark mark' : Int) : Prop :=
  ∀ place : Nat, ((window.start + place : Nat) : Int) = mark ↔ (place : Int) = mark'

lemma sameMark_place (place : Nat) : SameMark window (window.start + place : Nat) place := by
  intro place'
  omega

lemma sameMark_neg_one : SameMark window (-1) (-1) := by
  intro place
  omega

/-- Rounds without limit that begin beyond the line end there. -/
lemma beyond_moreRounds (sound : LeadsAll subject 0 round) {state own} (agree : Agree window next next' state own)
    {fuel mark after result} (lt : window.stop < after.place) (marks_eq : after.marks = mark :: state.marks)
    (eq : moreRounds round next fuel after = some result) : window.stop < result.place := by
  obtain ⟨place, _, captures⟩ := after
  obtain rfl := marks_eq
  obtain ⟨after', leads, found⟩ := leads_moreRounds sound eq
  exact agree.beyond (Nat.lt_of_lt_of_le lt leads.le) leads.marks_eq found

/-- Counted rounds that are beyond the line stay there. -/
lemma beyond_moreCounted (sound : LeadsAll subject 0 round) {state own} (agree : Agree window next next' state own)
    {extra fuel count mark after result} (lt : window.stop < after.place)
    (marks_eq : after.marks = count :: mark :: state.marks)
    (eq : moreCounted round extra next fuel after = some result) : window.stop < result.place := by
  obtain ⟨place, _, captures⟩ := after
  obtain rfl := marks_eq
  obtain ⟨after', leads, found⟩ := leads_moreCounted sound eq
  exact agree.beyond (Nat.lt_of_lt_of_le lt leads.le) leads.marks_eq found

/-- Rounds without limit agree if there is fuel for all characters of the line that are left, for a round
that reads nothing, and for the end. -/
lemma agree_moreRounds (sound : LeadsAll subject 0 round) (agrees : Agrees window round round')
    {fuel fuel' state own mark mark'} (agree : Agree window next next' state own)
    (same : SameMark window mark mark') (enough : ∀ place : Nat, own.place ≤ place →
      window.line.length + (if (place : Int) = mark' then 1 else 2) ≤ place + min fuel fuel') :
    Agree window (moreRounds round next fuel) (moreRounds round' next' fuel')
      (state.pushMark mark) (own.pushMark mark') := by
  refine ⟨beyond_moreRounds sound agree, ?_⟩
  -- The two texts have different fuel. It is enough in both as long as a round that goes on has read
  -- something since the mark, so that each round either brings the end of the line nearer or is the last.
  induction fuel generalizing fuel' state own mark mark' with
  | zero =>
    intro after own' twin le _ _
    have bound := twin.le
    have enough' := enough own'.place le
    split at enough' <;> omega
  | succ fuel ih =>
    rintro ⟨place, _, captures⟩ ⟨place', _, captures'⟩ twin le rfl rfl
    have eq : place = window.start + place' := twin.place_eq
    have bound : place' ≤ window.line.length := twin.le
    have enough' := enough place' le
    cases fuel' with
    | zero => split at enough' <;> omega
    | succ fuel' =>
      have now := agree.twin (twin.withMarks state.marks own.marks) le rfl rfl
      rw [State.pushMark, State.pushMark, moreRounds_succ, moreRounds_succ]
      by_cases done : (place' : Int) = mark'
      · rw [if_pos done, if_pos (eq ▸ (same place').mpr done)]
        exact now
      · rw [if_neg done, if_neg (eq ▸ mt (same place').mp done)]
        rw [if_neg done] at enough'
        have later : Agree window next next' ⟨place, state.marks, captures⟩
            ⟨place', own.marks, captures'⟩ := agree.mono le rfl rfl
        refine Outcome.or (agrees (twin.withMarks _ _) ⟨beyond_moreRounds sound later, ?_⟩) now
        refine ih later (eq ▸ sameMark_place place') fun after le' => ?_
        have : place' ≤ after := le'
        split <;> omega

/-- Counted rounds agree if there is fuel besides for the rounds that are still required. -/
lemma agree_moreCounted (sound : LeadsAll subject 0 round) (agrees : Agrees window round round')
    {extra fuel fuel' state own count mark mark'} (agree : Agree window next next' state own)
    (same : SameMark window mark mark') (enough : ∀ place : Nat, own.place ≤ place →
      (-count).toNat + window.line.length + (if (place : Int) = mark' then 1 else 2) ≤
        place + min fuel fuel') :
    Agree window (moreCounted round extra next fuel) (moreCounted round' extra next' fuel')
      ((state.pushMark mark).pushMark count) ((own.pushMark mark').pushMark count) := by
  refine ⟨beyond_moreCounted sound agree, ?_⟩
  induction fuel generalizing fuel' state own count mark mark' with
  | zero =>
    intro after own' twin le _ _
    have bound := twin.le
    have enough' := enough own'.place le
    split at enough' <;> omega
  | succ fuel ih =>
    rintro ⟨place, _, captures⟩ ⟨place', _, captures'⟩ twin le rfl rfl
    have eq : place = window.start + place' := twin.place_eq
    have bound : place' ≤ window.line.length := twin.le
    have enough' := enough place' le
    cases fuel' with
    | zero => split at enough' <;> omega
    | succ fuel' =>
      have now := agree.twin (twin.withMarks state.marks own.marks) le rfl rfl
      have still : decide ((place : Int) = mark) = decide ((place' : Int) = mark') :=
        eq ▸ decide_eq_decide.mpr (same place')
      simp only [State.pushMark]
      rw [moreCounted_succ, moreCounted_succ, still]
      split
      · exact now
      · rename_i further
        have later : Agree window next next' ⟨place, state.marks, captures⟩
            ⟨place', own.marks, captures'⟩ := agree.mono le rfl rfl
        refine Outcome.or (agrees (twin.withMarks _ _) ⟨beyond_moreCounted sound later, ?_⟩) ?_
        · refine ih later (eq ▸ sameMark_place place') fun after le' => ?_
          have : place' ≤ after := le'
          -- A round was required, or the round before has read something.
          have needed : ¬ ((place' : Int) = mark' ∧ 0 ≤ count) := by
            rintro ⟨read, zero⟩
            exact further (by simp [read, zero])
          split at enough' <;> split <;> omega
        · split
          · exact now
          · rfl

/-- A repetition agrees if its rounds do. -/
lemma agrees_repeatGroup {subject'} (codes : subject.codes = window.whole.toArray)
    (codes' : subject'.codes = window.line.toArray) (sound : LeadsAll subject 0 round)
    (agrees : Agrees window round round') {count} (greedy : count.reluctant = false) :
    Agrees window (repeatGroup subject round count) (repeatGroup subject' round' count) := by
  intro state own next next' twin agree
  have size := window.length_le_size codes
  have size' : subject'.codes.size = window.line.length := by rw [codes', List.size_toArray]
  have own_place : SameMark window state.place own.place := twin.place_eq ▸ sameMark_place own.place
  simp only [repeatGroup, greedy, Bool.false_eq_true, if_false]
  split
  · split
    · refine (agree_moreRounds sound agrees agree sameMark_neg_one fun place le => ?_).now
        (twin.withMarks _ _)
      split <;> omega
    · refine agrees (twin.withMarks _ _)
        (agree_moreRounds sound agrees agree own_place fun place le => ?_)
      split <;> omega
  · split
    · refine (agree_moreCounted sound agrees agree sameMark_neg_one fun place le => ?_).now
        (twin.withMarks _ _)
      split <;> omega
    · refine agrees (twin.withMarks _ _)
        (agree_moreCounted sound agrees agree own_place fun place le => ?_)
      split <;> omega

end Rounds

/-- Closing a group agrees if what follows does. -/
lemma agree_closeGroup {window group next next' state own} (twin : Twin window state own)
    (agree : Agree window next next' state own) :
    Agree window (closeGroup group none next) (closeGroup group none next')
      (state.pushMark state.place) (own.pushMark own.place) := by
  refine ⟨?_, ?_⟩
  · rintro ⟨place, _, captures⟩ result lt rfl found
    rw [State.pushMark, closeGroup_none] at found
    refine agree.beyond ?_ ?_ found
    · exact lt
    · rfl
  · rintro ⟨place, _, captures⟩ ⟨place', _, captures'⟩ twin' le rfl rfl
    rw [State.pushMark, State.pushMark, closeGroup_none, closeGroup_none]
    have eq : place = window.start + place' := twin'.place_eq
    have bound : place' ≤ window.line.length := twin'.le
    have le' : own.place ≤ place' := le
    refine agree.twin ⟨eq, bound, ?_, ?_⟩ le rfl rfl
    · cases group with
      | none => exact twin'.captures_eq
      | some group =>
        rw [twin.place_eq, eq, recorded_of_le (Nat.add_le_add_left le' _), recorded_of_le le', List.map_cons,
          Nat.add_sub_add_left]
        exact congrArg (List.cons _) twin'.captures_eq
    · cases group with
      | none => exact twin'.captures_within
      | some group =>
        rw [recorded_of_le le']
        refine List.forall_mem_cons.mpr ⟨⟨Int.natCast_nonneg _, ?_⟩, twin'.captures_within⟩
        dsimp only
        omega

/-- A local node matches alike in the text and in the line. -/
lemma Node.agrees_run {window subject subject'} (codes : subject.codes = window.whole.toArray)
    (codes' : subject'.codes = window.line.toArray) {node : Node} (isLocal : node.isLocal = true) :
    Agrees window (node.run subject) (node.run subject') := by
  induction node with
  | empty => exact fun state own next next' twin agree => agree.now twin
  | nothing => exact fun _ _ _ _ _ _ => rfl
  | char mode test =>
    have forward : mode.backward = false := by simpa [Node.isLocal] using isLocal
    intro state own next next' twin agree
    simp only [Node.run, twin.place_eq]
    rcases Nat.lt_or_eq_of_le twin.le with lt | eq
    · rw [read?_window codes codes' forward lt]
      cases found : subject'.read? mode test own.place with
      | none => rfl
      | some after =>
        obtain ⟨c, _, _, rfl⟩ := (read?_eq_some forward).mp found
        exact agree.twin (twin.move lt) (Nat.le_succ _) rfl rfl
    · -- The line alone ends here, and whatever is read in the text lies beyond.
      have none := @read?_of_size_le subject' mode test forward own.place (by simp [codes', eq])
      rw [none]
      refine outcome_none fun result eq' => ?_
      split at eq'
      · rename_i after found
        obtain ⟨c, _, _, rfl⟩ := (read?_eq_some forward).mp found
        refine agree.beyond ?_ ?_ eq'
        · dsimp only
          rw [Window.stop, eq]
          omega
        · rfl
      · cases eq'
  | repeatChar mode test count =>
    exact agrees_repeatChars codes codes' (by simpa [Node.isLocal] using isLocal) count
  | anchor condition =>
    intro state own next next' twin agree
    simp only [Node.run, twin.place_eq, holds_window codes codes' isLocal twin.le]
    split
    · exact agree.now twin
    · rfl
  | seq first second ih ih' =>
    obtain ⟨local₁, local₂⟩ := Bool.and_eq_true_iff.mp isLocal
    intro state own next next' twin agree
    -- What follows the first node is the second one, and it agrees by what the second one leads to.
    refine ih local₁ twin ⟨?_, ?_⟩
    · intro after result lt marks_eq found
      obtain ⟨after', leads, found'⟩ := Node.leads_run (isUpright_of_isLocal local₂) found
      exact agree.beyond (Nat.lt_of_lt_of_le lt (Nat.le_of_add_right_le leads.le))
        (leads.marks_eq.trans marks_eq) found'
    · intro after own' twin' le marks_eq marks_eq'
      exact ih' local₂ twin' (agree.mono le marks_eq marks_eq')
  | alt first second ih ih' =>
    obtain ⟨local₁, local₂⟩ := Bool.and_eq_true_iff.mp isLocal
    intro state own next next' twin agree
    rw [run_alt, run_alt]
    exact (ih local₁ twin agree).or (ih' local₂ twin agree)
  | loop body count ih =>
    obtain ⟨greedy, body_local⟩ := Bool.and_eq_true_iff.mp isLocal
    exact agrees_repeatGroup codes codes' (Node.leads_run (isUpright_of_isLocal body_local)).toZero (ih body_local)
      (by simpa using greedy)
  | capture group released body ih =>
    obtain ⟨none, body_local⟩ := Bool.and_eq_true_iff.mp isLocal
    obtain rfl := Option.isNone_iff_eq_none.mp none
    intro state own next next' twin agree
    exact ih body_local (twin.withMarks _ _) (agree_closeGroup twin agree)
  | backref _ _ | look _ _ _ | atomic _ _ | ifGroup _ _ _ _ _ | ifMatch _ _ _ _ _ _ => cases isLocal

/-- A match in a text that has more before it. -/
def Match.shift (offset : Nat) (found : Match) : Match :=
  ⟨offset + found.start, found.length, offset + found.stop,
    found.captures.map (Capture.shift offset)⟩

/-- Where a local node has a match in the text, the match ends beyond the line, or the line alone has it,
with captures on the line; and where it has none in the text, it has none on the line alone. -/
lemma Window.matchAt? {window : Window} {subject subject'} (codes : subject.codes = window.whole.toArray)
    (codes' : subject'.codes = window.line.toArray) {node : Node} (isLocal : node.isLocal = true) {place}
    (le : place ≤ window.line.length) :
    match Pattern.matchAt? node subject (window.start + place) with
    | none => Pattern.matchAt? node subject' place = none
    | some found => window.stop < found.stop ∨
        ∃ own, Pattern.matchAt? node subject' place = some own ∧ found = own.shift window.start ∧
          ∀ capture ∈ own.captures, capture.Within window.line.length := by
  have twin : Twin window ⟨window.start + place, [], []⟩ ⟨place, [], []⟩ :=
    ⟨rfl, le, rfl, nofun⟩
  have agree : Agree window some some ⟨window.start + place, [], []⟩ ⟨place, [], []⟩ := by
    refine ⟨?_, ?_⟩
    · rintro after result lt _ ⟨⟩
      exact lt
    · intro after own' twin' _ _ _
      exact .inr ⟨own', rfl, twin'⟩
  have outcome := @Node.agrees_run window subject subject' codes codes'
    (.capture (some 0) none node) isLocal _ _ _ _ twin agree
  have upright := Node.isUpright_of_isLocal isLocal
  rw [matchAt?_eq_map upright, matchAt?_eq_map upright]
  cases run : (Node.capture (some 0) none node).run subject ⟨window.start + place, [], []⟩ some with
  | none =>
    rw [run] at outcome
    exact Option.map_eq_none_iff.mpr outcome
  | some state =>
    rw [run] at outcome
    rcases outcome with beyond | ⟨own', run', twin'⟩
    · exact .inl beyond
    · refine .inr ⟨.ofState place own', by rw [run', Option.map_some], ?_, twin'.captures_within⟩
      rw [Match.ofState, Match.ofState, Match.shift, twin'.place_eq, twin'.captures_eq,
        Nat.add_sub_add_left]
      rfl

end Sift.Pattern
