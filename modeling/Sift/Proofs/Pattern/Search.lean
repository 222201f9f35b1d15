import Sift.Proofs.Lines
import Sift.Proofs.Pattern.Local

/-!
# Searching on one line

`Scan` says what a search finds: the first match from a place on, and then what a search from its end
finds. The matches of a text are such a scan (`scan_findAll`). In a window, the matches that begin on
the line are those of the line alone just when none of them ends beyond the line and no match from
before the line runs into a match of the line alone (`Window.filter_scan_eq_iff`). For the lines of a
text this reads `filter_matchesIn_eq_iff`.
-/

namespace Sift.Pattern

/-- What a search from a place finds: the first match, and then what a search from its end finds. -/
inductive Scan (node : Node) (codes : List Nat) : Nat → List Match → Prop where
  | done {start : Nat}
    (none : ∀ place, start ≤ place → place ≤ codes.length →
      matchAt? node ⟨codes.toArray, 0⟩ place = none) :
    Scan node codes start []
  | found {start place : Nat} {found : Match} {rest : List Match} (le : start ≤ place)
    (bounded : place ≤ codes.length)
    (none : ∀ earlier, start ≤ earlier → earlier < place →
      matchAt? node ⟨codes.toArray, 0⟩ earlier = none)
    (eq : matchAt? node ⟨codes.toArray, 0⟩ place = some found)
    (later : Scan node codes found.stop rest) :
    Scan node codes start (found :: rest)

/-- A text without anything around it. -/
def Window.ofText (codes : List Nat) : Window := ⟨[], codes, [], .inl rfl, .inl rfl⟩

lemma Match.shift_zero (found : Match) : found.shift 0 = found := by
  have same : Capture.shift 0 = id := by
    funext capture
    exact congrArg (Capture.mk capture.group · capture.length) (Int.zero_add capture.start)
  rw [Match.shift, Nat.zero_add, same, List.map_id]
  exact congrArg (Match.mk · found.length found.stop found.captures) (Int.zero_add found.start)

section Local

variable {node : Node} (isLocal : node.isLocal = true)
include isLocal

/-- Where a search began does not matter to a local node, and its captures stay in the text. -/
lemma matchAt?_ofText {codes : List Nat} {place} (le : place ≤ codes.length) (start start' : Nat) :
    matchAt? node ⟨codes.toArray, start⟩ place = matchAt? node ⟨codes.toArray, start'⟩ place ∧
      ∀ found, matchAt? node ⟨codes.toArray, start⟩ place = some found →
        ∀ capture ∈ found.captures, capture.Within codes.length := by
  have whole : codes.toArray = (Window.ofText codes).whole.toArray := by simp [Window.ofText, Window.whole]
  have cases := @Window.matchAt? (.ofText codes) ⟨codes.toArray, start⟩ ⟨codes.toArray, start'⟩ whole rfl
    node isLocal place le
  rw [show (Window.ofText codes).start + place = place from Nat.zero_add place] at cases
  cases eq : matchAt? node ⟨codes.toArray, start⟩ place with
  | none =>
    rw [eq] at cases
    refine ⟨cases.symm, ?_⟩
    rintro _ ⟨⟩
  | some found =>
    rw [eq] at cases
    have stop : found.stop ≤ codes.length := (bounds_of_matchAt? (Node.isUpright_of_isLocal isLocal) eq).2.2.2 le
    rcases cases with beyond | ⟨own, eq', rfl, captures_within⟩
    · -- Nothing lies beyond a text.
      have length : (Window.ofText codes).stop = codes.length := Nat.zero_add _
      omega
    · rw [show (Window.ofText codes).start = 0 from rfl, Match.shift_zero]
      refine ⟨eq'.symm, ?_⟩
      rintro _ ⟨⟩
      exact captures_within

/-- A search over places finds the first match among them. -/
lemma findAmong_cases (codes : List Nat) (start : Nat) {count place} (all : codes.length + 1 - place = count) :
    match findAmong node ⟨codes.toArray, start⟩ count place with
    | none => ∀ later, place ≤ later → later ≤ codes.length →
        matchAt? node ⟨codes.toArray, 0⟩ later = none
    | some found => ∃ later, place ≤ later ∧ later ≤ codes.length ∧
        (∀ earlier, place ≤ earlier → earlier < later →
          matchAt? node ⟨codes.toArray, 0⟩ earlier = none) ∧
        matchAt? node ⟨codes.toArray, 0⟩ later = some found := by
  induction count generalizing place with
  | zero =>
    intro later le le'
    omega
  | succ count ih =>
    have le : place ≤ codes.length := by omega
    rw [findAmong, (matchAt?_ofText isLocal le start 0).1]
    cases here : matchAt? node ⟨codes.toArray, 0⟩ place with
    | some found => exact ⟨place, Nat.le_refl _, le, fun earlier le lt => by omega, here⟩
    | none =>
      have ih' := @ih (place + 1) (by omega)
      dsimp only
      split
      · rename_i none
        rw [none] at ih'
        intro later le le'
        rcases Nat.eq_or_lt_of_le le with rfl | lt
        · exact here
        · exact ih' later lt le'
      · rename_i found some
        rw [some] at ih'
        obtain ⟨later, le, bounded, none, eq⟩ := ih'
        refine ⟨later, by omega, bounded, fun earlier le' lt => ?_, eq⟩
        rcases Nat.eq_or_lt_of_le le' with rfl | lt'
        · exact here
        · exact none earlier lt' lt

variable (reads : 0 < node.least)
include reads

/-- A search with enough fuel is a scan. -/
lemma scan_findAllFrom (codes : List Nat) {fuel start} (enough : codes.length + 2 ≤ fuel + start) :
    Scan node codes start (findAllFrom find? node codes.toArray fuel start) := by
  induction fuel generalizing start with
  | zero => exact .done fun place le le' => by omega
  | succ fuel ih =>
    have first := @findAmong_cases node isLocal codes start _ start rfl
    rw [findAllFrom, find?, List.size_toArray]
    split
    · rename_i none
      rw [none] at first
      exact .done first
    · rename_i found some
      rw [some] at first
      obtain ⟨place, le, bounded, none, eq⟩ := first
      obtain ⟨_, length, advance, stop⟩ := bounds_of_matchAt? (Node.isUpright_of_isLocal isLocal) eq
      -- A match that reads something moves the search on, so that the fuel lasts.
      have stop' : found.stop ≤ codes.length := stop bounded
      have nonempty : found.length ≠ 0 := by omega
      simp only [Match.next, nonempty, if_false, stop', if_true]
      exact .found le bounded none eq (ih (by omega))

/-- All matches are what a scan finds. -/
lemma scan_findAll (codes : List Nat) : Scan node codes 0 (findAll node codes.toArray) :=
  scan_findAllFrom isLocal reads codes (Nat.le_refl _)

end Local

namespace Scan

variable {node : Node} {codes : List Nat} {start : Nat} {found : List Match}

/-- A match that a scan finds begins behind the start of the scan and was looked for where it begins. -/
lemma start_le_start (isLocal : node.isLocal = true) (scan : Scan node codes start found) :
    ∀ first ∈ found, start ≤ first.place ∧ first.place ≤ first.stop ∧ first.place ≤ codes.length ∧
      matchAt? node ⟨codes.toArray, 0⟩ first.place = some first := by
  induction scan with
  | done _ => exact nofun
  | @found start place first rest le bounded _ eq _ ih =>
    obtain ⟨rfl, _, advance, _⟩ := bounds_of_matchAt? (Node.isUpright_of_isLocal isLocal) eq
    refine List.forall_mem_cons.mpr ⟨⟨le, by omega, bounded, eq⟩, fun later mem => ?_⟩
    obtain ⟨ge, later_facts⟩ := ih later mem
    exact ⟨by omega, later_facts⟩

/-- Of two matches that a scan finds, the first ends before the second begins. -/
lemma stop_le_start (isLocal : node.isLocal = true) (scan : Scan node codes start found) {first second}
    (mem : first ∈ found) (mem' : second ∈ found) (lt : first.place < second.place) : first.stop ≤ second.place := by
  induction scan with
  | done _ => cases mem
  | @found _ _ here rest _ _ _ eq later ih =>
    obtain ⟨_, _, advance, _⟩ := bounds_of_matchAt? (Node.isUpright_of_isLocal isLocal) eq
    rcases List.mem_cons.mp mem with rfl | mem_rest
    · rcases List.mem_cons.mp mem' with rfl | mem_rest'
      · omega
      · exact (later.start_le_start isLocal second mem_rest').1
    · rcases List.mem_cons.mp mem' with rfl | mem_rest'
      · have := (later.start_le_start isLocal first mem_rest).1
        omega
      · exact ih mem_rest mem_rest'

/-- A scan may begin later, as long as it begins before its first match. -/
lemma from_later (isLocal : node.isLocal = true) (scan : Scan node codes start found) {start'} (le : start ≤ start')
    (before : ∀ first ∈ found, start' ≤ first.place) :
    Scan node codes start' found := by
  cases scan with
  | done none => exact .done fun place le' => none place (Nat.le_trans le le')
  | found le' bounded none eq later =>
    obtain ⟨rfl, _⟩ := bounds_of_matchAt? (Node.isUpright_of_isLocal isLocal) eq
    exact .found (before _ List.mem_cons_self) bounded
      (fun earlier le'' => none earlier (Nat.le_trans le le'')) eq later

/-- A scan parts at a place: some matches begin before it, and the others are found by a scan from there or
from the end of the last of these. -/
lemma exists_split (isLocal : node.isLocal = true) (scan : Scan node codes start found) {place} (le : start ≤ place) :
    ∃ before behind start', found = before ++ behind ∧ (∀ first ∈ before, first.place < place) ∧
      place ≤ start' ∧ (start' = place ∨ ∃ first ∈ before, start' = first.stop) ∧
      Scan node codes start' behind := by
  induction scan with
  | done none =>
    exact ⟨[], [], place, rfl, nofun, Nat.le_refl _, .inl rfl,
      .done fun later le' => none later (Nat.le_trans le le')⟩
  | @found start here first rest le' bounded none eq later ih =>
    obtain ⟨rfl, _, advance, _⟩ := bounds_of_matchAt? (Node.isUpright_of_isLocal isLocal) eq
    by_cases lt : first.place < place
    · by_cases reach : first.stop ≤ place
      · obtain ⟨before, behind, start', rfl, all, ge, or, scan'⟩ := ih reach
        refine ⟨first :: before, behind, start', rfl, List.forall_mem_cons.mpr ⟨lt, all⟩, ge, ?_, scan'⟩
        exact or.imp_right fun ⟨last, mem, eq'⟩ => ⟨last, List.mem_cons_of_mem _ mem, eq'⟩
      · -- The match runs over the place, and the search goes on from its end.
        exact ⟨[first], rest, first.stop, rfl, List.forall_mem_singleton.mpr lt, by omega,
          .inr ⟨first, List.mem_singleton_self _, rfl⟩, later⟩
    · refine ⟨[], first :: rest, place, rfl, nofun, Nat.le_refl _, .inl rfl, ?_⟩
      exact .found (by omega) bounded (fun earlier le'' => none earlier (Nat.le_trans le le'')) eq later

lemma eq_nil (scan : Scan node codes start found)
    (none : ∀ place, start ≤ place → place ≤ codes.length →
      matchAt? node ⟨codes.toArray, 0⟩ place = none) : found = [] := by
  cases scan with
  | done _ => rfl
  | found le bounded _ eq _ =>
    rw [none _ le bounded] at eq
    cases eq

/-- A scan finds one thing only. -/
lemma unique (scan : Scan node codes start found) {other} (scan' : Scan node codes start other) : other = found := by
  induction scan generalizing other with
  | done none => exact scan'.eq_nil none
  | @found start place first rest le bounded none eq later ih =>
    cases scan' with
    | done none' =>
      rw [none' place le bounded] at eq
      cases eq
    | @found _ place' _ _ le' bounded' none' eq' later' =>
      -- Neither match comes before the other.
      obtain rfl : place' = place := by
        rcases Nat.lt_trichotomy place' place with lt | same | lt
        · rw [none place' le' lt] at eq'
          cases eq'
        · exact same
        · rw [none' place le lt] at eq
          cases eq
      obtain rfl := Option.some.inj (eq'.symm.trans eq)
      rw [ih later']

end Scan

namespace Window

variable {window : Window} {node : Node}

lemma matchAt?_none (isLocal : node.isLocal = true) {place} (le : place ≤ window.line.length)
    (none : Pattern.matchAt? node ⟨window.whole.toArray, 0⟩ (window.start + place) = none) :
    Pattern.matchAt? node ⟨window.line.toArray, 0⟩ place = .none := by
  have cases := @Window.matchAt? window ⟨window.whole.toArray, 0⟩ ⟨window.line.toArray, 0⟩ rfl rfl node
    isLocal place le
  rwa [none] at cases

/-- Where the text has a match that ends on the line, the line alone has it. -/
lemma matchAt?_some (isLocal : node.isLocal = true) {place} (le : place ≤ window.line.length) {found}
    (some : Pattern.matchAt? node ⟨window.whole.toArray, 0⟩ (window.start + place) = some found)
    (stop : found.stop ≤ window.stop) :
    ∃ own, Pattern.matchAt? node ⟨window.line.toArray, 0⟩ place = .some own ∧
      found = own.shift window.start := by
  have cases := @Window.matchAt? window ⟨window.whole.toArray, 0⟩ ⟨window.line.toArray, 0⟩ rfl rfl node
    isLocal place le
  rw [some] at cases
  rcases cases with beyond | ⟨own, eq, eq', _⟩
  · omega
  · exact ⟨own, eq, eq'⟩

/-- Scans from the same place of the line find the same on the line, if no match that begins on it ends
beyond. -/
lemma scan_eq (isLocal : node.isLocal = true) {start place found own} (scan : Scan node window.whole place found)
    (eq : place = window.start + start) (scan' : Scan node window.line start own)
    (within : ∀ first ∈ found, first.place ≤ window.stop → first.stop ≤ window.stop) :
    found.filter (·.place ≤ window.stop) = own.map (Match.shift window.start) := by
  have stop : window.stop = window.start + window.line.length := rfl
  have length := window.length_whole
  induction scan generalizing start own with
  | done none =>
    have nil := scan'.eq_nil fun place' le le' =>
      matchAt?_none isLocal le' (none _ (by omega) (by omega))
    rw [nil]
    rfl
  | @found place here first rest le bounded none found later ih =>
    obtain ⟨rfl, _, advance, _⟩ := bounds_of_matchAt? (Node.isUpright_of_isLocal isLocal) found
    by_cases on : first.place ≤ window.stop
    · -- The line alone has this match, and none before it.
      obtain ⟨offset, offset_eq⟩ : ∃ offset, first.place = window.start + offset :=
        ⟨first.place - window.start, by omega⟩
      obtain ⟨own_first, own_eq, rfl⟩ := matchAt?_some isLocal (by omega) (offset_eq ▸ found)
        (within first List.mem_cons_self on)
      cases scan' with
      | done none' =>
        rw [none' offset (by omega) (by omega)] at own_eq
        cases own_eq
      | @found _ offset' _ own_rest le' bounded' none' own_eq' later' =>
        obtain rfl : offset' = offset := by
          rcases Nat.lt_trichotomy offset' offset with lt | eq' | gt
          · rw [matchAt?_none isLocal bounded' (none _ (by omega) (by omega))] at own_eq'
            cases own_eq'
          · exact eq'
          · rw [none' offset (by omega) gt] at own_eq
            cases own_eq
        cases own_eq.symm.trans own_eq'
        rw [List.filter_cons_of_pos (by simpa using on), List.map_cons,
          ih rfl later' fun second mem => within second (List.mem_cons_of_mem _ mem)]
    · -- This match and all that follow begin beyond the line.
      have nil := scan'.eq_nil fun place' le' bounded' =>
        matchAt?_none isLocal bounded' (none _ (by omega) (by omega))
      rw [nil, List.map_nil, List.filter_eq_nil_iff]
      refine List.forall_mem_cons.mpr ⟨by simpa using on, fun second mem => ?_⟩
      have behind := (later.start_le_start isLocal second mem).1
      simp only [decide_eq_true_eq]
      omega

/-- A scan of a text finds on the line what a scan of the line alone finds just when no match that begins
on the line ends beyond it, and no match from before the line runs into a match of the line alone. -/
lemma filter_scan_eq_iff (isLocal : node.isLocal = true) {found own} (scan : Scan node window.whole 0 found)
    (scan' : Scan node window.line 0 own) :
    (found.filter fun first => window.start ≤ first.place && first.place ≤ window.stop) =
        own.map (Match.shift window.start) ↔
      (∀ first ∈ found, window.start ≤ first.place → first.place ≤ window.stop →
        first.stop ≤ window.stop) ∧
      ∀ first ∈ found, first.place < window.start →
        ∀ second ∈ own, first.stop ≤ window.start + second.place := by
  constructor
  · intro eq
    refine ⟨fun first mem le le' => ?_, fun first mem lt second mem' => ?_⟩
    · -- The match is one of the line alone.
      have chosen : first ∈ own.map (Match.shift window.start) :=
        eq ▸ List.mem_filter.mpr ⟨mem, by simp [le, le']⟩
      obtain ⟨second, mem', rfl⟩ := List.mem_map.mp chosen
      obtain ⟨_, _, bounded, found⟩ := scan'.start_le_start isLocal second mem'
      have := (bounds_of_matchAt? (Node.isUpright_of_isLocal isLocal) found).2.2.2 bounded
      exact Nat.add_le_add_left this _
    · -- The match of the line alone is found in the text too, after the other.
      have chosen : second.shift window.start ∈ found :=
        (List.mem_filter.mp (eq ▸ List.mem_map_of_mem mem')).1
      obtain ⟨_, _, _, found⟩ := scan'.start_le_start isLocal second mem'
      have starts := start_of_matchAt? (Node.isUpright_of_isLocal isLocal) found
      have begins : (second.shift window.start).place = window.start + second.place := by
        show ((window.start : Int) + second.start).toNat = _
        omega
      rw [← begins]
      exact scan.stop_le_start isLocal mem chosen (by omega)
  · rintro ⟨within, clear⟩
    obtain ⟨before, behind, start, rfl, all, ge, from_, scan''⟩ := scan.exists_split isLocal
      (Nat.zero_le window.start)
    obtain ⟨offset, rfl⟩ := Nat.exists_eq_add_of_le ge
    -- The line alone has no match before the place where the text goes on.
    have later : ∀ second ∈ own, offset ≤ second.place := by
      intro second mem
      rcases from_ with eq | ⟨first, mem', eq⟩
      · omega
      · have := clear first (List.mem_append_left _ mem') (all first mem') second mem
        omega
    have starts : ∀ first ∈ behind, window.start ≤ first.place := fun first mem =>
      Nat.le_trans ge (scan''.start_le_start isLocal first mem).1
    have none : (before.filter fun first =>
        window.start ≤ first.place && first.place ≤ window.stop) = [] := by
      refine List.filter_eq_nil_iff.mpr fun first mem => ?_
      have := all first mem
      simp only [Bool.and_eq_true, decide_eq_true_eq]
      omega
    have same : (behind.filter fun first =>
        window.start ≤ first.place && first.place ≤ window.stop) =
          behind.filter (·.place ≤ window.stop) :=
      List.filter_congr fun first mem => by simp [starts first mem]
    rw [List.filter_append, none, List.nil_append, same]
    exact scan_eq isLocal scan'' rfl (scan'.from_later isLocal (Nat.zero_le _) later)
      fun first mem => within first (List.mem_append_right _ mem) (starts first mem)

/-- The window shows a line of a text. -/
structure Shows (window : Window) (codes : List Nat) (number : Nat) : Prop where
  whole_eq : window.whole = codes
  line_eq : window.line = (codes.splitOn 10).getD number []
  front_eq : window.front = ((codes.splitOn 10).take number).flatMap (· ++ [10])
  plain : 10 ∉ window.line
  count_eq : window.front.count 10 = number

lemma exists_shows {codes number} (lt : number < (codes.splitOn 10).length) :
    ∃ window : Window, window.Shows codes number := by
  induction codes using Lines.induction (10 : Nat) generalizing number with
  | line line plain =>
    have lines := List.splitOn_eq_singleton plain
    obtain rfl : number = 0 := by
      rw [lines, List.length_singleton] at lt
      omega
    refine ⟨⟨[], line, [], .inl rfl, .inl rfl⟩, List.append_nil _, ?_, rfl, plain, rfl⟩
    rw [lines]
    rfl
  | cons line rest plain ih =>
    have lines := List.splitOn_append_cons_self_of_not_mem plain rest
    cases number with
    | zero =>
      refine ⟨⟨[], line, 10 :: rest, .inl rfl, .inr ⟨rest, rfl⟩⟩, rfl, ?_, rfl, plain, rfl⟩
      rw [lines]
      rfl
    | succ number =>
      rw [lines, List.length_cons, Nat.add_lt_add_iff_right] at lt
      obtain ⟨window, whole_eq, line_eq, front_eq, plain', count_eq⟩ := ih lt
      have front_break : ∃ front, line ++ 10 :: window.front = front ++ [10] := by
        rcases window.front_break with none | ⟨front, some⟩
        · exact ⟨line, by rw [none]⟩
        · exact ⟨line ++ 10 :: front, by rw [some, List.append_assoc, List.cons_append]⟩
      refine ⟨⟨line ++ 10 :: window.front, window.line, window.back, .inr front_break,
        window.back_break⟩, ?_, ?_, ?_, plain', ?_⟩
      · rw [← whole_eq, whole, whole]
        simp
      · rw [lines, List.getD_cons_succ]
        exact line_eq
      · rw [lines, List.take_succ_cons, List.flatMap_cons, ← front_eq]
        simp
      · rw [List.count_append, List.count_cons_self, count_eq, List.count_eq_zero_of_not_mem plain]
        omega

/-- The places of the line are those with its number of line breaks before them. -/
lemma Shows.count_take_cases {codes number} (shows : window.Shows codes number) {place} (le : place ≤ codes.length) :
    place < window.start ∧ (codes.take place).count 10 < number ∨
      window.start ≤ place ∧ place ≤ window.stop ∧ (codes.take place).count 10 = number ∨
      window.stop < place ∧ number < (codes.take place).count 10 := by
  have length := window.length_whole
  have start_eq : window.start = window.front.length := rfl
  have stop_eq : window.stop = window.start + window.line.length := rfl
  obtain ⟨rfl, _, _, plain, count_eq⟩ := shows
  rw [whole, List.append_assoc]
  by_cases before : place < window.start
  · -- The line break right before the line is still to come.
    refine .inl ⟨before, ?_⟩
    rcases window.front_break with none | ⟨rest, some⟩
    · simp [start_eq, none] at before
    · rw [some, List.length_append, List.length_singleton] at start_eq
      rw [some, List.count_append, List.count_singleton_self] at count_eq
      rw [some, List.append_assoc, List.take_append_of_le_length (by omega)]
      have := (List.take_sublist place rest).count_le 10
      omega
  · obtain ⟨offset, rfl⟩ := Nat.exists_eq_add_of_le (Nat.le_of_not_lt before)
    rw [start_eq, List.take_length_add_append, List.count_append, count_eq]
    by_cases on : offset ≤ window.line.length
    · refine .inr (.inl ⟨by omega, by omega, ?_⟩)
      rw [List.take_append_of_le_length on,
        List.count_eq_zero_of_not_mem (mt List.mem_of_mem_take plain), Nat.add_zero]
    · obtain ⟨more, rfl⟩ := Nat.exists_eq_add_of_le (Nat.le_of_not_le on)
      refine .inr (.inr ⟨by omega, ?_⟩)
      rw [List.take_length_add_append, List.count_append]
      rcases window.back_break with none | ⟨rest, some⟩
      · simp [none] at length
        omega
      · obtain ⟨more, rfl⟩ : ∃ more', more = more' + 1 := ⟨more - 1, by omega⟩
        rw [some, List.take_succ_cons, List.count_cons_self]
        omega

end Window

/-- The places of the line, and those before it, are told by their lines. -/
lemma Window.Shows.ofPlace_iff {window : Window} {text number} (shows : window.Shows (Utf8.codePoints text) number)
    {place} (le : place ≤ (Utf8.codePoints text).length) :
    (Lines.ofPlace text place = number ↔ window.start ≤ place ∧ place ≤ window.stop) ∧
      (Lines.ofPlace text place < number ↔ place < window.start) := by
  have cases := shows.count_take_cases le
  have : window.start ≤ window.stop := Nat.le_add_right _ _
  rw [← Lines.ofPlace] at cases
  omega

/-- The matches of a node in a text. -/
def matchesIn (node : Node) (text : Bytes) : List Match :=
  findAll node (Utf8.codePoints text).toArray

/-- No match that begins on the line ends on another one, and no match from before the line runs into a
match of the line alone. -/
structure Undisturbed (node : Node) (text : Bytes) (number : Nat) : Prop where
  within : ∀ found ∈ matchesIn node text, Lines.ofPlace text found.place = number →
    Lines.ofPlace text found.stop = number
  clear : ∀ found ∈ matchesIn node text, Lines.ofPlace text found.place < number →
    ∀ own ∈ matchesIn node (Lines.nth text number),
      found.stop ≤ (Utf8.codePoints (Lines.before text number)).length + own.place

section Line

variable {node : Node} (isLocal : node.isLocal = true) (reads : 0 < node.least)
include isLocal reads

lemma bounds_of_mem_matchesIn {text found} (mem : found ∈ matchesIn node text) :
    found.place < found.stop ∧ found.stop ≤ (Utf8.codePoints text).length ∧
      ∀ capture ∈ found.captures, capture.Within (Utf8.codePoints text).length := by
  obtain ⟨_, _, bounded, eq⟩ :=
    (scan_findAll isLocal reads (Utf8.codePoints text)).start_le_start isLocal found mem
  obtain ⟨_, _, advance, stop⟩ := bounds_of_matchAt? (Node.isUpright_of_isLocal isLocal) eq
  exact ⟨by omega, stop bounded, (matchAt?_ofText isLocal bounded 0 0).2 found eq⟩

/-- A text has no matches on lines that it does not have, and neither has such a line alone. -/
lemma matchesIn_beyond {text number} (ge : ((Utf8.codePoints text).splitOn 10).length ≤ number) :
    (∀ place, Lines.ofPlace text place < number) ∧ matchesIn node (Lines.nth text number) = [] := by
  constructor
  · intro place
    have := (List.take_sublist place (Utf8.codePoints text)).count_le 10
    rw [Lines.length_splitOn] at ge
    rw [Lines.ofPlace]
    omega
  · refine List.eq_nil_iff_forall_not_mem.mpr fun found mem => ?_
    obtain ⟨lt, le, _⟩ := bounds_of_mem_matchesIn isLocal reads mem
    rw [Lines.codePoints_nth, List.getD_eq_getElem?_getD, List.getElem?_eq_none ge, Option.getD_none,
      List.length_nil] at le
    omega

/-- The line of a window is undisturbed if no match that begins on it ends beyond it, and none from before
it runs into a match of the line alone. -/
lemma Window.Shows.undisturbed_iff {window : Window} {text number}
    (shows : window.Shows (Utf8.codePoints text) number) :
    Undisturbed node text number ↔
      (∀ found ∈ matchesIn node text, window.start ≤ found.place → found.place ≤ window.stop →
        found.stop ≤ window.stop) ∧
      ∀ found ∈ matchesIn node text, found.place < window.start →
        ∀ own ∈ matchesIn node (Lines.nth text number), found.stop ≤ window.start + own.place := by
  have start_eq : (Utf8.codePoints (Lines.before text number)).length = window.start := by
    rw [Lines.codePoints_before, ← shows.front_eq]
    rfl
  constructor
  · rintro ⟨within, clear⟩
    refine ⟨fun found mem ge le => ?_, fun found mem lt own mem' => ?_⟩
    · obtain ⟨lt, bounded, _⟩ := bounds_of_mem_matchesIn isLocal reads mem
      have on := within found mem ((shows.ofPlace_iff (by omega)).1.mpr ⟨ge, le⟩)
      exact ((shows.ofPlace_iff bounded).1.mp on).2
    · obtain ⟨lt', bounded, _⟩ := bounds_of_mem_matchesIn isLocal reads mem
      exact start_eq ▸ clear found mem ((shows.ofPlace_iff (by omega)).2.mpr lt) own mem'
  · rintro ⟨within, clear⟩
    refine ⟨fun found mem on => ?_, fun found mem before own mem' => ?_⟩
    · obtain ⟨lt, bounded, _⟩ := bounds_of_mem_matchesIn isLocal reads mem
      obtain ⟨ge, le⟩ := (shows.ofPlace_iff (by omega)).1.mp on
      exact (shows.ofPlace_iff bounded).1.mpr ⟨by omega, within found mem ge le⟩
    · obtain ⟨lt, bounded, _⟩ := bounds_of_mem_matchesIn isLocal reads mem
      exact start_eq ▸ clear found mem ((shows.ofPlace_iff (by omega)).2.mp before) own mem'

/-- The matches that begin on a line are those of the line alone just when the line is undisturbed. -/
lemma filter_matchesIn_eq_iff (text : Bytes) (number : Nat) :
    (matchesIn node text).filter (fun found => Lines.ofPlace text found.place = number) =
        (matchesIn node (Lines.nth text number)).map
          (Match.shift (Utf8.codePoints (Lines.before text number)).length) ↔
      Undisturbed node text number := by
  by_cases lt : number < ((Utf8.codePoints text).splitOn 10).length
  · obtain ⟨window, shows⟩ := Window.exists_shows lt
    have same : (matchesIn node text).filter (fun found => Lines.ofPlace text found.place = number) =
        (matchesIn node text).filter fun found =>
          window.start ≤ found.place && found.place ≤ window.stop := by
      refine List.filter_congr fun found mem => ?_
      obtain ⟨lt, le, _⟩ := bounds_of_mem_matchesIn isLocal reads mem
      rw [Bool.eq_iff_iff, Bool.and_eq_true, decide_eq_true_eq, decide_eq_true_eq, decide_eq_true_eq]
      exact (shows.ofPlace_iff (by omega)).1
    have iff := window.filter_scan_eq_iff isLocal (scan_findAll isLocal reads window.whole)
      (scan_findAll isLocal reads window.line)
    rw [shows.whole_eq, shows.line_eq, ← Lines.codePoints_nth] at iff
    rw [same, Lines.codePoints_before, ← shows.front_eq, shows.undisturbed_iff isLocal reads]
    exact iff
  · -- A line that the text does not have is empty, and no match begins or ends there.
    obtain ⟨before, none⟩ := @matchesIn_beyond node isLocal reads text number (by omega)
    have undisturbed : Undisturbed node text number := {
      within := fun found _ eq => absurd eq (Nat.ne_of_lt (before _))
      clear := fun _ _ _ own mem => by rw [none] at mem; cases mem }
    refine iff_of_true ?_ undisturbed
    rw [none, List.map_nil, List.filter_eq_nil_iff]
    exact fun found _ eq => Nat.ne_of_lt (before _) (of_decide_eq_true eq)

end Line

end Sift.Pattern
