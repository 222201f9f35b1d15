import Mathlib.Tactic.Lemma
import Sift.Pattern.Parser

/-!
# Reading ordinary characters and escapes

A pattern that is written with ordinary characters and escapes only, without groups, classes, choices or
repetitions, is read as the sequence of what they stand for (`parse_of_spells`).
-/

namespace Sift.Pattern

/-- The characters stand for the nodes, one after the other: each node is written as an ordinary character
or as an escape. -/
inductive Spells (options : Options) : List Char → List Node → Prop
  | nil : Spells options [] []
  | char {c : Char} {rest : List Char} {nodes : List Node} (plain : isSpecial c = false)
    (more : Spells options rest nodes) : Spells options (c :: rest) (options.charNode c.toNat :: nodes)
  | escaped {c : Char} {rest : List Char} {nodes : List Node} {piece : Piece}
    (reads : ∀ groups rest, escape groups options (c :: rest) = .ok (piece, rest))
    (skips : ∀ rest, skipEscape (c :: rest) = rest) (more : Spells options rest nodes) :
    Spells options ('\\' :: c :: rest) (piece.node :: nodes)

lemma ne_of_plain {c d} (plain : isSpecial c = false) (special : isSpecial d = true) : c ≠ d := by
  rintro rfl
  cases plain.symm.trans special

namespace Spells

variable {options : Options} {chars : List Char} {nodes : List Node}

lemma append {chars' nodes'} (spells : Spells options chars nodes) (spells' : Spells options chars' nodes') :
    Spells options (chars ++ chars') (nodes ++ nodes') := by
  induction spells with
  | nil => exact spells'
  | char plain _ ih => exact .char plain ih
  | escaped reads skips _ ih => exact .escaped reads skips ih

lemma skipBlank_eq (spells : Spells options chars nodes) : skipBlank false chars = .ok chars := by
  cases spells with
  | nil => rfl
  | @char c rest _ plain _ =>
    rw [skipBlank, skipFrom]
    · rfl
    · exact fun _ eq => absurd eq (ne_of_plain plain (by decide))
  | escaped => rfl

lemma beginsRepeat_eq (spells : Spells options chars nodes) : beginsRepeat chars = false := by
  cases spells with
  | nil => rfl
  | @char c rest _ plain _ =>
    rw [beginsRepeat]
    · exact (Bool.or_eq_false_iff.mp plain).1
    · exact fun eq => absurd eq (ne_of_plain plain (by decide))
  | escaped => rfl

/-- Ordinary characters are taken up to the next escape. -/
lemma exists_ordinary (spells : Spells options chars nodes) : ∃ run rest nodes',
    ordinary false chars = (run, rest) ∧ chars.length = run.length + rest.length ∧
      nodes = run.map (fun c => options.charNode c.toNat) ++ nodes' ∧ Spells options rest nodes' ∧
      ∀ c ∈ rest.head?, c = '\\' := by
  induction spells with
  | nil => exact ⟨[], [], [], rfl, rfl, rfl, .nil, by rintro _ ⟨⟩⟩
  | @char c rest nodes plain more ih =>
    obtain ⟨run, behind, nodes', eq, length, rfl, spells, head⟩ := ih
    refine ⟨c :: run, behind, nodes', ?_, by simp [length]; omega, rfl, spells, head⟩
    rw [ordinary, plain, eq]
    rfl
  | escaped reads skips more =>
    exact ⟨[], _, _, rfl, (Nat.zero_add _).symm, rfl, .escaped reads skips more, by rintro _ ⟨⟩; rfl⟩

/-- There are no groups to be found. -/
lemma censusFrom_eq (spells : Spells options chars nodes) {census} (compact : census.options.extended = false)
    (fuel : Nat) : censusFrom fuel census chars = .ok census := by
  induction spells generalizing fuel with
  | nil => cases fuel <;> rfl
  | @char c rest nodes plain more ih =>
    cases fuel with
    | zero => rfl
    | succ fuel =>
      have other : ∀ {d : Char}, isSpecial d = true → c ≠ d := ne_of_plain plain
      unfold censusFrom
      dsimp only
      split
      · exact absurd rfl (other (by decide))
      · rw [compact, if_neg Bool.false_ne_true, ih]
      · exact absurd rfl (other (by decide))
      · exact absurd rfl (other (by decide))
      · exact absurd rfl (other (by decide))
      · exact ih fuel
  | @escaped c rest nodes piece reads skips more ih =>
    cases fuel with
    | zero => rfl
    | succ fuel =>
      rw [censusFrom, skips]
      exact ih fuel

lemma pieces_addRun (draft : Draft) (run : List Char) :
    (draft.addRun options run).branches = draft.branches ∧
      (draft.addRun options run).pieces =
        (run.map fun c => options.charNode c.toNat).reverse ++ draft.pieces := by
  induction run generalizing draft with
  | nil => exact ⟨rfl, rfl⟩
  | cons c rest ih =>
    obtain ⟨branches, pieces⟩ := ih (draft.add (options.charNode c.toNat))
    refine ⟨branches, pieces.trans ?_⟩
    rw [List.map_cons, List.reverse_cons, List.append_assoc]
    rfl

lemma withRepetition_eq (spells : Spells options chars nodes) {draft place piece}
    (compact : place.options.extended = false) (rest : place.rest = chars) :
    withRepetition draft place piece = .ok (draft.add piece.node, place) := by
  subst rest
  simp only [withRepetition, compact, spells.skipBlank_eq, bind, Except.bind, spells.beginsRepeat_eq,
    Bool.false_eq_true, if_false]
  rfl

/-- A body without groups ends with the pattern, and has one branch. -/
lemma body_eq (compact : options.extended = false) (forward : options.backward = false) {groups fuel}
    (spells : Spells options chars nodes) (enough : chars.length < fuel) {draft} (first : draft.branches = [])
    {place} (rest : place.rest = chars) (under : place.options = options) :
    ∃ place', body groups .top fuel draft place =
      .ok ([Node.sequence false (draft.pieces.reverse ++ nodes)], place') := by
  induction fuel generalizing chars nodes draft place with
  | zero => exact absurd enough (Nat.not_lt_zero _)
  | succ fuel ih =>
    subst under rest
    have done : ∀ {draft' : Draft}, draft'.branches = [] →
        draft'.close place.options.backward = [Node.sequence false draft'.pieces.reverse] := by
      intro draft' first'
      rw [Draft.close, Draft.branch, first', forward]
      rfl
    have blank := spells.skipBlank_eq
    rw [← compact] at blank
    by_cases empty : place.rest = []
    · rw [empty] at spells
      cases spells
      refine ⟨{ place with rest := [] }, ?_⟩
      rw [body]
      simp only [empty, List.isEmpty_nil, if_true]
      rw [done first, List.append_nil]
      rfl
    · obtain ⟨run, behind, nodes', taken, length, rfl, later, head⟩ := spells.exists_ordinary
      obtain ⟨branches, pieces⟩ := @pieces_addRun place.options draft run
      have blank' := later.skipBlank_eq
      rw [← compact] at blank' taken
      have some : place.rest.isEmpty = false := by simpa using empty
      rw [body]
      simp only [some, Bool.false_eq_true, if_false, blank, bind, Except.bind, taken, blank', Except.toOption,
        Option.getD_some]
      cases later with
      | nil =>
        refine ⟨{ place with rest := [] }, ?_⟩
        simp only [if_true]
        rw [done (branches.trans first), pieces, List.reverse_append, List.reverse_reverse, List.append_nil]
        rfl
      | char plain _ => exact absurd (head _ rfl) (ne_of_plain plain (by decide))
      | @escaped c rest nodes' piece reads _ more =>
        have special : isSpecial '\\' = true := by decide
        have once : isRepeatChar '\\' = false := by decide
        simp only [special, once, Bool.not_true, Bool.false_eq_true, if_false, reads]
        have added := @withRepetition_eq _ _ _ more (draft.addRun place.options run) { place with rest }
          ⟨piece.node, piece.single⟩ compact rfl
        simp only [added]
        rw [List.length_cons, List.length_cons] at length
        obtain ⟨place', eq⟩ := @ih _ _ more (by omega) ((draft.addRun place.options run).add piece.node)
          (branches.trans first) { place with rest } rfl rfl
        refine ⟨place', eq.trans ?_⟩
        rw [Draft.add, pieces]
        simp

end Spells

/-- Ordinary characters and escapes are read as the sequence of what they stand for. -/
lemma parse_of_spells {options} (compact : options.extended = false) (forward : options.backward = false)
    {chars nodes} (spells : Spells options chars nodes) :
    parse options (String.ofList chars) = .ok (.alternation [.sequence false nodes]) := by
  obtain ⟨place, read⟩ := @Spells.body_eq options _ _ compact forward {} (2 * chars.length + 2) spells (by omega)
    {} rfl { rest := chars, options } rfl rfl
  have groups : groupsOf options chars = .ok {} := by
    simp only [groupsOf, @Spells.censusFrom_eq _ _ _ spells { options } compact, bind, Except.bind]
    rfl
  simp only [parse, String.toList_ofList, groups, bind, Except.bind]
  rw [read]
  rfl

end Sift.Pattern
