import Sift.Suppression
import Sift.Proofs.Pattern.Search

/-!
# Remarks and lines

The pattern of a remark is local (`shape_isLocal`), so that the remarks on a line are those of the line
alone unless a remark runs over the end of the line or one from before runs into it. White space in a
remark may be a line break, so that both can happen. Where neither does, a rule is silenced by the remarks on
the line as it is on the line alone (`any_covers_nth`).
-/

namespace Sift.Suppression

open Pattern (Node)

/-- Remarks are read forward, in any case. -/
def folding : Pattern.Mode := ⟨true, false⟩

/-- A letter of a remark. -/
def letter (c : Char) : Node := .char folding (.char c.toNat)

/-- The letters of a word. -/
def word (s : String) : List Node := s.toList.map letter

/-- White space, at least so much of it. -/
def blanks (least : Nat) : Node :=
  .repeatChar folding (.oneOf (.ofCategory (.space false))) ⟨least, none, false⟩

/-- The name of a rule. -/
def name : Node :=
  .repeatChar folding (.oneOf ⟨{ ranges := [(45, 45)], categories := [.word false] }, []⟩)
    ⟨1, none, false⟩

/-- What a remark lists: all rules, or names between commas. -/
def list : Node :=
  .alt (.ofList (word "all" ++ [.anchor .boundary]))
    (.seq name (.loop (.ofList [blanks 0, letter ',', blanks 0, name]) ⟨0, none, false⟩))

/-- The tree of a remark. -/
def shape : Node :=
  .ofList (.anchor .boundary :: .loop (.ofList (word "dev")) ⟨0, some 1, false⟩ ::
    (word "skim:" ++ (blanks 0 :: (word "ignore" ++ [blanks 1, .capture (some 1) none list]))))

set_option maxRecDepth 100000 in
/-- The pattern of a remark has this tree. -/
lemma node_eq : node = shape := by decide +kernel

/-- Remarks are read forward, by the characters beside each place. -/
lemma shape_isLocal : shape.isLocal = true := by decide

lemma shape_reads : 0 < shape.least := by decide

/-- The characters of a text as they are compared. -/
def lowered (codes : List Nat) : List Char := codes.map fun code => Char.ofNat (Unicode.toLower code)

/-- Letters are matched where the lowered text has them. -/
lemma run_letters {codes start chars rest state result next}
    (eq : (Node.ofList (chars.map letter ++ rest)).run ⟨codes.toArray, start⟩ state next = some result) :
    chars <+: (lowered codes).drop state.place := by
  induction chars generalizing state with
  | nil => exact List.nil_prefix
  | cons c chars ih =>
    rw [List.map_cons, List.cons_append, Node.run_ofList_cons, letter] at eq
    simp only [Node.run] at eq
    split at eq
    · rename_i place read
      obtain ⟨d, get, accepted, rfl⟩ := (Pattern.read?_eq_some rfl).mp read
      have rest := ih eq
      have here : (lowered codes)[state.place]? = some c := by
        have same : Unicode.toLower d = c.toNat := eq_of_beq accepted
        rw [List.getElem?_toArray] at get
        rw [lowered, List.getElem?_map, get, Option.map_some, same, Char.ofNat_toNat]
      obtain ⟨lt, get'⟩ := List.getElem?_eq_some_iff.mp here
      rw [List.drop_eq_getElem_cons lt, get']
      exact List.cons_prefix_cons.mpr ⟨rfl, rest⟩
    · cases eq

lemma containsChars_of_prefix {part cs place} (isPrefix : part <+: cs.drop place) :
    Text.containsChars part cs = true := by
  induction cs generalizing place with
  | nil =>
    rw [List.drop_nil, List.prefix_nil] at isPrefix
    rw [isPrefix]
    rfl
  | cons c rest ih =>
    rw [Text.containsChars, Bool.or_eq_true]
    cases place with
    | zero => exact .inl (List.isPrefixOf_iff_prefix.mpr isPrefix)
    | succ place => exact .inr (ih isPrefix)

/-- A text with a remark has the word by which remarks are looked for. -/
lemma containsChars_of_matchAt? {codes start place found}
    (eq : Pattern.matchAt? shape ⟨codes.toArray, start⟩ place = some found) :
    Text.containsChars "skim:".toList (lowered codes) = true := by
  rw [Pattern.matchAt?_eq_map (Node.isUpright_of_isLocal shape_isLocal)] at eq
  obtain ⟨state, run, _⟩ := Option.map_eq_some_iff.mp eq
  have whole : shape.run ⟨codes.toArray, start⟩ ⟨place, [↑place], []⟩
      (Pattern.closeGroup (some 0) none some) = some state := run
  -- Behind the boundary and the optional word, the letters of "skim:" are read one by one.
  rw [shape, Node.run_ofList_cons] at whole
  obtain ⟨_, _, behind_boundary⟩ := Node.leads_run rfl whole
  rw [Node.run_ofList_cons] at behind_boundary
  obtain ⟨_, _, behind_dev⟩ := Node.leads_run (by decide) behind_boundary
  exact containsChars_of_prefix (run_letters behind_dev)

/-- Remarks are looked for only where there may be some, so that none is missed. -/
lemma remarks_ofBytes (text : Bytes) : remarks (.ofBytes text) = Pattern.matchesIn shape text := by
  rw [remarks, node_eq]
  refine ite_eq_right_iff.mpr fun absent => ?_
  -- Where the word is absent, there is nothing to be found.
  refine (List.eq_nil_iff_forall_not_mem.mpr fun found mem => ?_).symm
  obtain ⟨_, _, _, eq⟩ :=
    (Pattern.scan_findAll shape_isLocal shape_reads (Utf8.codePoints text)).start_le_start
      shape_isLocal found mem
  have present : Text.containsChars "skim:".toList ((Document.ofBytes text).codes.toList.map fun code =>
      Char.ofNat (Unicode.toLower code)) = true := containsChars_of_matchAt? eq
  rw [present] at absent
  cases absent

/-- The remarks of a text are the matches of the pattern, on the lines where they begin. -/
lemma inDocument_ofBytes (text : Bytes) :
    inDocument (.ofBytes text) = (Pattern.matchesIn shape text).map fun found =>
      ⟨Lines.ofPlace text found.place,
        silencedBy (listText (Utf8.codePoints text).toArray found)⟩ := by
  rw [inDocument, remarks_ofBytes]
  refine List.map_congr_left fun found mem => ?_
  obtain ⟨_, _, le, _⟩ :=
    (Pattern.scan_findAll shape_isLocal shape_reads (Utf8.codePoints text)).start_le_start
      shape_isLocal found mem
  rw [Utf8.codePoints, List.length_map] at le
  rw [Document.byteOffset_ofBytes le, Document.lineOf_ofBytes, Lines.number_offsetOf]
  rfl

/-- What a list of rules silences. -/
def silences (list : String) (id : String) : Bool :=
  match silencedBy list with
  | .all => true
  | .only ids => ids.contains id

/-- A rule is silenced on a line by the matches that begin there. -/
lemma any_covers (text : Bytes) (number : Nat) (id : String) :
    (inDocument (.ofBytes text)).any (·.covers number id) =
      ((Pattern.matchesIn shape text).filter fun found => Lines.ofPlace text found.place = number).any
        fun found => silences (listText (Utf8.codePoints text).toArray found) id := by
  rw [inDocument_ofBytes, List.any_map, List.any_filter]
  rfl

lemma extract_whole (window : Pattern.Window) {start length} (le : start + length ≤ window.line.length) :
    (window.whole.toArray.extract (window.start + start) (window.start + start + length)).toList =
      (window.line.toArray.extract start (start + length)).toList := by
  rw [Array.toList_extract, Array.toList_extract, List.extract_eq_take_drop, List.extract_eq_take_drop,
    Nat.add_sub_cancel_left, Nat.add_sub_cancel_left, Pattern.Window.whole, List.append_assoc,
    Pattern.Window.start, ← List.drop_drop, List.drop_left, List.drop_append_of_le_length (by omega),
    List.take_append_of_le_length (by rw [List.length_drop]; omega)]

/-- The list of a match on a line is that of the match on the line alone. -/
lemma listText_shift {window : Pattern.Window} {own}
    (bounded : ∀ capture ∈ own.captures, capture.Within window.line.length) :
    listText window.whole.toArray (own.shift window.start) = listText window.line.toArray own := by
  have found : (own.shift window.start).captures.find? (·.group == 1) =
      (own.captures.find? (·.group == 1)).map (Pattern.Capture.shift window.start) := List.find?_map
  rw [listText, listText, found]
  cases h : own.captures.find? (·.group == 1) with
  | none => rfl
  | some capture =>
    obtain ⟨group, start, length⟩ := capture
    obtain ⟨nonneg, le⟩ := bounded _ (List.mem_of_find?_eq_some h)
    obtain ⟨place, rfl⟩ := Int.eq_ofNat_of_zero_le nonneg
    have sum : (window.start + (place : Int)).toNat = window.start + place := by omega
    dsimp only [Option.map_some, Pattern.Capture.shift]
    rw [sum, Int.toNat_natCast, extract_whole window (Int.ofNat_le.mp le)]

/-- The match of a line alone lists in the text what it lists on the line alone, and it is on the first
line there. -/
lemma listText_nth {text number own} (mem : own ∈ Pattern.matchesIn shape (Lines.nth text number)) :
    listText (Utf8.codePoints text).toArray
        (own.shift (Utf8.codePoints (Lines.before text number)).length) =
        listText (Utf8.codePoints (Lines.nth text number)).toArray own ∧
      Lines.ofPlace (Lines.nth text number) own.place = 0 := by
  by_cases lt : number < ((Utf8.codePoints text).splitOn 10).length
  · obtain ⟨window, shows⟩ := Pattern.Window.exists_shows lt
    have bounded := (Pattern.bounds_of_mem_matchesIn shape_isLocal shape_reads mem).2.2
    have line_eq : Utf8.codePoints (Lines.nth text number) = window.line := by
      rw [Lines.codePoints_nth, shows.line_eq]
    rw [line_eq] at bounded
    constructor
    · rw [Lines.codePoints_before, ← shows.front_eq, line_eq, ← shows.whole_eq]
      exact listText_shift bounded
    · rw [Lines.ofPlace, line_eq]
      exact List.count_eq_zero_of_not_mem (mt List.mem_of_mem_take shows.plain)
  · rw [(@Pattern.matchesIn_beyond shape shape_isLocal shape_reads text number (by omega)).2] at mem
    cases mem

/-- Where a line is undisturbed, a rule is silenced on it as on the line alone. -/
lemma any_covers_nth {text number} (undisturbed : Pattern.Undisturbed shape text number) (id : String) :
    (inDocument (.ofBytes text)).any (·.covers number id) =
      (inDocument (.ofBytes (Lines.nth text number))).any (·.covers 0 id) := by
  rw [any_covers, any_covers,
    (Pattern.filter_matchesIn_eq_iff shape_isLocal shape_reads text number).mpr undisturbed,
    List.any_map, List.any_filter, Bool.eq_iff_iff, List.any_eq_true, List.any_eq_true]
  refine exists_congr fun own => and_congr_right fun mem => ?_
  obtain ⟨same, first⟩ := listText_nth mem
  rw [Function.comp_apply, same, first]
  rfl

end Sift.Suppression
