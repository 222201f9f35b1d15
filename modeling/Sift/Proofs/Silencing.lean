import Sift.Proofs.Suppression
import Sift.Proofs.Unicode.Case

/-!
# What the remarks of a text silence

One more remark silences on its line what it lists, and leaves what was silenced before
(`Silencing.covers_note`). So a rule is silenced on a line of a text just when one of the remarks on it
silences the rule, however many there are and in whatever order (`Silencing.covers_inDocument`). The
remarks are what a scan with their pattern finds, whether or not the text is passed over for lack of the
word by which they are looked for (`Silencing.covers_iff_scanned`). Where no remark runs over the end of a line,
a rule is silenced on the line as on the line alone (`Silencing.covers_line`).
-/

namespace Sift.Silencing

variable {silencing : Silencing} {line : Nat} {id : String}

@[simp] lemma at?_put (line' : Nat) (silenced : Silenced) :
    (silencing.put line silenced).at? line' = if line' = line then some silenced else silencing.at? line' := by
  rw [put, at?, List.lookup_cons]
  split <;> simp_all [at?]

/-- What one more remark silences. -/
lemma covers_note (remark : Suppression) :
    (silencing.note remark).covers line id = (silencing.covers line id || remark.covers line id) := by
  obtain ⟨own, silenced⟩ := remark
  by_cases same : line = own
  · subst same
    cases silenced with
    | all => simp [note, covers, Suppression.covers]
    | only ids =>
      cases known : silencing.at? line with
      | none => simp [note, covers, Suppression.covers, known]
      | some entry =>
        cases entry with
        | all => simp [note, covers, known]
        | only others => simp [note, covers, Suppression.covers, known]
  · have elsewhere : (own == line) = false := beq_eq_false_iff_ne.mpr (Ne.symm same)
    have kept : (silencing.note ⟨own, silenced⟩).at? line = silencing.at? line := by
      unfold note
      dsimp only
      split
      · simp [same]
      · split <;> simp [same]
    rw [covers, kept, ← covers, Suppression.covers, elsewhere, Bool.false_and, Bool.or_false]

lemma covers_foldl_note (remarks : List Suppression) :
    (remarks.foldl note silencing).covers line id =
      (silencing.covers line id || remarks.any (·.covers line id)) := by
  induction remarks generalizing silencing with
  | nil => rw [List.foldl_nil, List.any_nil, Bool.or_false]
  | cons remark rest ih => rw [List.foldl_cons, ih, covers_note, List.any_cons, Bool.or_assoc]

/-- A rule is silenced on a line of a text by the remarks on it, whatever their order. -/
lemma covers_inDocument (doc : Document) (line : Nat) (id : String) :
    (inDocument doc).covers line id = (Suppression.inDocument doc).any (·.covers line id) := by
  rw [inDocument, covers_foldl_note]
  rfl

/-- The remarks on a line of a text are those of the line alone just when none of them ends on another
line and no remark from before the line runs into one of the line alone. Then a rule is silenced on the
line as on the line alone. -/
theorem covers_line (text : Bytes) (number : Nat) :
    ((Pattern.matchesIn Suppression.node text).filter (fun found => Lines.ofPlace text found.place = number) =
        (Pattern.matchesIn Suppression.node (Lines.nth text number)).map
          (Pattern.Match.shift (Utf8.codePoints (Lines.before text number)).length) ↔
      Pattern.Undisturbed Suppression.node text number) ∧
    (Pattern.Undisturbed Suppression.node text number → ∀ id,
      (inDocument (.ofBytes text)).covers number id =
        (inDocument (.ofBytes (Lines.nth text number))).covers 0 id) := by
  rw [Suppression.node_eq]
  refine ⟨Pattern.filter_matchesIn_eq_iff Suppression.shape_isLocal Suppression.shape_reads text number, ?_⟩
  intro undisturbed id
  rw [covers_inDocument, covers_inDocument]
  exact Suppression.any_covers_nth undisturbed id

/-- A line break in a remark lets another line add a rule to it; and a remark that runs over the end of its
line takes away the word by which the next one begins. -/
theorem covers_other_line :
    (let text := Utf8.ofString "danger skim: ignore\nA";
      (inDocument (.ofBytes text)).covers 0 "A" = true ∧
        (inDocument (.ofBytes (Lines.nth text 0))).covers 0 "A" = false) ∧
    (let text := Utf8.ofString "skim: ignore X,\nskim: ignore A danger";
      (inDocument (.ofBytes text)).covers 1 "A" = false ∧
        (inDocument (.ofBytes (Lines.nth text 1))).covers 0 "A" = true) := by
  decide +kernel

/-- A list of rules stands for all of them just when it spells the word for that in small letters and
capitals. -/
lemma equalFold_all_iff (list : String) :
    Unicode.equalFold list "all" = true ↔ Unicode.Spells [] list "all" := by
  have small : ("all".toList.all fun l => decide (Unicode.IsSmall l)) = true := by decide
  rw [Unicode.equalFold_iff_spells fun l mem => of_decide_eq_true (List.all_eq_true.mp small l mem)]
  refine ⟨fun spells => spells.of_standIns ?_, fun spells => spells.of_standIns nofun⟩
  -- Neither of the letters with a stand-in is in the word.
  intro pair standIn _ letter
  have foreign : (Unicode.foldStandIns.all fun pair => !"all".toList.contains pair.2) = true := by decide
  have absent := List.all_eq_true.mp foreign pair standIn
  rw [Bool.not_eq_true', List.contains_eq_mem, decide_eq_false_iff_not] at absent
  exact absurd letter absent

/-- What a list of rules silences. -/
lemma silences_iff (list id : String) :
    Suppression.silences list id = true ↔
      Unicode.Spells [] list "all" ∨ id ∈ (Text.splitAt ',' list).map Text.trim := by
  rw [← equalFold_all_iff, Suppression.silences, Suppression.silencedBy]
  by_cases all : Unicode.equalFold list "all" = true
  · rw [if_pos all]
    exact iff_of_true rfl (.inl all)
  · rw [if_neg all, or_iff_right all]
    exact List.contains_iff_mem

/-- The scan of a text with the pattern of a remark finds one list of matches. A rule is silenced on a line
just when one of these matches begins on the line and lists all rules, by the word for that in small
letters or capitals, or lists the rule between its commas. -/
theorem covers_iff_scanned (text : Bytes) :
    ∃ found, (∀ other, Pattern.Scan Suppression.node (Utf8.codePoints text) 0 other ↔ other = found) ∧
      ∀ line id, (inDocument (.ofBytes text)).covers line id = true ↔
        ∃ remark ∈ found, Lines.ofPlace text remark.place = line ∧
          let list := Suppression.listText (Utf8.codePoints text).toArray remark
          Unicode.Spells [] list "all" ∨ id ∈ (Text.splitAt ',' list).map Text.trim := by
  have scan := Pattern.scan_findAll Suppression.shape_isLocal Suppression.shape_reads (Utf8.codePoints text)
  rw [Suppression.node_eq]
  refine ⟨_, fun other => ⟨scan.unique, fun eq => eq ▸ scan⟩, fun line id => ?_⟩
  rw [covers_inDocument, Suppression.any_covers, List.any_filter, List.any_eq_true]
  refine exists_congr fun remark => and_congr_right fun _ => ?_
  rw [Bool.and_eq_true, decide_eq_true_eq, silences_iff]

end Sift.Silencing
