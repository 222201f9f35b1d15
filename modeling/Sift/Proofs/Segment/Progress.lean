import Sift.Proofs.Segment

/-!
# Progress of a scan

An iteration of a scan takes no byte just when a line comment begins at a line break
(`look_length_eq_zero_iff`). The scan is then where it was, and stays there for ever
(`stalled_iterate`). So a scan ends just when each of its iterations goes forward, and whether all scans
by a syntax do can be read off its markers (`scan_ends_iff`). Where they do, each comment has a first
byte, and the search by halves tells comments from code (`scan_placed`).
-/

namespace Sift.CommentSyntax

variable {syn : CommentSyntax}

/-- Nothing is taken where a line comment begins at a line break. -/
lemma look_length_eq_zero_iff {b rest} : (syn.look (b :: rest)).length = 0 ↔
    b = lineFeed ∧ lineFeed ∉ syn.quotes ∧ ¬ syn.Opens (b :: rest) ∧ syn.Marked (b :: rest) := by
  generalize eq : syn.look (b :: rest) = found
  cases eq ▸ syn.shows_look b rest with
  | literal quote =>
    refine ⟨fun none => absurd none (Nat.succ_ne_zero _), ?_⟩
    rintro ⟨rfl, noQuote, _⟩
    exact absurd quote noQuote
  | block _ opens _ =>
    refine ⟨fun none => ?_, fun stall => absurd opens stall.2.2.1⟩
    have size := List.length_pos_iff.mpr opens.1
    dsimp only at none
    omega
  | openBlock _ opens _ =>
    exact ⟨fun none => absurd none (Nat.succ_ne_zero _), fun stall => absurd opens stall.2.2.1⟩
  | line noQuote noBlock marked =>
    rw [lineLength_cons]
    by_cases eq : b = lineFeed
    · rw [if_pos eq]
      exact ⟨fun _ => ⟨eq, eq ▸ noQuote, noBlock, marked⟩, fun _ => rfl⟩
    · rw [if_neg eq]
      exact ⟨fun none => absurd none (Nat.succ_ne_zero _), fun stall => absurd stall.1 eq⟩
  | plain _ _ unmarked =>
    exact ⟨fun none => absurd none Nat.one_ne_zero, fun stall => absurd stall.2.2.2 unmarked⟩

/-- Each iteration that the scan of a text makes leads to a later offset. -/
def Advances (syn : CommentSyntax) (text : Bytes) : Prop :=
  ∀ n, (syn.after text n).rest ≠ [] → (syn.after text n).offset < (syn.after text (n + 1)).offset

lemma offset_lt_advance_iff {scanner} :
    scanner.offset < (syn.advance scanner).offset ↔ 0 < (syn.look scanner.rest).length :=
  Nat.lt_add_right_iff_pos

/-- A scan that takes no byte stays where it is. -/
lemma stalled_iterate {scanner} (stalled : (syn.look scanner.rest).length = 0) (n : Nat) :
    (syn.advance^[n] scanner).offset = scanner.offset ∧
      (syn.advance^[n] scanner).rest = scanner.rest := by
  induction n with
  | zero => exact ⟨rfl, rfl⟩
  | succ n ih =>
    rw [Function.iterate_succ_apply', advance]
    dsimp only
    rw [ih.1, ih.2, stalled]
    exact ⟨rfl, rfl⟩

/-- A scan that ends goes forward with each iteration. -/
lemma advances_of_segment? {text segments} (eq : syn.segment? text = some segments) : syn.Advances text := by
  intro n more
  rw [after_succ, offset_lt_advance_iff]
  refine Nat.pos_of_ne_zero fun stalled => more ?_
  -- From a place where it stalls, the scan would come to no other, and not to the end.
  rw [← syn.run_after text n] at eq
  obtain ⟨m, at_end, _⟩ := run_eq_some_iff.mp eq
  rw [← at_end]
  exact (stalled_iterate stalled m).2.symm

/-- With each iteration that goes forward less of the text is left. -/
lemma Advances.length_rest_le {text} (advances : syn.Advances text) (n : Nat) :
    (syn.after text n).rest.length ≤ text.length - n := by
  induction n with
  | zero => exact Nat.le_refl _
  | succ n ih =>
    by_cases at_end : (syn.after text n).rest = []
    · rw [after_succ, advance_of_end at_end, at_end]
      exact Nat.zero_le _
    · have forward := advances n at_end
      have now := (syn.sound_after text n).length_rest
      have next := (syn.sound_after text (n + 1)).length_rest
      omega

lemma Advances.rest_eq_nil {text} (advances : syn.Advances text) :
    (syn.after text text.length).rest = [] := by
  have none := advances.length_rest_le text.length
  rw [Nat.sub_self] at none
  exact List.eq_nil_of_length_eq_zero (Nat.eq_zero_of_le_zero none)

lemma Advances.segment?_eq {text} (advances : syn.Advances text) :
    syn.segment? text = some (syn.after text text.length).comments.reverse :=
  segment?_eq_some_iff.mpr ⟨text.length, advances.rest_eq_nil, rfl⟩

/-- A scan that goes forward with each iteration finds no empty comment. -/
lemma Advances.start_lt_stop {text} (advances : syn.Advances text) (n : Nat) :
    ∀ region ∈ (syn.after text n).comments, region.start < region.stop := by
  induction n with
  | zero => exact nofun
  | succ n ih =>
    intro region mem
    by_cases at_end : (syn.after text n).rest = []
    · rw [after_succ, advance_of_end at_end] at mem
      exact ih region mem
    · have forward := advances n at_end
      rw [after_succ, advance] at mem forward
      dsimp only at mem forward
      split at mem
      · cases mem with
        | head => exact forward
        | tail _ mem => exact ih region mem
      · exact ih region mem

/-- No line marker can hold a scan up at a line break. Either the line break is a quote, or each marker
that is empty or begins with a line break stands only where a block comment begins. -/
def Steady (syn : CommentSyntax) : Prop :=
  lineFeed ∈ syn.quotes ∨ ∀ marker ∈ syn.line, (marker = [] → syn.blockStart = [lineFeed]) ∧
    (marker.head? = some lineFeed → syn.Opens marker)

instance (syn : CommentSyntax) : Decidable syn.Steady := inferInstanceAs (Decidable (_ ∨ _))

lemma steady_of_markers
    (markers : ∀ marker ∈ syn.line, marker ≠ [] ∧ marker.head? ≠ some lineFeed) : syn.Steady := by
  refine .inr fun marker mem => ?_
  obtain ⟨nonempty, leading⟩ := markers marker mem
  exact ⟨fun empty => absurd empty nonempty, fun leads => absurd leads leading⟩

lemma Steady.look_length_pos (steady : syn.Steady) (b : UInt8) (rest : Bytes) :
    0 < (syn.look (b :: rest)).length := by
  refine Nat.pos_of_ne_zero fun stalled => ?_
  obtain ⟨rfl, noQuote, noBlock, marker, mem, stands⟩ := look_length_eq_zero_iff.mp stalled
  cases steady with
  | inl quote => exact noQuote quote
  | inr shielded =>
    obtain ⟨empty, leading⟩ := shielded marker mem
    cases marker with
    | nil =>
      apply noBlock
      rw [Opens, empty rfl]
      exact ⟨List.cons_ne_nil _ _, rest, rfl⟩
    | cons c marker =>
      obtain ⟨rfl, _⟩ := List.cons_prefix_cons.mp stands
      obtain ⟨nonempty, front⟩ := leading rfl
      exact noBlock ⟨nonempty, front.trans stands⟩

/-- A steady syntax advances in every text. -/
lemma Steady.advances (steady : syn.Steady) (text : Bytes) : syn.Advances text := by
  intro n more
  rw [after_succ, offset_lt_advance_iff]
  obtain ⟨b, rest, eq⟩ := List.exists_cons_of_ne_nil more
  rw [eq]
  exact steady.look_length_pos b rest

/-- A syntax that can be held up is held up at once: by a text that begins with the marker, or by a
single line break if the marker is empty. -/
lemma steady_of_advances (advances : ∀ text, syn.Advances text) : syn.Steady := by
  by_cases quote : lineFeed ∈ syn.quotes
  · exact .inl quote
  · have opens : ∀ rest, syn.Marked (lineFeed :: rest) → syn.Opens (lineFeed :: rest) := by
      intro rest marked
      by_contra noBlock
      have stalled := look_length_eq_zero_iff.mpr ⟨rfl, quote, noBlock, marked⟩
      have forward := advances (lineFeed :: rest) 0 (List.cons_ne_nil _ _)
      exact Nat.ne_of_gt (offset_lt_advance_iff.mp forward) stalled
    refine .inr fun marker mem => ⟨?_, ?_⟩
    · rintro rfl
      obtain ⟨nonempty, front⟩ := opens [] ⟨[], mem, List.nil_prefix⟩
      obtain empty | ⟨tail, eq, nothing⟩ := List.prefix_cons_iff.mp front
      · exact absurd empty nonempty
      · rw [eq, List.prefix_nil.mp nothing]
    · intro leading
      obtain ⟨rest, rfl⟩ := List.head?_eq_some_iff.mp leading
      exact opens rest ⟨_, mem, List.prefix_rfl⟩

/-- A scan ends just when each of its iterations leads to a later offset, and then after as many
iterations as the text has bytes. All scans by a syntax are of this kind just when no line marker can
hold them up. -/
theorem scan_ends_iff (syn : CommentSyntax) :
    (∀ text, (syn.segment? text).isSome = true ↔ syn.Advances text) ∧
    (∀ text, syn.Advances text → (syn.after text text.length).rest = []) ∧
    ((∀ text, syn.Advances text) ↔ syn.Steady) := by
  refine ⟨fun text => ⟨?_, ?_⟩, fun _ advances => advances.rest_eq_nil,
    steady_of_advances, fun steady => steady.advances⟩
  · intro ends
    obtain ⟨segments, eq⟩ := Option.isSome_iff_exists.mp ends
    exact advances_of_segment? eq
  · intro advances
    rw [advances.segment?_eq]
    rfl

/-- The syntaxes that are known from the start have no such marker. -/
example : ∀ entry ∈ SyntaxRegistry.builtIn.entries, entry.2.Steady := by decide +kernel

/-- With an empty line marker, the scan comes to the first line break and no further. -/
theorem scan_without_end :
    let syn : CommentSyntax := { line := [[]] }
    let text := Utf8.ofString "a\nb"
    syn.segment? text = none ∧ ∀ n, (syn.after text (n + 1)).offset = 1 := by
  intro syn text
  have more : (syn.after text 1).rest ≠ [] := by decide +kernel
  have stalled : (syn.look (syn.after text 1).rest).length = 0 := by decide +kernel
  refine ⟨?_, fun n => ?_⟩
  · refine Option.eq_none_iff_forall_ne_some.mpr fun segments eq => ?_
    have forward := advances_of_segment? eq 1 more
    rw [syn.after_succ text 1, offset_lt_advance_iff, stalled] at forward
    exact Nat.lt_irrefl 0 forward
  · have here : (syn.after text 1).offset = 1 := by decide +kernel
    exact (stalled_iterate stalled n).1.trans here

/-- Where no line marker is empty or begins with a line break, every text has its comments. They are
not empty, lie in the text and follow one another, and the search by halves agrees with a search
through all of them. -/
theorem scan_placed (syn : CommentSyntax) (text : Bytes)
    (markers : ∀ marker ∈ syn.line, marker ≠ [] ∧ marker.head? ≠ some lineFeed) :
    ∃ segments, syn.segment? text = some segments ∧
      (∀ region ∈ segments, region.start < region.stop ∧ region.stop ≤ text.length) ∧
      segments.Pairwise (fun a b => a.stop ≤ b.start) ∧
      ∀ offset, (segments.isComment offset = true ↔
          ∃ region ∈ segments, region.start ≤ offset ∧ offset < region.stop) ∧
        segments.isComment offset =
          segments.any fun region => region.start ≤ offset && offset < region.stop := by
  have advances := (steady_of_markers markers).advances text
  have eq := advances.segment?_eq
  obtain ⟨ordered, inside⟩ := ordered_of_segment? eq
  refine ⟨_, eq, ?_, ordered.pairwise, fun offset => ⟨ordered.isComment_iff, ?_⟩⟩
  · intro region mem
    exact ⟨advances.start_lt_stop _ region (List.mem_reverse.mp mem), inside region mem⟩
  · rw [Bool.eq_iff_iff, ordered.isComment_iff, List.any_eq_true]
    simp only [Segments.Holds, Bool.and_eq_true, decide_eq_true_eq]

/-- Block comments without a closer, and a literal that ends with an escape at the end of the text. -/
theorem scan_placed_odd :
    let syn := ofStrings ["#"] "(" "" "\"\\" ""
    let text := Utf8.ofString "(#a\n\"\\"
    (∀ marker ∈ syn.line, marker ≠ [] ∧ marker.head? ≠ some lineFeed) ∧
    ∃ segments, syn.segment? text = some segments ∧ segments = [⟨0, 1⟩, ⟨1, 3⟩] ∧
      (∀ region ∈ segments, region.start < region.stop ∧ region.stop ≤ text.length) ∧
      segments.Pairwise (fun a b => a.stop ≤ b.start) ∧
      ∀ offset, (segments.isComment offset = true ↔
          ∃ region ∈ segments, region.start ≤ offset ∧ offset < region.stop) ∧
        segments.isComment offset =
          segments.any fun region => region.start ≤ offset && offset < region.stop := by
  intro syn text
  have markers : ∀ marker ∈ syn.line, marker ≠ [] ∧ marker.head? ≠ some lineFeed := by
    decide +kernel
  have found : syn.segment? text = some [⟨0, 1⟩, ⟨1, 3⟩] := by decide +kernel
  obtain ⟨segments, eq, placed⟩ := scan_placed syn text markers
  exact ⟨markers, segments, eq, Option.some.inj (eq.symm.trans found), placed⟩

end Sift.CommentSyntax
