import Sift.Scan
import Sift.Proofs.Document
import Sift.Proofs.Segment

/-!
# What a rule finds

What an expression finds in a text is said without the prepared document: a match of the expression
covers the stretch, the stretch is not empty, and its first byte is of a kind that is allowed
(`Expression.Finds`). A rule spots a span of the text that one of its patterns finds unless an exclusion finds
something on its lines (`Rule.Spots`). The findings of a document are just these spans
(`Document.mem_findings`).
-/

namespace Sift

/-- The expression finds the stretch in a text with the given comments. -/
structure Expression.Finds (expression : Expression) (text : Bytes) (comments : Segments)
    (stretch : Stretch) (engine : Pattern.Engine := Pattern.find?) : Prop where
  /-- A match begins and ends where the stretch does. -/
  covered : ∃ found ∈ Pattern.findAll expression.node (Utf8.codePoints text).toArray engine,
    Utf8.offsetOf? text found.start = some stretch.start ∧
      Utf8.offsetOf? text (found.start + found.length) = some stretch.stop
  nonempty : 0 < stretch.length
  /-- The first byte is of a kind the expression may match. -/
  comment : comments.HoldsAt stretch.start → expression.kinds.comment = true
  code : ¬ comments.HoldsAt stretch.start → expression.kinds.code = true

/-- A pattern of the rule finds the span, which lies in the text, and no exclusion finds anything on its
lines. -/
structure Rule.Spots (rule : Rule) (text : Bytes) (comments : Segments) (span : Span)
    (engine : Pattern.Engine := Pattern.find?) : Prop where
  found : ∃ pattern ∈ rule.patterns, pattern.Finds text comments span.stretch engine
  inside : span.stop ≤ text.length
  kept : ∀ exclusion ∈ rule.exclusions, ∀ other, exclusion.Finds text comments other engine →
    ¬ (other.start < Lines.stop text (span.stop - 1) ∧ Lines.start text span.start < other.stop)

/-- What is spotted is not empty. -/
lemma Rule.Spots.nonempty {rule : Rule} {text comments span engine} (spots : rule.Spots text comments span engine) :
    span.start < span.stop := by
  obtain ⟨_, _, finds⟩ := spots.found
  exact Nat.lt_add_of_pos_right finds.nonempty

/-- Nothing is spotted in an empty text. -/
lemma Rule.Spots.ne_nil {rule : Rule} {text comments span engine} (spots : rule.Spots text comments span engine) :
    text ≠ [] := by
  rintro rfl
  have pos := spots.nonempty
  have le := spots.inside
  rw [List.length_nil] at le
  omega

lemma Span.stop_stretch (span : Span) : span.stretch.stop = span.stop := rfl

namespace Document

variable {text : Bytes} {comments : Segments} {engine : Pattern.Engine}

/-- A match covers what lies between the offsets of its ends, unless it is empty. -/
lemma stretchOf?_eq_some_iff {found stretch} (pos : 0 < stretch.length) :
    (ofBytes text).stretchOf? found = some stretch ↔
      Utf8.offsetOf? text found.start = some stretch.start ∧
        Utf8.offsetOf? text (found.start + found.length) = some stretch.stop := by
  obtain ⟨first, length⟩ := stretch
  rw [stretchOf?, placeOffset?_ofBytes, placeOffset?_ofBytes, Stretch.stop]
  dsimp only at pos ⊢
  cases Utf8.offsetOf? text found.start with
  | none => exact ⟨by rintro ⟨⟩, by rintro ⟨⟨⟩, _⟩⟩
  | some start =>
    cases Utf8.offsetOf? text (found.start + found.length) with
    | none => exact ⟨by rintro ⟨⟩, by rintro ⟨_, ⟨⟩⟩⟩
    | some stop =>
      rw [Option.some_inj, Option.some_inj, Option.some_inj, Stretch.mk.injEq]
      constructor
      · rintro ⟨rfl, eq⟩
        exact ⟨rfl, by omega⟩
      · rintro ⟨rfl, eq⟩
        exact ⟨rfl, by omega⟩

/-- A document finds the stretches that an expression finds. -/
lemma mem_spans (ordered : comments.Ordered) {expression stretch} :
    stretch ∈ (ofBytes text).spans comments expression engine ↔
      expression.Finds text comments stretch engine := by
  rw [spans, List.mem_filter, List.mem_filterMap, Bool.and_eq_true, decide_eq_true_eq,
    ordered.allowedAt_iff]
  constructor
  · rintro ⟨⟨found, mem, eq⟩, pos, comment, code⟩
    exact ⟨⟨found, mem, (stretchOf?_eq_some_iff pos).mp eq⟩, pos, comment, code⟩
  · rintro ⟨⟨found, mem, ends⟩, pos, comment, code⟩
    exact ⟨⟨found, mem, (stretchOf?_eq_some_iff pos).mpr ends⟩, pos, comment, code⟩

/-- Adding stretches adds those that are not there yet. -/
lemma mem_addSpans {stretch seen stretches} :
    stretch ∈ addSpans seen stretches ↔ stretch ∈ seen ∨ stretch ∈ stretches := by
  induction stretches generalizing seen with
  | nil => simp [addSpans]
  | cons first rest ih =>
    have step : stretch ∈ addSpans seen (first :: rest) ↔
        stretch ∈ (if seen.contains first then seen else seen ++ [first]) ∨ stretch ∈ rest := ih
    rw [step, List.mem_cons]
    split
    · rename_i old
      rw [List.contains_iff_mem] at old
      constructor
      · exact fun h => h.imp_right .inr
      · rintro (mem | rfl | mem)
        · exact .inl mem
        · exact .inl old
        · exact .inr mem
    · rw [List.mem_append, List.mem_singleton, or_assoc]

/-- Adding lists of stretches adds all that stand in them. -/
lemma mem_foldl_addSpans {stretch seen} {lists : List (List Stretch)} :
    stretch ∈ lists.foldl addSpans seen ↔ stretch ∈ seen ∨ ∃ stretches ∈ lists, stretch ∈ stretches := by
  induction lists generalizing seen with
  | nil => simp
  | cons first rest ih =>
    rw [List.foldl_cons, ih, mem_addSpans, or_assoc]
    simp only [List.mem_cons, exists_eq_or_imp]

/-- An exclusion touches a span if it begins before the lines of the span end and ends behind where
they begin. -/
lemma touches_iff {span : Span} {exclusion} (pos : 0 < span.stop) :
    (ofBytes text).touches span.stretch exclusion = true ↔
      exclusion.start < Lines.stop text (span.stop - 1) ∧
        Lines.start text span.start < exclusion.stop := by
  have last : (span.stretch.stop - 1).toNat = span.stop - 1 := by
    rw [Span.stop_stretch]
    omega
  have first : span.stretch.start.toNat = span.start := Int.toNat_natCast _
  rw [touches, last, first, lineEnd_ofBytes, lineStart_ofBytes, Bool.and_eq_true, decide_eq_true_eq,
    decide_eq_true_eq]

/-- A text has the bytes between two offsets if they lie in it, one not behind the other. -/
lemma slice?_eq_some_iff {start stop part} :
    (ofBytes text).slice? start stop = some part ↔
      (0 ≤ start ∧ start ≤ stop ∧ stop ≤ text.length) ∧
        (text.drop start.toNat).take (stop.toNat - start.toNat) = part := by
  rw [slice?, Option.ite_none_right_eq_some, Option.some_inj]
  rfl

/-- A span of the text is cut out of it, with its bytes made valid. -/
lemma cut?_stretch {span} (inside : span.stop ≤ text.length) :
    (ofBytes text).cut? span.stretch =
      some ⟨span, Utf8.toValidString ((text.drop span.start).take span.length)⟩ := by
  obtain ⟨start, length⟩ := span
  have taken : (start + length : Int).toNat - (start : Int).toNat = length := by omega
  have slice : (ofBytes text).slice? start (start + length) = some ((text.drop start).take length) := by
    refine slice?_eq_some_iff.mpr ⟨⟨Int.natCast_nonneg _, by omega, Int.ofNat_le.mpr inside⟩, ?_⟩
    rw [taken, Int.toNat_natCast]
  rw [cut?, Span.stretch, Stretch.stop, slice, Option.map_some, Int.toNat_natCast]

/-- Nothing but spans of the text is cut out of it. -/
lemma exists_of_cut? {stretch finding} (eq : (ofBytes text).cut? stretch = some finding) :
    ∃ span : Span, stretch = span.stretch ∧ span.stop ≤ text.length := by
  obtain ⟨part, slice, _⟩ := Option.map_eq_some_iff.mp eq
  obtain ⟨⟨nonneg, _, inside⟩, _⟩ := slice?_eq_some_iff.mp slice
  obtain ⟨first, length⟩ := stretch
  obtain ⟨start, rfl⟩ := Int.eq_ofNat_of_zero_le nonneg
  exact ⟨⟨start, length⟩, rfl, Int.ofNat_le.mp inside⟩

/-- A finding is a span of the text that is kept, with its bytes made valid. -/
lemma of_mem_findings {rule finding} (mem : finding ∈ (ofBytes text).findings comments rule engine) :
    finding.span.stretch ∈ (ofBytes text).kept comments rule engine ∧ finding.span.stop ≤ text.length ∧
      finding.text = Utf8.toValidString ((text.drop finding.span.start).take finding.span.length) := by
  obtain ⟨stretch, kept, cut⟩ := List.mem_filterMap.mp mem
  obtain ⟨span, rfl, inside⟩ := exists_of_cut? cut
  cases (cut?_stretch inside).symm.trans cut
  exact ⟨kept, inside, rfl⟩

/-- What the patterns of a rule find, each once. -/
lemma mem_found (ordered : comments.Ordered) {rule stretch} :
    stretch ∈ (ofBytes text).found comments rule engine ↔
      ∃ pattern ∈ rule.patterns, pattern.Finds text comments stretch engine := by
  rw [found, mem_foldl_addSpans]
  simp only [List.not_mem_nil, false_or, List.mem_map, exists_exists_and_eq_and, mem_spans ordered]

/-- What the exclusions of a rule find, where its patterns find something. -/
lemma mem_excluded (ordered : comments.Ordered) {rule} (found : (ofBytes text).found comments rule engine ≠ [])
    {stretch} :
    stretch ∈ (ofBytes text).excluded comments rule engine ↔
      ∃ exclusion ∈ rule.exclusions, exclusion.Finds text comments stretch engine := by
  rw [excluded, if_neg (by simpa using found), List.mem_flatMap]
  simp only [mem_spans ordered]

/-- The spans that a document keeps for a rule are those that the rule spots, as long as they lie in the
text. -/
lemma mem_kept (ordered : comments.Ordered) {rule span} (inside : span.stop ≤ text.length) :
    span.stretch ∈ (ofBytes text).kept comments rule engine ↔ rule.Spots text comments span engine := by
  rw [kept, List.mem_filter, List.mem_mergeSort, Bool.not_eq_true', List.any_eq_false]
  constructor
  · rintro ⟨mem, untouched⟩
    have patterns := (mem_found ordered).mp mem
    have ⟨_, _, finds⟩ := patterns
    have pos : 0 < span.stop := Nat.add_pos_right _ finds.nonempty
    refine ⟨patterns, inside, fun exclusion mem' other finds' touches => ?_⟩
    have excluded := (mem_excluded ordered (List.ne_nil_of_mem mem)).mpr ⟨exclusion, mem', finds'⟩
    exact untouched other excluded ((touches_iff pos).mpr touches)
  · intro spots
    have mem := (mem_found ordered).mpr spots.found
    have pos : 0 < span.stop := Nat.zero_lt_of_lt spots.nonempty
    refine ⟨mem, fun other excluded touches => ?_⟩
    obtain ⟨exclusion, mem', finds⟩ := (mem_excluded ordered (List.ne_nil_of_mem mem)).mp excluded
    exact spots.kept exclusion mem' other finds ((touches_iff pos).mp touches)

/-- The findings of a document are the spans that the rule spots. -/
lemma mem_findings (ordered : comments.Ordered) {rule span} :
    (∃ finding ∈ (ofBytes text).findings comments rule engine, finding.span = span) ↔
      rule.Spots text comments span engine := by
  constructor
  · rintro ⟨finding, mem, rfl⟩
    obtain ⟨kept, inside, _⟩ := of_mem_findings mem
    exact (mem_kept ordered inside).mp kept
  · intro spots
    have kept := (mem_kept ordered spots.inside).mpr spots
    exact ⟨_, List.mem_filterMap.mpr ⟨span.stretch, kept, cut?_stretch spots.inside⟩, rfl⟩

end Document

end Sift
