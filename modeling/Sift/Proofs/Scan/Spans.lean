import Mathlib.Data.List.Basic
import Sift.Proofs.Pattern.Searching
import Sift.Proofs.Scan

/-!
# The spans of one expression

An expression is searched for until the text ends, and matches that are empty or begin where the expression may
not match are passed over. What keeps to the text covers spans of it (`Document.spans_of_keepsTo`). If the searches
are orderly, they come to an end, and the spans that are left follow one another in the text
(`Document.spans_ascending`). Nothing else is asked of what carries out the searches: it may give one up.
-/

namespace Sift

/-- The bytes of a text between the first code point of a match and the one behind it. -/
def Pattern.Match.span (text : Bytes) (found : Match) : Span :=
  let start := Utf8.offsetOf text found.place
  ⟨start, Utf8.offsetOf text (found.place + found.length) - start⟩

namespace Document

variable {text : Bytes} {comments : Segments} {expression : Expression} {engine : Pattern.Engine}

/-- A match ends at the code point behind it. -/
lemma stop_span (text : Bytes) (found : Pattern.Match) :
    (found.span text).stop = Utf8.offsetOf text (found.place + found.length) :=
  Nat.add_sub_cancel' (Utf8.offsetOf_mono text (Nat.le_add_right _ _))

/-- A match in the text covers a span of it. -/
lemma stretchOf?_of_within {found} (within : found.Within (ofBytes text).codes.size) :
    (ofBytes text).stretchOf? found = some (found.span text).stretch := by
  obtain ⟨nonneg, le⟩ := within
  rw [size_codes] at le
  have first : (found.place : Int) = found.start := Int.toNat_of_nonneg nonneg
  have behind : ((found.place + found.length : Nat) : Int) = found.start + found.length := by
    rw [Int.natCast_add, first]
  have offset := @Utf8.offsetOf?_natCast text found.place (by omega)
  have offset' := @Utf8.offsetOf?_natCast text (found.place + found.length) (by omega)
  have length : ((Utf8.offsetOf text (found.place + found.length) : Int) - Utf8.offsetOf text found.place).toNat =
      Utf8.offsetOf text (found.place + found.length) - Utf8.offsetOf text found.place := Int.toNat_sub _ _
  rw [stretchOf?, placeOffset?_ofBytes, placeOffset?_ofBytes, ← behind, ← first, offset, offset']
  dsimp only
  rw [length]
  rfl

/-- Where all that is found lies in the text, the stretches of an expression are spans of it. -/
lemma spans_of_keepsTo (keeps : Pattern.KeepsTo engine expression.node (ofBytes text).codes) :
    (ofBytes text).spans comments expression engine =
      (((Pattern.findAll expression.node (ofBytes text).codes engine).map (Pattern.Match.span text)).filter
        fun span => 0 < span.length && comments.allowedAt expression.kinds span.start).map Span.stretch := by
  have each : (Pattern.findAll expression.node (ofBytes text).codes engine).filterMap (ofBytes text).stretchOf? =
      ((Pattern.findAll expression.node (ofBytes text).codes engine).map (Pattern.Match.span text)).map
        Span.stretch := by
    rw [List.map_map]
    refine Eq.trans (List.filterMap_congr fun found mem => ?_) (congrFun List.filterMap_eq_map _)
    exact stretchOf?_of_within (keeps found mem)
  rw [spans, each, List.filter_map]
  rfl

/-- Each stretch of an expression that keeps to the text is a span of it. -/
lemma exists_of_mem_spans (keeps : Pattern.KeepsTo engine expression.node (ofBytes text).codes) {stretch}
    (mem : stretch ∈ (ofBytes text).spans comments expression engine) :
    ∃ span : Span, stretch = span.stretch ∧ 0 < span.length ∧ span.stop ≤ text.length ∧
      comments.allowedAt expression.kinds span.start = true := by
  rw [spans_of_keepsTo keeps] at mem
  obtain ⟨span, mem', rfl⟩ := List.mem_map.mp mem
  obtain ⟨covered, left⟩ := List.mem_filter.mp mem'
  rw [Bool.and_eq_true, decide_eq_true_eq] at left
  obtain ⟨found, _, rfl⟩ := List.mem_map.mp covered
  exact ⟨_, rfl, left.1, stop_span text found ▸ Utf8.offsetOf_le text _, left.2⟩

/-- The spans follow one another if the matches do. -/
lemma spans_pairwise (keeps : Pattern.KeepsTo engine expression.node (ofBytes text).codes)
    (follow : (Pattern.findAll expression.node (ofBytes text).codes engine).Pairwise
      fun found later : Pattern.Match => found.start + (found.length : Int) ≤ later.start) :
    ((ofBytes text).spans comments expression engine).Pairwise fun stretch later =>
      stretch.start < later.start ∧ stretch.stop ≤ later.start := by
  rw [spans_of_keepsTo keeps, List.pairwise_map, List.pairwise_filter, List.pairwise_map]
  refine follow.imp_of_mem fun {found later} mem _ le left _ => ?_
  rw [Bool.and_eq_true, decide_eq_true_eq] at left
  have first : (found.place : Int) = found.start := Int.toNat_of_nonneg (keeps found mem).nonneg
  have order : (found.span text).stop ≤ (later.span text).start := by
    rw [stop_span]
    refine Utf8.offsetOf_mono text ?_
    rw [Pattern.Match.place, Pattern.Match.place] at *
    omega
  have stop : (found.span text).stop = (found.span text).start + (found.span text).length := rfl
  exact ⟨Int.ofNat_lt.mpr (by omega), Int.ofNat_le.mpr order⟩

/-- The searches for an expression come to an end, with one list of matches and no more of them than there are
places in the text. The spans that are left of these are not empty and lie in the text, each begins where the
expression may match, and each ends before the next one begins. It is assumed of the searches, whatever carries
them out, that none finds a match that begins before the search does, and that the next search begins where the
match ends, one place further if the match is empty, and no match ends behind the text; this is so for the own
searches for all upright patterns (`Pattern.orderly_find?`). -/
theorem spans_ascending (engine : Pattern.Engine) (text : Bytes) (comments : Segments) (expression : Expression)
    (orderly : Pattern.Orderly (ofBytes text).codes.size (engine expression.node (ofBytes text).codes)) :
    (∃ found : List Pattern.Match,
      (∀ found', Pattern.Searches (engine expression.node (ofBytes text).codes)
        (ofBytes text).codes.size 0 found' ↔ found' = found) ∧
      found.length ≤ (ofBytes text).codes.size + 1 ∧
      (ofBytes text).spans comments expression engine = ((found.map (Pattern.Match.span text)).filter fun span =>
        0 < span.length && comments.allowedAt expression.kinds span.start).map Span.stretch) ∧
    (((ofBytes text).spans comments expression engine).Pairwise fun stretch later =>
      stretch.start < later.start ∧ stretch.stop ≤ later.start) ∧
    ∀ stretch ∈ (ofBytes text).spans comments expression engine, ∃ span : Span, stretch = span.stretch ∧
      0 < span.length ∧ span.stop ≤ text.length ∧
        comments.allowedAt expression.kinds span.start = true ∧
        (comments.Ordered → (comments.Holds span.start → expression.kinds.comment = true) ∧
          (¬ comments.Holds span.start → expression.kinds.code = true)) := by
  have searches := (Pattern.searches_findAll_iff orderly).mpr rfl
  have keeps := orderly.keepsTo
  refine ⟨⟨_, fun _ => Pattern.searches_findAll_iff orderly, ?_, spans_of_keepsTo keeps⟩, ?_, ?_⟩
  · exact searches.length_le orderly (Nat.zero_le _)
  · exact spans_pairwise keeps (searches.pairwise orderly)
  · intro stretch mem
    obtain ⟨span, eq, pos, le, allowed⟩ := exists_of_mem_spans keeps mem
    refine ⟨span, eq, pos, le, allowed, fun ordered => ?_⟩
    rw [← Segments.holdsAt_natCast]
    exact ordered.allowedAt_iff.mp allowed

/-- An expression that may read nothing has seven matches, four of them empty and one in a comment. -/
theorem spans_ascending_past_empty :
    let text := Utf8.ofString "éxxaxbx"
    let comments : Segments := [⟨5, 6⟩]
    let node : Pattern.Node := .seq (.look false (.char {} (.char 122)))
      (.repeatChar {} (.char 120) ⟨0, none, false⟩)
    let expression : Expression :=
      ⟨{ text := "(?!z)x*", type := "regex", scopes := ["code"] }, node, ⟨true, false⟩⟩
    (Expression.compile { text := "(?!z)x*", scopes := ["code"] }).toOption = some expression ∧
      Pattern.Orderly (ofBytes text).codes.size (Pattern.find? node (ofBytes text).codes) ∧ comments.Ordered ∧
      (∃ found, Pattern.Searches (Pattern.find? node (ofBytes text).codes) (ofBytes text).codes.size 0 found ∧
        found.map (fun found => (found.start, found.length)) =
          [(0, 0), (1, 2), (3, 0), (4, 1), (5, 0), (6, 1), (7, 0)]) ∧
      (ofBytes text).spans comments expression = [⟨2, 2⟩, ⟨7, 1⟩] ∧
      (((ofBytes text).spans comments expression).Pairwise fun stretch later =>
        stretch.start < later.start ∧ stretch.stop ≤ later.start) ∧
      ∀ stretch ∈ (ofBytes text).spans comments expression,
        ∃ span : Span, stretch = span.stretch ∧ ¬ comments.Holds span.start := by
  intro text comments node expression
  have compiled : (Expression.compile { text := "(?!z)x*", scopes := ["code"] }).toOption = some expression := by
    decide +kernel
  have orderly : Pattern.Orderly (ofBytes text).codes.size (Pattern.find? node (ofBytes text).codes) :=
    Pattern.orderly_find? rfl _
  have ordered : comments.Ordered := ⟨by decide, by decide⟩
  have matches_eq : (Pattern.findAll node (ofBytes text).codes).map (fun found => (found.start, found.length)) =
      [(0, 0), (1, 2), (3, 0), (4, 1), (5, 0), (6, 1), (7, 0)] := by decide +kernel
  have spans_eq : (ofBytes text).spans comments expression = [⟨2, 2⟩, ⟨7, 1⟩] := by decide +kernel
  obtain ⟨⟨found, searches, _⟩, pairwise, each⟩ :=
    spans_ascending Pattern.find? text comments expression orderly
  have found_eq : Pattern.findAll node (ofBytes text).codes = found :=
    (searches _).mp ((Pattern.searches_findAll_iff orderly).mpr rfl)
  refine ⟨compiled, orderly, ordered, ⟨found, (searches found).mpr rfl, found_eq ▸ matches_eq⟩, spans_eq,
    pairwise, fun stretch mem => ?_⟩
  obtain ⟨span, eq, _, _, _, kinds⟩ := each stretch mem
  exact ⟨span, eq, fun holds => Bool.false_ne_true ((kinds ordered).1 holds)⟩

end Document

end Sift
