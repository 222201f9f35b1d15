import Mathlib.Logic.Function.Iterate
import Mathlib.Tactic.Lemma
import Sift.Segment

/-!
# Comments and where they lie

Among regions that follow one another (`Segments.Ordered`) the search by halves finds the first that
ends behind an offset (`Segments.Ordered.search_divides`), so that an offset is judged to be in a comment
just when one of the regions holds it (`Segments.Ordered.isComment_iff`).

The comments of a text come from a loop that need not end. What it finds at one place is one of a few
kinds (`CommentSyntax.shows_look`), and it has a result just when some number of iterations leads to the
end of the text (`CommentSyntax.run_eq_some_iff`). An invariant of the iterations
(`CommentSyntax.Scanner.Sound`) then shows that the comments follow one another and lie in the text,
whatever the markers are (`CommentSyntax.ordered_of_segment?`).
-/

namespace Sift

namespace Segments

/-- Regions that follow one another. -/
structure Ordered (segments : Segments) : Prop where
  start_le_stop : ∀ region ∈ segments, region.start ≤ region.stop
  pairwise : segments.Pairwise fun a b => a.stop ≤ b.start

lemma Ordered.nil : Ordered [] := ⟨nofun, .nil⟩

/-- A region behind regions that end at its start or before. -/
lemma Ordered.concat {region segments} (ordered : Ordered segments)
    (before : ∀ other ∈ segments, other.stop ≤ region.start) (le : region.start ≤ region.stop) :
    Ordered (segments ++ [region]) where
  start_le_stop := by
    intro other mem
    rcases List.mem_append.mp mem with mem | mem
    · exact ordered.start_le_stop other mem
    · rw [List.mem_singleton.mp mem]
      exact le
  pairwise := by
    refine List.pairwise_append.mpr ⟨ordered.pairwise, List.pairwise_singleton _ _, ?_⟩
    intro other mem last mem'
    rw [List.mem_singleton.mp mem']
    exact before other mem

/-- A later region begins where an earlier one ends, or behind it. -/
lemma Ordered.stop_le_start {segments} (ordered : Ordered segments) {i j : Nat} {a b} (lt : i < j)
    (at_i : segments[i]? = some a) (at_j : segments[j]? = some b) :
    a.stop ≤ b.start := by
  obtain ⟨i_lt, rfl⟩ := List.getElem?_eq_some_iff.mp at_i
  obtain ⟨j_lt, rfl⟩ := List.getElem?_eq_some_iff.mp at_j
  exact List.pairwise_iff_getElem.mp ordered.pairwise i j i_lt j_lt lt

/-- Regions end in ascending order. -/
lemma Ordered.stop_le_stop {segments} (ordered : Ordered segments) {i j : Nat} {a b} (le : i ≤ j)
    (at_i : segments[i]? = some a) (at_j : segments[j]? = some b) :
    a.stop ≤ b.stop := by
  rcases Nat.eq_or_lt_of_le le with rfl | lt
  · rw [at_i] at at_j
    cases at_j
    exact Nat.le_refl _
  · have first := ordered.stop_le_start lt at_i at_j
    have second := ordered.start_le_stop b (List.mem_of_getElem? at_j)
    exact Nat.le_trans first second

/-- `place` divides regions into those that end before an offset or at it, and those that end behind
it. -/
structure Divides (segments : Segments) (offset place : Nat) : Prop where
  below : ∀ {i region}, i < place → segments[i]? = some region → region.stop ≤ offset
  above : ∀ {i region}, place ≤ i → segments[i]? = some region → offset < region.stop

/-- The search by halves ends where the regions divide, if they divide between its bounds. -/
lemma Ordered.searchBetween_divides {segments} (ordered : Ordered segments) {offset : Nat} {fuel low high}
    (enough : high - low ≤ fuel) (le : low ≤ high) (size : high ≤ segments.length)
    (below : ∀ {i region}, i < low → segments[i]? = some region → region.stop ≤ offset)
    (above : ∀ {i region}, high ≤ i → segments[i]? = some region → offset < region.stop) :
    Divides segments offset (searchBetween segments.toArray offset fuel low high) := by
  induction fuel generalizing low high with
  | zero =>
    obtain rfl : low = high := by omega
    exact ⟨below, above⟩
  | succ fuel ih =>
    unfold searchBetween
    split
    · have lt : (low + high) / 2 < segments.length := by omega
      have at_middle : segments[(low + high) / 2]? = some segments[(low + high) / 2] :=
        List.getElem?_eq_getElem lt
      simp only [List.getElem?_toArray, at_middle]
      split
      · rename_i behind
        refine ih (by omega) (by omega) (by omega) below ?_
        intro i region le_i at_i
        exact Nat.lt_of_lt_of_le behind (ordered.stop_le_stop le_i at_middle at_i)
      · rename_i before
        refine ih (by omega) (by omega) size ?_ above
        intro i region i_lt at_i
        have stop := ordered.stop_le_stop (Nat.le_of_lt_succ i_lt) at_i at_middle
        omega
    · obtain rfl : low = high := by omega
      exact ⟨below, above⟩

/-- The search finds the first region that ends behind an offset. -/
lemma Ordered.search_divides {segments} (ordered : Ordered segments) (offset : Nat) :
    Divides segments offset (search segments offset) := by
  refine ordered.searchBetween_divides (Nat.le_refl _) (Nat.zero_le _) (Nat.le_refl _) ?_ ?_
  · exact fun i_lt => absurd i_lt (Nat.not_lt_zero _)
  · intro i region le at_i
    rw [List.getElem?_eq_none le] at at_i
    cases at_i

/-- One of the regions holds an offset. -/
def Holds (segments : Segments) (offset : Nat) : Prop :=
  ∃ region ∈ segments, region.start ≤ offset ∧ offset < region.stop

/-- An offset is in a comment just when one of the regions holds it. -/
lemma Ordered.isComment_iff {segments} (ordered : Ordered segments) {offset : Nat} :
    segments.isComment offset = true ↔ segments.Holds offset := by
  have divides := ordered.search_divides offset
  rw [isComment]
  constructor
  · intro comment
    split at comment
    · rename_i region at_place
      have behind := divides.above (Nat.le_refl _) at_place
      exact ⟨region, List.mem_of_getElem? at_place, of_decide_eq_true comment, behind⟩
    · cases comment
  · rintro ⟨region, mem, start, stop⟩
    obtain ⟨i, at_i⟩ := List.mem_iff_getElem?.mp mem
    -- The region is the first that ends behind the offset: one before it would end at its start.
    have le : search segments offset ≤ i := by
      refine Nat.le_of_not_lt fun lt => ?_
      have := divides.below lt at_i
      omega
    rcases Nat.eq_or_lt_of_le le with eq | lt
    · rw [eq, at_i]
      exact decide_eq_true start
    · have i_lt := (List.getElem?_eq_some_iff.mp at_i).1
      have at_place : segments[search segments offset]? = some _ :=
        List.getElem?_eq_getElem (Nat.lt_trans lt i_lt)
      have first := divides.above (Nat.le_refl _) at_place
      have second := ordered.stop_le_start lt at_place at_i
      omega

/-- An offset that may lie before the text lies in one of the regions. -/
def HoldsAt (segments : Segments) (offset : Int) : Prop := 0 ≤ offset ∧ segments.Holds offset.toNat

/-- An offset in the text lies in a region as it does otherwise. -/
lemma holdsAt_natCast {segments : Segments} {offset : Nat} :
    segments.HoldsAt offset ↔ segments.Holds offset := by
  rw [HoldsAt, Int.toNat_natCast]
  exact and_iff_right (Int.natCast_nonneg _)

/-- An offset is allowed if its kind is: that of comments inside them, that of code elsewhere. -/
lemma Ordered.allowedAt_iff {segments} (ordered : Ordered segments) {kinds offset} :
    segments.allowedAt kinds offset = true ↔
      (segments.HoldsAt offset → kinds.comment = true) ∧
        (¬ segments.HoldsAt offset → kinds.code = true) := by
  have inside : (0 ≤ offset && segments.isComment offset.toNat) = true ↔ segments.HoldsAt offset := by
    rw [Bool.and_eq_true, decide_eq_true_eq, ordered.isComment_iff, HoldsAt]
  rw [allowedAt]
  by_cases holds : segments.HoldsAt offset
  · rw [if_pos (inside.mpr holds)]
    exact ⟨fun allowed => ⟨fun _ => allowed, fun no => absurd holds no⟩, fun h => h.1 holds⟩
  · rw [if_neg (mt inside.mp holds)]
    exact ⟨fun allowed => ⟨fun yes => absurd yes holds, fun _ => allowed⟩, fun h => h.2 holds⟩

end Segments

namespace CommentSyntax

lemma literalLength_le (quote : UInt8) (multiline : Bool) (text : Bytes) :
    literalLength quote multiline text ≤ text.length := by
  fun_induction literalLength quote multiline text <;> simp only [List.length_cons, List.length_nil] <;>
    omega

/-- `part` stands in `text` at a place, and nowhere before. -/
structure FirstAt (part text : Bytes) (place : Nat) : Prop where
  le : place ≤ text.length
  stands : part <+: text.drop place
  first : ∀ before < place, ¬ part <+: text.drop before

/-- Nothing stands in a text behind what fits into it. -/
lemma FirstAt.add_length_le {part text place} (at_place : FirstAt part text place) :
    place + part.length ≤ text.length := by
  have fits := at_place.stands.length_le
  have le := at_place.le
  rw [List.length_drop] at fits
  omega

/-- An index is that of the first place. -/
lemma firstAt_of_indexOf? {part text place} (eq : indexOf? part text = some place) :
    FirstAt part text place := by
  induction text generalizing place with
  | nil =>
    rw [indexOf?] at eq
    split at eq
    case isTrue none =>
      cases eq
      rw [List.isEmpty_iff.mp none]
      exact ⟨Nat.le_refl _, List.nil_prefix, fun _ lt => absurd lt (Nat.not_lt_zero _)⟩
    case isFalse => cases eq
  | cons b rest ih =>
    rw [indexOf?] at eq
    split at eq
    case isTrue front =>
      cases eq
      exact ⟨Nat.zero_le _, List.isPrefixOf_iff_prefix.mp front,
        fun _ lt => absurd lt (Nat.not_lt_zero _)⟩
    case isFalse front =>
      obtain ⟨place, eq', rfl⟩ := Option.map_eq_some_iff.mp eq
      have later := ih eq'
      refine ⟨Nat.succ_le_succ later.le, later.stands, ?_⟩
      intro before lt stands
      cases before with
      | zero => exact front (List.isPrefixOf_iff_prefix.mpr stands)
      | succ before => exact later.first before (Nat.lt_of_succ_lt_succ lt) stands

lemma not_stands_of_indexOf? {part text} (eq : indexOf? part text = none) (place : Nat) :
    ¬ part <+: text.drop place := by
  induction text generalizing place with
  | nil =>
    rw [indexOf?] at eq
    split at eq
    case isTrue => cases eq
    case isFalse none =>
      rw [List.drop_nil, List.prefix_nil]
      exact fun nil => none (List.isEmpty_iff.mpr nil)
  | cons b rest ih =>
    rw [indexOf?] at eq
    split at eq
    case isTrue => cases eq
    case isFalse front =>
      cases place with
      | zero => exact fun stands => front (List.isPrefixOf_iff_prefix.mpr stands)
      | succ place => exact ih (Option.map_eq_none_iff.mp eq) place

/-- A line ends before its first byte if this is the line break, else where the rest of it ends. -/
lemma lineLength_cons (b : UInt8) (rest : Bytes) :
    (indexOf? [lineFeed] (b :: rest)).getD (b :: rest).length =
      if b = lineFeed then 0 else (indexOf? [lineFeed] rest).getD rest.length + 1 := by
  rw [indexOf?]
  by_cases eq : b = lineFeed
  · subst eq
    rfl
  · have front : [lineFeed].isPrefixOf (b :: rest) = false := by
      rw [List.isPrefixOf_cons_cons, beq_eq_false_iff_ne.mpr (Ne.symm eq), Bool.false_and]
    rw [if_neg (Bool.eq_false_iff.mp front), if_neg eq]
    cases indexOf? [lineFeed] rest with
    | none => rfl
    | some place => rfl

/-- A block comment begins at the front of a text. -/
def Opens (syn : CommentSyntax) (text : Bytes) : Prop :=
  syn.blockStart ≠ [] ∧ syn.blockStart <+: text

instance (syn : CommentSyntax) (text : Bytes) : Decidable (syn.Opens text) :=
  inferInstanceAs (Decidable (_ ∧ _))

/-- A marker of line comments stands at the front of a text. -/
def Marked (syn : CommentSyntax) (text : Bytes) : Prop := ∃ marker ∈ syn.line, marker <+: text

instance (syn : CommentSyntax) (text : Bytes) : Decidable (syn.Marked text) :=
  inferInstanceAs (Decidable (∃ marker ∈ syn.line, marker <+: text))

/-- What can be found at the front of a text that begins with `b`, each kind with what excludes the
kinds before it. -/
inductive Shows (syn : CommentSyntax) (b : UInt8) (rest : Bytes) : Found → Prop
  | literal (quote : b ∈ syn.quotes) :
    Shows syn b rest ⟨literalLength b (syn.multiline.contains b) rest + 1, false⟩
  | block {inside : Nat} (noQuote : b ∉ syn.quotes) (opens : syn.Opens (b :: rest))
    (closes : FirstAt syn.blockEnd ((b :: rest).drop syn.blockStart.length) inside) :
    Shows syn b rest ⟨syn.blockStart.length + inside + syn.blockEnd.length, true⟩
  | openBlock (noQuote : b ∉ syn.quotes) (opens : syn.Opens (b :: rest))
    (open_ : ∀ place, ¬ syn.blockEnd <+: ((b :: rest).drop syn.blockStart.length).drop place) :
    Shows syn b rest ⟨(b :: rest).length, true⟩
  | line (noQuote : b ∉ syn.quotes) (noBlock : ¬ syn.Opens (b :: rest))
    (marked : syn.Marked (b :: rest)) :
    Shows syn b rest ⟨(indexOf? [lineFeed] (b :: rest)).getD (b :: rest).length, true⟩
  | plain (noQuote : b ∉ syn.quotes) (noBlock : ¬ syn.Opens (b :: rest))
    (unmarked : ¬ syn.Marked (b :: rest)) : Shows syn b rest ⟨1, false⟩

lemma opens_iff {syn : CommentSyntax} {text} :
    (!syn.blockStart.isEmpty && syn.blockStart.isPrefixOf text) = true ↔ syn.Opens text := by
  simp [Opens]

lemma marked_iff {syn : CommentSyntax} {text} :
    (syn.line.any fun marker => marker.isPrefixOf text) = true ↔ syn.Marked text := by
  simp [Marked]

/-- What `look` finds is one of the kinds. -/
lemma shows_look (syn : CommentSyntax) (b : UInt8) (rest : Bytes) :
    syn.Shows b rest (syn.look (b :: rest)) := by
  rw [look]
  split
  case isTrue quote => exact .literal (List.contains_iff_mem.mp quote)
  case isFalse noQuote =>
    rw [List.contains_iff_mem] at noQuote
    split
    case isTrue opens =>
      rw [opens_iff] at opens
      split
      case h_1 eq => exact .block noQuote opens (firstAt_of_indexOf? eq)
      case h_2 eq => exact .openBlock noQuote opens (not_stands_of_indexOf? eq)
    case isFalse noBlock =>
      rw [opens_iff] at noBlock
      split
      case isTrue marked => exact .line noQuote noBlock (marked_iff.mp marked)
      case isFalse unmarked => exact .plain noQuote noBlock (mt marked_iff.mpr unmarked)

/-- What is found at the front of a text lies in it. -/
lemma look_length_le (syn : CommentSyntax) (text : Bytes) : (syn.look text).length ≤ text.length := by
  cases text with
  | nil => exact Nat.le_refl 0
  | cons b rest =>
    generalize eq : syn.look (b :: rest) = found
    cases eq ▸ syn.shows_look b rest with
    | literal => exact Nat.succ_le_succ (literalLength_le _ _ rest)
    | block _ opens closes =>
      have begins := opens.2.length_le
      have ends := closes.add_length_le
      rw [List.length_drop] at ends
      dsimp only
      omega
    | openBlock => exact Nat.le_refl _
    | line =>
      cases eq : indexOf? [lineFeed] (b :: rest) with
      | none => exact Nat.le_refl _
      | some place => exact (firstAt_of_indexOf? eq).le
    | plain => exact Nat.le_add_left 1 _

/-- At the end of the text there is nothing to advance over. -/
lemma advance_of_end {syn : CommentSyntax} {scanner} (at_end : scanner.rest = []) :
    syn.advance scanner = scanner := by
  obtain ⟨offset, rest, comments⟩ := scanner
  subst at_end
  rfl

lemma run_of_end {syn : CommentSyntax} {scanner} (at_end : scanner.rest = []) :
    syn.run scanner = some scanner.comments.reverse := by
  rw [run, at_end]
  rfl

/-- A step does not change where a scan ends. -/
lemma run_advance (syn : CommentSyntax) (scanner : Scanner) :
    syn.run (syn.advance scanner) = syn.run scanner := by
  by_cases at_end : scanner.rest = []
  · rw [advance_of_end at_end]
  · symm
    rw [run, if_neg (mt List.isEmpty_iff.mp at_end)]

lemma run_iterate (syn : CommentSyntax) (n : Nat) (scanner : Scanner) :
    syn.run (syn.advance^[n] scanner) = syn.run scanner := by
  induction n with
  | zero => rfl
  | succ n ih => rw [Function.iterate_succ_apply', run_advance, ih]

/-- A scan has a result just when some number of iterations leads to the end of the text. -/
lemma run_eq_some_iff {syn : CommentSyntax} {scanner segments} :
    syn.run scanner = some segments ↔ ∃ n, (syn.advance^[n] scanner).rest = [] ∧
      (syn.advance^[n] scanner).comments.reverse = segments := by
  constructor
  · refine run.partial_correctness syn (fun scanner segments => ∃ n,
      (syn.advance^[n] scanner).rest = [] ∧ (syn.advance^[n] scanner).comments.reverse = segments)
      (fun run ih scanner segments eq => ?_) scanner segments
    split at eq
    case isTrue at_end =>
      exact ⟨0, List.isEmpty_iff.mp at_end, Option.some.inj eq⟩
    case isFalse =>
      obtain ⟨n, reached⟩ := ih _ _ eq
      exact ⟨n + 1, reached⟩
  · rintro ⟨n, at_end, rfl⟩
    rw [← run_iterate syn n, run_of_end at_end]

/-- Nor do several at once. -/
lemma runUnrolled_eq (syn : CommentSyntax) (n : Nat) (scanner : Scanner) :
    syn.runUnrolled n scanner = syn.run scanner := by
  induction n generalizing scanner with
  | zero => rfl
  | succ n ih => rw [runUnrolled, run, ih]

/-- The scan of a text after some iterations. -/
def after (syn : CommentSyntax) (text : Bytes) (n : Nat) : Scanner := syn.advance^[n] (.start text)

lemma after_succ (syn : CommentSyntax) (text : Bytes) (n : Nat) :
    syn.after text (n + 1) = syn.advance (syn.after text n) :=
  Function.iterate_succ_apply' _ _ _

/-- From each place on, a scan has the result of the whole. -/
lemma run_after (syn : CommentSyntax) (text : Bytes) (n : Nat) :
    syn.run (syn.after text n) = syn.segment? text := by
  rw [after, run_iterate, segment?, runUnrolled_eq]

/-- A text has comments to tell just when its scan comes to the end. -/
lemma segment?_eq_some_iff {syn : CommentSyntax} {text segments} :
    syn.segment? text = some segments ↔
      ∃ n, (syn.after text n).rest = [] ∧ (syn.after text n).comments.reverse = segments := by
  rw [← syn.run_after text 0]
  exact run_eq_some_iff

/-- What holds of a scan at each of its places: it is in the text, and the comments found so far
follow one another and lie before it. -/
structure Scanner.Sound (text : Bytes) (scanner : Scanner) : Prop where
  offset_le : scanner.offset ≤ text.length
  rest_eq : scanner.rest = text.drop scanner.offset
  ordered : Segments.Ordered scanner.comments.reverse
  before : ∀ region ∈ scanner.comments, region.stop ≤ scanner.offset

lemma Scanner.Sound.start (text : Bytes) : Sound text (.start text) :=
  ⟨Nat.zero_le _, rfl, .nil, nofun⟩

/-- How much of the text is left. -/
lemma Scanner.Sound.length_rest {text scanner} (sound : Sound text scanner) :
    scanner.offset + scanner.rest.length = text.length := by
  have le := sound.offset_le
  rw [sound.rest_eq, List.length_drop]
  omega

/-- A step keeps the scanner sound. -/
lemma Scanner.Sound.advance {text scanner} (sound : Sound text scanner) (syn : CommentSyntax) :
    Sound text (syn.advance scanner) := by
  have le := syn.look_length_le scanner.rest
  have left := sound.length_rest
  rw [CommentSyntax.advance]
  refine ⟨by dsimp only; omega, ?_, ?_, ?_⟩
  · rw [sound.rest_eq, List.drop_drop]
  · dsimp only
    split
    · rw [List.reverse_cons]
      refine sound.ordered.concat ?_ (Nat.le_add_right _ _)
      intro other mem
      exact sound.before other (List.mem_reverse.mp mem)
    · exact sound.ordered
  · intro region mem
    dsimp only at mem ⊢
    split at mem
    · rcases List.mem_cons.mp mem with rfl | mem
      · exact Nat.le_refl _
      · exact Nat.le_trans (sound.before region mem) (Nat.le_add_right _ _)
    · exact Nat.le_trans (sound.before region mem) (Nat.le_add_right _ _)

/-- So do all steps. -/
lemma sound_after (syn : CommentSyntax) (text : Bytes) (n : Nat) :
    Scanner.Sound text (syn.after text n) := by
  induction n with
  | zero => exact .start text
  | succ n ih =>
    rw [after_succ]
    exact ih.advance syn

/-- The comments of a text follow one another and lie in it. -/
lemma ordered_of_segment? {syn : CommentSyntax} {text segments} (eq : syn.segment? text = some segments) :
    Segments.Ordered segments ∧ ∀ region ∈ segments, region.stop ≤ text.length := by
  obtain ⟨n, _, rfl⟩ := segment?_eq_some_iff.mp eq
  have sound := syn.sound_after text n
  refine ⟨sound.ordered, fun region mem => ?_⟩
  exact Nat.le_trans (sound.before region (List.mem_reverse.mp mem)) sound.offset_le

end CommentSyntax

namespace SyntaxRegistry

/-- A registry has no other comments than those that a syntax tells. -/
lemma segment_cases (registry : SyntaxRegistry) (text : Bytes) (languages : List String) :
    registry.segment text languages = [] ∨
      ∃ syn : CommentSyntax, syn.segment? text = some (registry.segment text languages) := by
  unfold segment
  split
  · rename_i syn _
    cases eq : syn.segment? text with
    | none => exact .inl rfl
    | some segments => exact .inr ⟨syn, eq⟩
  · exact .inl rfl

/-- The comments of a text follow one another, in whatever languages it is. -/
lemma segment_ordered (registry : SyntaxRegistry) (text : Bytes) (languages : List String) :
    Segments.Ordered (registry.segment text languages) := by
  obtain none | ⟨syn, eq⟩ := registry.segment_cases text languages
  · rw [none]
    exact .nil
  · exact (CommentSyntax.ordered_of_segment? eq).1

/-- The comments of a text lie in it, in whatever languages it is. -/
lemma stop_le_of_mem_segment {registry : SyntaxRegistry} {text languages region}
    (mem : region ∈ registry.segment text languages) :
    region.stop ≤ text.length := by
  obtain none | ⟨syn, eq⟩ := registry.segment_cases text languages
  · rw [none] at mem
    cases mem
  · exact (CommentSyntax.ordered_of_segment? eq).2 region mem

end SyntaxRegistry

end Sift
