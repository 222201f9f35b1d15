import Sift.Proofs.Processor
import Sift.Proofs.Scan.Spans
import Sift.Proofs.Utf8

/-!
# Where issues lie

All that an analysis takes from a text lies in the text: comments (`SyntaxRegistry.stop_le_of_mem_segment`) and
the stretches of expressions that keep to the text (`Document.exists_of_mem_spans`). So nothing is looked up or cut
out that the text does not have (`Document.evaluates_of_keepsTo`), and line, column and text of an issue are those
of its span (`Issue.Placed`), for every issue of every analysis (`Processor.analyze_placed`).

That expressions keep to the text is asked of the engine that carries out the searches. The own searches do so for
upright patterns (`Pattern.orderly_find?`) and for remarks (`Suppression.remarks_within`), but not for all: where a
repetition leaves a mark behind, a match may be taken to begin elsewhere than it was looked for.
-/

namespace Sift

/-- A line begins before all that is on it. -/
lemma Lines.start_le (text : Bytes) (offset : Nat) : start text offset ≤ offset := by
  have drops := (List.dropWhile_suffix (l := (text.take offset).reverse) (· ≠ 10)).length_le
  rw [List.length_reverse, List.length_take] at drops
  exact Nat.le_trans drops (Nat.min_le_left _ _)

/-- The issue lies in the text, and its line, column and text are those of its span. Lines are counted
from that of the first line of the text, by machine integers. -/
structure Issue.Placed (issue : Issue) (text : Bytes) (startLine : Int) : Prop where
  nonempty : issue.span.start < issue.span.stop
  inside : issue.span.stop ≤ text.length
  lineNumber : issue.lineNumber =
    Int64.ofInt (max startLine 1) + Int64.ofNat (Lines.number text issue.span.start)
  line : max startLine 1 + Lines.number text issue.span.start < 9223372036854775808 →
    issue.line = max startLine 1 + Lines.number text issue.span.start
  lineStart : Lines.start text issue.span.start ≤ issue.span.start
  column : issue.column = issue.span.start - Lines.start text issue.span.start + 1
  text : Utf8.Repaired ((text.drop issue.span.start).take issue.span.length) issue.text.toList

namespace Document

variable {text : Bytes} {comments : Segments} {engine : Pattern.Engine}

/-- The offsets of an expression that keeps to the text can be looked up. -/
lemma looksUp_of_keepsTo {expression} (keeps : Pattern.KeepsTo engine expression.node (ofBytes text).codes) :
    (ofBytes text).looksUp expression engine = true := by
  refine List.all_eq_true.mpr fun found mem => ?_
  rw [stretchOf?_of_within (keeps found mem), Option.isSome_some]

/-- Where all expressions of a rule keep to the text, the text has all that is looked up and cut out for the
rule. -/
lemma evaluates_of_keepsTo (ordered : comments.Ordered) {rule}
    (keeps : ∀ expression ∈ rule.patterns ++ rule.exclusions,
      Pattern.KeepsTo engine expression.node (ofBytes text).codes) :
    (ofBytes text).evaluates comments rule engine = true := by
  have patterns : ∀ pattern ∈ rule.patterns, Pattern.KeepsTo engine pattern.node (ofBytes text).codes :=
    fun pattern mem => keeps pattern (List.mem_append_left _ mem)
  have exclusions : ∀ exclusion ∈ rule.exclusions, Pattern.KeepsTo engine exclusion.node (ofBytes text).codes :=
    fun exclusion mem => keeps exclusion (List.mem_append_right _ mem)
  have spans : ∀ stretch ∈ (ofBytes text).found comments rule engine,
      ∃ span : Span, stretch = span.stretch ∧ 0 < span.length ∧ span.stop ≤ text.length := by
    intro stretch mem
    obtain ⟨pattern, mem', finds⟩ := (mem_found ordered).mp mem
    obtain ⟨span, eq, pos, inside, _⟩ := exists_of_mem_spans (patterns pattern mem') ((mem_spans ordered).mpr finds)
    exact ⟨span, eq, pos, inside⟩
  simp only [evaluates, Bool.and_eq_true, Bool.or_eq_true, List.all_eq_true]
  refine ⟨fun pattern mem => looksUp_of_keepsTo (patterns pattern mem), .inr ⟨⟨?_, .inr ?_⟩, ?_⟩⟩
  · exact fun exclusion mem => looksUp_of_keepsTo (exclusions exclusion mem)
  · intro stretch mem
    obtain ⟨span, rfl, pos, _⟩ := spans stretch mem
    rw [Span.stop_stretch, decide_eq_true_eq]
    exact Int.ofNat_lt.mpr (Nat.add_pos_right _ pos)
  · intro stretch mem
    have found := List.mem_mergeSort.mp (List.mem_filter.mp mem).1
    obtain ⟨span, rfl, _, inside⟩ := spans stretch found
    rw [cut?_stretch inside, Option.isSome_some]

end Document

namespace Suppression

/-- The remark and its groups lie in a text of some size. -/
def Within (found : Pattern.Match) (size : Nat) : Prop :=
  found.Within size ∧ ∀ capture ∈ found.captures, capture.Within size

/-- Remarks that lie in the text can be looked up and read. -/
lemma looksUp_of_within {text engine}
    (within : ∀ found ∈ remarks (.ofBytes text) engine, Within found (Document.ofBytes text).codes.size) :
    looksUp (.ofBytes text) engine = true := by
  refine List.all_eq_true.mpr fun found mem => ?_
  obtain ⟨⟨nonneg, le⟩, groups⟩ := within found mem
  obtain ⟨place, eq⟩ := Int.eq_ofNat_of_zero_le nonneg
  rw [Bool.and_eq_true, Document.placeOffset?_ofBytes, eq]
  rw [Document.size_codes, eq] at le
  constructor
  · rw [Utf8.offsetOf?_natCast (by omega), Option.isSome_some]
  · rw [hasList, Option.all_eq_true]
    intro capture list
    exact decide_eq_true (groups capture (List.mem_of_find?_eq_some list))

/-- The own searches for remarks keep to the text, with the groups of remarks. -/
lemma remarks_within (text : Bytes) :
    ∀ found ∈ remarks (.ofBytes text), Within found (Document.ofBytes text).codes.size := by
  have keeps := (Pattern.orderly_find? (Pattern.Node.isUpright_of_isLocal shape_isLocal)
    (Document.ofBytes text).codes).keepsTo
  intro found mem
  rw [remarks_ofBytes] at mem
  obtain ⟨_, _, groups⟩ := Pattern.bounds_of_mem_matchesIn shape_isLocal shape_reads mem
  refine ⟨keeps found mem, fun capture mem' => ?_⟩
  have size : (Document.ofBytes text).codes.size = (Utf8.codePoints text).length := List.size_toArray
  rw [size]
  exact groups capture mem'

end Suppression

namespace Processor

variable {text : Bytes} {comments : Segments} {silencing : Silencing} {engine : Pattern.Engine} {rule : Rule}
  {issue : Issue}

/-- The text of an issue is what it covers, made valid. -/
lemma text_of_mem_issuesOf {startLine}
    (mem : issue ∈ issuesOf (.ofBytes text) comments silencing startLine rule engine) :
    issue.text = Utf8.toValidString ((text.drop issue.span.start).take issue.span.length) := by
  obtain ⟨finding, found, eq⟩ := List.mem_filterMap.mp mem
  dsimp only at eq
  split at eq
  case isTrue => cases eq
  case isFalse =>
    cases eq
    exact (Document.of_mem_findings found).2.2

/-- The issues of a rule are placed. -/
lemma placed_of_mem_issuesOf (ordered : comments.Ordered) {startLine}
    (mem : issue ∈ issuesOf (.ofBytes text) comments silencing (max startLine 1) rule engine) :
    issue.Placed text startLine := by
  have made := text_of_mem_issuesOf mem
  obtain ⟨finding, found, eq⟩ := List.mem_filterMap.mp mem
  have spots := (Document.mem_findings ordered).mp ⟨finding, found, rfl⟩
  dsimp only at eq
  split at eq
  case isTrue => cases eq
  case isFalse =>
    cases eq
    simp only [Document.lineOf_ofBytes, Document.lineStart_ofBytes] at *
    refine ⟨spots.nonempty, spots.inside, ?_, ?_, Lines.start_le _ _, rfl, ?_⟩
    · rw [Int.add_comm, Int64.ofInt_add, Int64.ofInt_eq_ofNat]
    · intro lt
      dsimp only at lt ⊢
      rw [Issue.line, Int64.toInt_ofInt_of_le (by omega) (by omega), Int.add_comm]
    · rw [made]
      exact Utf8.repaired_toValidString _

/-- An issue of an analysis is an issue of a rule. -/
lemma exists_issuesOf_of_mem_analyze {processor : Processor} {languages startLine}
    (mem : issue ∈ (processor.analyze text languages startLine engine).1) :
    ∃ rule, issue ∈ issuesOf (.ofBytes text) (processor.syntaxes.segment text languages)
      (Silencing.inDocument (.ofBytes text) engine) (max startLine 1) rule engine := by
  unfold analyze at mem
  split at mem
  · cases mem
  · split at mem
    · cases mem
    · dsimp only at mem
      split at mem
      · cases mem
      · rw [issuesOfAll, List.mem_mergeSort, List.mem_flatMap] at mem
        obtain ⟨rule, _, mem⟩ := mem
        exact ⟨rule, mem⟩

/-- The own searches leave the text for a pattern whose reluctant rounds read nothing: its match is taken to end one
character behind the text, so that the analysis does not come to its end. -/
example :
    let set := RuleSet.after false [.addRecords [{
      id := "A", severity := .critical
      patterns := [some { text := "\\A(?:x|()*?\\1()*?\\2)\x7b0,9\x7d" }] }] "test"]
    let processor : Processor := ⟨some set, .critical, .builtIn⟩
    (processor.analyze? (Utf8.ofString "xxx") ["go"] 1).isNone := by
  decide +kernel

end Processor

end Sift
