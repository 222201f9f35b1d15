import Sift.Proofs.Placement
import Sift.Report.Record

/-!
# Where issues end

A report takes the end of an issue from the text that was found, as it is after it was made valid. Text
that is made valid keeps its line breaks (`Utf8.newlines_toValidString`), so the line is right. Behind the
last of them it need not have as many bytes as before: a run of invalid bytes becomes one character of
three bytes. The column is off by just that (`Report.endColumn_add_length`), and right just when there
are as many (`Report.analyze_ends`).
-/

namespace Sift

namespace Utf8

/-- Text that is made valid keeps its line breaks. -/
lemma newlines_toValidString (text : Bytes) : Baseline.newlines (toValidString text) = text.count 10 := by
  rw [Baseline.newlines]
  induction text using Lines.induction (10 : UInt8) with
  | line line plain =>
    rw [List.count_eq_zero_of_not_mem plain,
      List.count_eq_zero_of_not_mem (break_not_mem_toValidString plain)]
  | cons line rest plain ih =>
    rw [toList_toValidString_append_break, List.count_append, List.count_append, List.count_cons_self,
      List.count_cons_self, ih, List.count_eq_zero_of_not_mem plain,
      List.count_eq_zero_of_not_mem (break_not_mem_toValidString plain)]

/-- The last line of a text that is made valid is the last line of the text, made valid. -/
lemma rtakeWhile_toValidString (text : Bytes) :
    (toValidString text).toList.rtakeWhile (· ≠ '\n') = (toValidString (Lines.last text)).toList := by
  rw [Lines.last]
  induction text using Lines.induction (10 : UInt8) with
  | line line plain =>
    rw [Lines.rtakeWhile_of_not_mem plain,
      Lines.rtakeWhile_of_not_mem (break_not_mem_toValidString plain)]
  | cons line rest plain ih =>
    rw [toList_toValidString_append_break, Lines.rtakeWhile_append_cons, Lines.rtakeWhile_append_cons, ih]

end Utf8

namespace Report

lemma endColumn_eq {issue found} (made : issue.text = Utf8.toValidString found) :
    endColumn issue = (if found.count 10 = 0 then issue.column else 1) +
      (Utf8.toValidString (Lines.last found)).utf8ByteSize := by
  have last : (issue.text.toList.reverse.takeWhile (· ≠ '\n')).reverse =
      (Utf8.toValidString (Lines.last found)).toList := by
    rw [made]
    exact Utf8.rtakeWhile_toValidString found
  rw [endColumn, last, String.ofList_toList, made, Utf8.newlines_toValidString]
  split
  · rfl
  · exact Nat.add_comm _ _

/-- The column of the end of a part of a text, from the column of its beginning. -/
lemma column_add {text start length} (inside : start + length ≤ text.length) :
    start + length - Lines.start text (start + length) + 1 =
      (if ((text.drop start).take length).count 10 = 0 then start - Lines.start text start + 1 else 1) +
        (Lines.last ((text.drop start).take length)).length := by
  have split : text.take (start + length) = text.take start ++ (text.drop start).take length := by
    rw [List.take_add]
  rw [← Lines.length_last_take inside, ← Lines.length_last_take (by omega : start ≤ text.length), split]
  -- Without a line break the part goes on with the line on which it begins.
  by_cases plain : 10 ∉ (text.drop start).take length
  · rw [if_pos (List.count_eq_zero_of_not_mem plain), Lines.last, Lines.rtakeWhile_append _ plain,
      List.length_append, Lines.last, Lines.last, Lines.rtakeWhile_of_not_mem plain, Nat.add_right_comm]
  · obtain ⟨front, back, eq, _⟩ := List.eq_append_cons_of_mem (not_not.mp plain)
    rw [if_neg (by rwa [List.count_eq_zero]), eq, ← List.append_assoc, Lines.last, Lines.last,
      Lines.rtakeWhile_append_cons, Lines.rtakeWhile_append_cons, Nat.add_comm]

section

variable {issue : Issue} {text : Bytes} {startLine : Int} (placed : issue.Placed text startLine)
  (made : issue.text = Utf8.toValidString ((text.drop issue.span.start).take issue.span.length))

include placed made

/-- The line on which an issue ends is that of the offset at which it ends. -/
lemma endLine_eq
    (fits : max startLine 1 + Lines.number text issue.span.stop < 9223372036854775808) :
    endLine issue = max startLine 1 + Lines.number text issue.span.stop := by
  have number : Lines.number text issue.span.stop = Lines.number text issue.span.start +
      ((text.drop issue.span.start).take issue.span.length).count 10 := by
    rw [Lines.number, Lines.number, ← List.count_append, ← List.take_add]
    rfl
  rw [number, Int.natCast_add] at fits ⊢
  rw [endLine, placed.lineNumber, made, Utf8.newlines_toValidString, ← Int64.ofInt_eq_ofNat,
    ← Int64.ofInt_eq_ofNat, ← Int64.ofInt_add, ← Int64.ofInt_add,
    Int64.toInt_ofInt_of_le (by omega) (by omega), Int.add_assoc]

/-- The column behind the end of an issue is that of the offset at which it ends, but for the bytes that
the last line got or lost when it was made valid. -/
lemma endColumn_add_length :
    endColumn issue + (Lines.last ((text.drop issue.span.start).take issue.span.length)).length =
      issue.span.stop - Lines.start text issue.span.stop + 1 +
        (Utf8.toValidString
          (Lines.last ((text.drop issue.span.start).take issue.span.length))).utf8ByteSize := by
  rw [endColumn_eq made, placed.column, Span.stop, column_add placed.inside]
  omega

end

/-- The line on which an issue ends is that of the offset at which it ends. Its column is that of the
offset just when the last line of what was found has as many bytes as when it is made valid, and so if
the last line is valid. Else it is off by the difference. -/
theorem analyze_ends (processor : Processor) (text : Bytes) (languages : List String) (issue : Issue)
    (mem : issue ∈ (processor.analyze text languages 1).1) :
    let stop := issue.span.stop
    let last := Lines.last ((text.drop issue.span.start).take issue.span.length)
    (1 + Lines.number text stop < 9223372036854775808 →
      endLine issue = 1 + Lines.number text stop) ∧
    (endColumn issue = stop - Lines.start text stop + 1 ↔
      (Utf8.toValidString last).utf8ByteSize = last.length) ∧
    (Utf8.isValid last = true → endColumn issue = stop - Lines.start text stop + 1) ∧
    endColumn issue + last.length =
      stop - Lines.start text stop + 1 + (Utf8.toValidString last).utf8ByteSize := by
  intro stop last
  obtain ⟨rule, mem⟩ := Processor.exists_issuesOf_of_mem_analyze mem
  have placed := Processor.placed_of_mem_issuesOf (processor.syntaxes.segment_ordered text languages) mem
  have made := Processor.text_of_mem_issuesOf mem
  have off : endColumn issue + last.length =
      stop - Lines.start text stop + 1 + (Utf8.toValidString last).utf8ByteSize :=
    endColumn_add_length placed made
  refine ⟨fun fits => ?_, ?_, fun valid => ?_, off⟩
  · have fits' : max 1 1 + (Lines.number text stop : Int) < 9223372036854775808 := by omega
    exact endLine_eq placed made fits'
  · omega
  · have size : (Utf8.toValidString last).utf8ByteSize = last.length := by
      rw [Utf8.utf8ByteSize_eq, Utf8.ofString_toValidString valid]
    omega

/-- A match that begins on the second line and ends on the third. -/
theorem analyze_ends_on_third_line :
    let set := RuleSet.after false [.addRecords [{
      id := "A", severity := .critical, patterns := [some { text := "b\nc" }] }] "test"]
    let processor : Processor := ⟨some set, .critical, .builtIn⟩
    let text : Bytes := Utf8.ofString "x\nab\ncd"
    ∃ issue ∈ (processor.analyze text ["go"] 1).1,
      1 + Lines.number text issue.span.stop < 9223372036854775808 ∧
      Utf8.isValid (Lines.last ((text.drop issue.span.start).take issue.span.length)) = true ∧
      endLine issue = 3 ∧ endColumn issue = 2 := by
  intro set processor text
  have found : ∃ issue ∈ (processor.analyze text ["go"] 1).1, issue.span = ⟨3, 3⟩ := by
    decide +kernel
  obtain ⟨issue, mem, span⟩ := found
  obtain ⟨line, _, column, _⟩ := analyze_ends processor text ["go"] issue mem
  rw [span] at line column
  have fits : 1 + Lines.number text (Span.mk 3 3).stop < 9223372036854775808 := by decide +kernel
  have valid : Utf8.isValid (Lines.last ((text.drop 3).take 3)) = true := by decide +kernel
  have stop : Lines.number text (Span.mk 3 3).stop = 2 ∧ Lines.start text (Span.mk 3 3).stop = 5 := by
    decide +kernel
  rw [stop.1] at line
  rw [stop.2] at column
  refine ⟨issue, mem, span ▸ fits, span ▸ valid, line (by decide), column valid⟩

/-- A byte that belongs to no character is counted as three. -/
theorem endColumn_of_invalid_byte :
    let set := RuleSet.after false [.addRecords [{
      id := "A", severity := .critical, patterns := [some { text := "a.b" }] }] "test"]
    let processor : Processor := ⟨some set, .critical, .builtIn⟩
    let text : Bytes := [97, 0xFF, 98]
    ∃ issue ∈ (processor.analyze text ["go"] 1).1, issue.span = ⟨0, 3⟩ ∧ endColumn issue = 6 ∧
      issue.span.stop - Lines.start text issue.span.stop + 1 = 4 := by
  intro set processor text
  have ordered := processor.syntaxes.segment_ordered text ["go"]
  have found : ∃ rule ∈ (set.candidatesFor ["go"] (processor.mask.union .critical)).1,
      rule.exclusions = [] ∧ ∃ pattern ∈ rule.patterns,
        (Span.mk 0 3).stretch ∈
          (Document.ofBytes text).spans (processor.syntaxes.segment text ["go"]) pattern := by
    decide +kernel
  obtain ⟨rule, candidate, none, pattern, mem, span⟩ := found
  -- The text is shorter than any remark, so that its characters need not be looked at.
  have short : ∀ x y z : Char, Text.containsChars "skim:".toList [x, y, z] = false := by
    intro x y z
    simp [Text.containsChars, List.isPrefixOf]
  have silent : Suppression.inDocument (.ofBytes text) = [] := by
    have none : Suppression.remarks (.ofBytes text) = [] := by
      rw [Suppression.remarks]
      exact if_pos (congrArg (!·) (short _ _ _))
    rw [Suppression.inDocument, none, List.map_nil]
  have detects : rule.Detects text (processor.syntaxes.segment text ["go"]) ⟨0, 3⟩ := by
    refine ⟨⟨⟨pattern, mem, (Document.mem_spans ordered).mp span⟩, by decide, ?_⟩, ?_⟩
    · simp [none]
    · simp [silent]
  have reports : processor.Reports text ["go"] 1 rule ⟨0, 3⟩ :=
    Processor.reports_iff.mpr ⟨candidate, detects⟩
  obtain ⟨issue, mem, _, span⟩ := reports
  obtain ⟨rule, mem'⟩ := Processor.exists_issuesOf_of_mem_analyze mem
  have off := endColumn_add_length (Processor.placed_of_mem_issuesOf ordered mem')
    (Processor.text_of_mem_issuesOf mem')
  rw [span] at off
  have stop : (Span.mk 0 3).stop - Lines.start text (Span.mk 0 3).stop + 1 = 4 := by decide +kernel
  have size : (Lines.last ((text.drop 0).take 3)).length = 3 ∧
      (Utf8.toValidString (Lines.last ((text.drop 0).take 3))).utf8ByteSize = 5 := by decide +kernel
  rw [stop, size.1, size.2] at off
  exact ⟨issue, mem, span, by omega, span ▸ stop⟩

end Report

end Sift
