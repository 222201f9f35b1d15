import Sift.Analyzer
import Sift.Proofs.Diff.Added
import Sift.Proofs.Diff.Blocks
import Sift.Proofs.FileSystem
import Sift.Proofs.Order
import Sift.Proofs.Placement

/-!
# Issues on added lines

Blocks of added lines are analysed each by itself. The lines of a block are added lines
(`Diff.blocks_grouped`), and an issue of a text begins on a line of the text (`Issue.Placed.onLine`), so
that an issue of a block begins on an added line, under its number (`Analyzer.onLine_of_mem_blocks`). Since
blocks stand apart, their issues come line after line (`Analyzer.pairwise_blockIssues`). So it is for every
file of every range of revisions (`Analyzer.between_on_added_lines`).
-/

namespace Sift

namespace Lines

lemma start_add_length_last {text offset} (le : offset ≤ text.length) :
    start text offset + (last (text.take offset)).length = offset := by
  rw [length_last_take le]
  exact Nat.add_sub_cancel' (start_le text offset)

lemma start_of_not_mem {text offset} (le : offset ≤ text.length) (plain : 10 ∉ text.take offset) :
    start text offset = 0 := by
  have length := start_add_length_last le
  rw [last, rtakeWhile_of_not_mem plain, List.length_take, Nat.min_eq_left le] at length
  omega

/-- A text is what stands before the line of an offset, the line, and the rest. -/
lemma exists_split (text : Bytes) {offset} (le : offset ≤ text.length) :
    ∃ front rest, text = front ++ (nth text (number text offset) ++ rest) ∧
      front.length = start text offset ∧
      offset ≤ front.length + (nth text (number text offset)).length ∧
      (rest = [] ∨ ∃ behind, rest = 10 :: behind) := by
  induction text using Lines.induction (10 : UInt8) generalizing offset with
  | line line plain =>
    have plain' : 10 ∉ line.take offset := mt List.mem_of_mem_take plain
    have only : nth line 0 = line := by
      rw [nth, List.splitOn_eq_singleton plain]
      rfl
    rw [number, List.count_eq_zero_of_not_mem plain', only, start_of_not_mem le plain']
    refine ⟨[], [], ?_, rfl, ?_, .inl rfl⟩
    · rw [List.append_nil, List.nil_append]
    · rw [List.length_nil, Nat.zero_add]
      exact le
  | cons line rest plain ih =>
    by_cases here : offset ≤ line.length
    · -- The offset lies on the first line.
      have plain' : 10 ∉ (line ++ 10 :: rest).take offset := by
        rw [List.take_append_of_le_length here]
        exact mt List.mem_of_mem_take plain
      have first : nth (line ++ 10 :: rest) 0 = line := by
        rw [nth, List.splitOn_append_cons_self_of_not_mem plain]
        rfl
      rw [number, List.count_eq_zero_of_not_mem plain', first, start_of_not_mem le plain']
      refine ⟨[], 10 :: rest, rfl, rfl, ?_, .inr ⟨rest, rfl⟩⟩
      rw [List.length_nil, Nat.zero_add]
      exact here
    · obtain ⟨more, rfl⟩ : ∃ more, offset = line.length + (more + 1) :=
        ⟨offset - line.length - 1, by omega⟩
      have le' : more ≤ rest.length := by
        rw [List.length_append, List.length_cons] at le
        omega
      have taken : (line ++ 10 :: rest).take (line.length + (more + 1)) = line ++ 10 :: rest.take more := by
        rw [List.take_length_add_append, List.take_succ_cons]
      have later : nth (line ++ 10 :: rest) (number rest more + 1) = nth rest (number rest more) := by
        rw [nth, List.splitOn_append_cons_self_of_not_mem plain]
        rfl
      have count : number (line ++ 10 :: rest) (line.length + (more + 1)) = number rest more + 1 := by
        rw [number, taken, List.count_append, List.count_cons_self,
          List.count_eq_zero_of_not_mem plain, Nat.zero_add]
        rfl
      have begins : start (line ++ 10 :: rest) (line.length + (more + 1)) =
          line.length + (start rest more + 1) := by
        have length := start_add_length_last le
        have length' := start_add_length_last le'
        rw [taken, last, rtakeWhile_append_cons, ← last] at length
        omega
      obtain ⟨front, behind, eq, front_eq, bound, ends⟩ := ih le'
      rw [count, later, begins]
      refine ⟨line ++ 10 :: front, behind, ?_, ?_, ?_, ends⟩
      · rw [List.append_assoc, List.cons_append, ← eq]
      · rw [List.length_append, List.length_cons, front_eq]
      · rw [List.length_append, List.length_cons]
        omega

lemma not_mem_nth (text : Bytes) (number : Nat) : 10 ∉ nth text number := by
  induction text using Lines.induction (10 : UInt8) generalizing number with
  | line line plain =>
    rw [nth, List.splitOn_eq_singleton plain]
    cases number with
    | zero => exact plain
    | succ number => exact List.not_mem_nil
  | cons line rest plain ih =>
    rw [nth, List.splitOn_append_cons_self_of_not_mem plain]
    cases number with
    | zero => exact plain
    | succ number => exact ih number

end Lines

namespace Utf8

/-- The first line of a text that is made valid is the first line of the text, made valid. -/
lemma takeWhile_toValidString_append (line : Bytes) (plain : 10 ∉ line) (rest : Bytes)
    (ends : rest = [] ∨ ∃ behind, rest = 10 :: behind) :
    (toValidString (line ++ rest)).toList.takeWhile (· ≠ '\n') = (toValidString line).toList := by
  have letters : ∀ c ∈ (toValidString line).toList, decide (c ≠ '\n') = true := fun c mem =>
    decide_eq_true (ne_of_mem_of_not_mem mem (break_not_mem_toValidString plain))
  rcases ends with rfl | ⟨behind, rfl⟩
  · rw [List.append_nil, List.takeWhile_eq_self_iff.mpr letters]
  · rw [toList_toValidString_append_break, List.takeWhile_append_of_pos letters,
      List.takeWhile_cons_of_neg (by decide), List.append_nil]

end Utf8

/-- The issue begins on a line with the given text: from its column on the line has what was found up to
its first line break, or up to the end of the line if there is one. -/
structure Issue.OnLine (issue : Issue) (text : Bytes) : Prop where
  column_pos : 0 < issue.column
  column_le : issue.column - 1 ≤ text.length
  first_line : issue.text.toList.takeWhile (· ≠ '\n') =
    (Utf8.toValidString ((text.drop (issue.column - 1)).take issue.span.length)).toList
  goes_on : '\n' ∈ issue.text.toList ↔ text.length < issue.column - 1 + issue.span.length
  at_end : issue.column - 1 = text.length → issue.text.toList.head? = some '\n'

/-- An issue that is placed in a text begins on the line of its offset. -/
lemma Issue.Placed.onLine {issue : Issue} {text startLine} (placed : issue.Placed text startLine)
    (made : issue.text = Utf8.toValidString ((text.drop issue.span.start).take issue.span.length)) :
    issue.OnLine (Lines.nth text (Lines.number text issue.span.start)) := by
  have nonempty := placed.nonempty
  have inside := placed.inside
  rw [Span.stop] at nonempty inside
  obtain ⟨front, rest, eq, front_eq, bound, ends⟩ :=
    Lines.exists_split text (by omega : issue.span.start ≤ text.length)
  have plain := Lines.not_mem_nth text (Lines.number text issue.span.start)
  generalize Lines.nth text (Lines.number text issue.span.start) = line at *
  have column := placed.column
  rw [← front_eq] at column
  obtain ⟨place, start⟩ : ∃ place, issue.span.start = front.length + place :=
    ⟨issue.span.start - front.length, by have := placed.lineStart; omega⟩
  have column' : issue.column - 1 = place := by omega
  have found : (text.drop issue.span.start).take issue.span.length =
      (line.drop place).take issue.span.length ++ rest.take (issue.span.length - (line.length - place)) := by
    rw [start, eq, List.drop_length_add_append, List.drop_append_of_le_length (by omega), List.take_append,
      List.length_drop]
  rw [found] at made
  have plain' : 10 ∉ (line.drop place).take issue.span.length := fun mem =>
    plain (List.mem_of_mem_drop (List.mem_of_mem_take mem))
  have length := congrArg List.length eq
  rw [List.length_append, List.length_append] at length
  -- What was found ends on the line, or takes the rest of the line and a line break.
  by_cases crosses : line.length < place + issue.span.length
  · obtain ⟨behind, rfl⟩ : ∃ behind, rest = 10 :: behind := by
      refine ends.resolve_left ?_
      rintro rfl
      rw [List.length_nil] at length
      omega
    obtain ⟨more, count⟩ : ∃ more, issue.span.length - (line.length - place) = more + 1 :=
      ⟨issue.span.length - (line.length - place) - 1, by omega⟩
    rw [count, List.take_succ_cons] at made
    refine ⟨by omega, by omega, ?_, ?_, ?_⟩
    · rw [made, column', Utf8.takeWhile_toValidString_append _ plain' _ (.inr ⟨_, rfl⟩)]
    · rw [made, column', Utf8.toList_toValidString_append_break]
      exact iff_of_true (List.mem_append_right _ List.mem_cons_self) crosses
    · intro ends
      rw [made, Utf8.toList_toValidString_append_break, List.drop_of_length_le (by omega), List.take_nil]
      rfl
  · rw [Nat.sub_eq_zero_of_le (by omega), List.take_zero, List.append_nil] at made
    refine ⟨by omega, by omega, ?_, ?_, fun ends => by omega⟩
    · have first := Utf8.takeWhile_toValidString_append _ plain' [] (.inl rfl)
      rw [List.append_nil] at first
      rw [made, column', first]
    · rw [made, column']
      exact iff_of_false (Utf8.break_not_mem_toValidString plain') crosses

namespace Analyzer

open Diff

variable {analyzer : Analyzer} {languages : List String}

/-- An issue of a block begins on a line of the block, under its number. -/
lemma onLine_of_mem_issuesIn {block : Block} {issue} (positive : 1 ≤ block.start)
    (small : ∀ line ∈ block.lines, line.1 < 9223372036854775808)
    (mem : issue ∈ analyzer.issuesIn block.text languages block.start) :
    ∃ text, (issue.line, text) ∈ block.lines ∧ issue.OnLine text := by
  obtain ⟨rule, mem⟩ := Processor.exists_issuesOf_of_mem_analyze mem
  have placed := Processor.placed_of_mem_issuesOf
    (analyzer.processor.syntaxes.segment_ordered block.text languages) mem
  have made := Processor.text_of_mem_issuesOf mem
  have number : Lines.number block.text issue.span.start < (block.text.splitOn 10).length := by
    have le := (List.take_sublist issue.span.start block.text).count_le 10
    rw [Lines.length_splitOn, Lines.number]
    omega
  have held : (block.start + Lines.number block.text issue.span.start,
      Lines.nth block.text (Lines.number block.text issue.span.start)) ∈ block.lines := by
    refine mem_numbered.mpr ⟨_, rfl, ?_⟩
    rw [Lines.nth, List.getD_eq_getElem?_getD, List.getElem?_eq_getElem number, Option.getD_some]
  have line := placed.line
  rw [Int.max_eq_left positive] at line
  refine ⟨_, ?_, placed.onLine made⟩
  rw [line (small _ held)]
  exact held

/-- The issues of blocks are those of each block, one block after the other. -/
lemma eq_flatMap_of_blockIssues {blocks issues} (found : analyzer.blockIssues languages blocks = some issues) :
    issues = blocks.flatMap fun block => analyzer.issuesIn block.text languages block.start := by
  induction blocks generalizing issues with
  | nil => exact (Option.some.inj found).symm
  | cons block rest ih =>
    rw [blockIssues] at found
    split at found
    case isTrue => cases found
    case isFalse =>
      obtain ⟨others, found', rfl⟩ := Option.map_eq_some_iff.mp found
      rw [List.flatMap_cons, ih found']

lemma pairwise_issuesIn (text : Bytes) (line : Int) :
    (analyzer.issuesIn text languages line).Pairwise (·.line ≤ ·.line) := by
  obtain ⟨⟨rules, mask, syntaxes⟩, resolver, options, gate⟩ := analyzer
  cases rules with
  | none => exact .nil
  | some set =>
    rw [issuesIn, Processor.analyze_fst, Processor.issuesOfAll]
    refine (List.pairwise_mergeSort Issue.le_trans Issue.le_total _).imp fun le => ?_
    rcases Issue.le_iff.mp le with lt | ⟨eq, _⟩
    · exact Int.le_of_lt lt
    · exact Int.le_of_eq eq

section

variable {map : LineMap} (distinct : (map.map (·.1)).Nodup) (plain : ∀ line ∈ map, 10 ∉ line.2)
  (positive : ∀ line ∈ map, 1 ≤ line.1) (small : ∀ line ∈ map, line.1 < 9223372036854775808)

include distinct plain in
lemma mem_of_mem_lines {block} (mem : block ∈ blocks map) {line} (held : line ∈ block.lines) : line ∈ map := by
  obtain ⟨lines, _⟩ := blocks_grouped distinct plain
  rw [← List.mem_mergeSort, ← lines]
  exact List.mem_flatMap.mpr ⟨block, mem, held⟩

include distinct plain positive small in
/-- An issue of a block of a map begins on a line of the map, and of the block. -/
lemma onLine_of_mem_blocks {block} (mem : block ∈ blocks map) {issue}
    (found : issue ∈ analyzer.issuesIn block.text languages block.start) :
    ∃ text, (issue.line, text) ∈ block.lines ∧ (issue.line, text) ∈ map ∧ issue.OnLine text := by
  have within : ∀ line ∈ block.lines, line ∈ map := fun line => mem_of_mem_lines distinct plain mem
  obtain ⟨first, others, eq⟩ := List.exists_cons_of_ne_nil (List.splitOn_ne_nil 10 block.text)
  have begins : (block.start, first) ∈ block.lines := by
    rw [Block.lines, eq]
    exact List.mem_cons_self
  obtain ⟨text, held, onLine⟩ := onLine_of_mem_issuesIn (positive _ (within _ begins))
    (fun line held => small line (within line held)) found
  exact ⟨text, held, within _ held, onLine⟩

include distinct plain positive small in
/-- The issues of the blocks of a map come line after line. -/
lemma pairwise_blockIssues {issues} (found : analyzer.blockIssues languages (blocks map) = some issues) :
    issues.Pairwise (·.line ≤ ·.line) := by
  obtain ⟨_, apart⟩ := blocks_grouped distinct plain
  rw [eq_flatMap_of_blockIssues found, List.pairwise_flatMap]
  refine ⟨fun block _ => pairwise_issuesIn _ _, apart.imp_of_mem fun {a b} mem mem' lt => ?_⟩
  intro issue found issue' found'
  obtain ⟨text, held, _⟩ := onLine_of_mem_blocks distinct plain positive small mem found
  obtain ⟨text', held', _⟩ := onLine_of_mem_blocks distinct plain positive small mem' found'
  -- The one line is before the end of its block, the other not before the beginning of its own.
  have before := (bounds_of_mem_numbered held).2
  have after := (bounds_of_mem_numbered held').1
  rw [Block.stop] at lt
  dsimp only at before after
  omega

end

end Analyzer

lemma proper_of_mem_addedLines {old new file} (mem : file ∈ addedLines old new) : file.2.Proper := by
  rw [addedLines, List.mem_mergeSort] at mem
  obtain ⟨patch, _, eq⟩ := List.mem_filterMap.mp mem
  split at eq
  case isTrue => cases eq
  case isFalse =>
    obtain rfl := Option.some.inj eq
    exact Diff.proper_added patch

lemma Workspace.proper_of_addedBetween {workspace : Workspace} {path base head files}
    (added : workspace.addedBetween path base head [] = .ok files) {file} (mem : file ∈ files) : file.2.Proper := by
  unfold addedBetween at added
  split at added
  · cases added
  · split at added
    · cases added
    · split at added
      · cases added
      · split at added
        · cases added
        · obtain rfl := Except.ok.inj added
          exact proper_of_mem_addedLines mem

namespace Analyzer

/-- What the analysis of added lines says of a file. -/
structure Covers (root : String) (file : String × Diff.LineMap) (result : FileResult) : Prop where
  path : result.path = Path.join [root, file.1]
  onLine : ∀ issue ∈ result.issues, ∃ text, (issue.line, text) ∈ file.2 ∧ issue.OnLine text
  ascending : result.issues.Pairwise (·.line ≤ ·.line)

/-- The result covers the lines that were added. -/
lemma covers_added (analyzer : Analyzer) (root : String) {file} (proper : file.2.Proper)
    (plain : ∀ line ∈ file.2, 10 ∉ line.2) (small : ∀ line ∈ file.2, line.1 < 9223372036854775808) :
    Covers root file (analyzer.added root (file.1, Diff.blocks file.2)) := by
  rw [added]
  split
  case h_1 => exact ⟨rfl, List.forall_mem_nil _, .nil⟩
  case h_2 =>
    dsimp only
    split
    case h_1 => exact ⟨rfl, List.forall_mem_nil _, .nil⟩
    case h_2 issues found =>
      refine ⟨rfl, fun issue mem => ?_, ?_⟩
      · have mem' : issue ∈ issues := mem
        rw [eq_flatMap_of_blockIssues found] at mem'
        obtain ⟨block, within, mem'⟩ := List.mem_flatMap.mp mem'
        obtain ⟨text, _, held, onLine⟩ :=
          onLine_of_mem_blocks proper.distinct plain proper.positive small within mem'
        exact ⟨text, held, onLine⟩
      · exact pairwise_blockIssues proper.distinct plain proper.positive small found

/-- An analysis has a result for each file with added lines. -/
lemma between_eq (analyzer : Analyzer) {workspace path base head root files}
    (rooted : workspace.rootAt path = .ok root) (added : workspace.addedBetween root base head [] = .ok files) :
    analyzer.between workspace path base head =
      .ok (⟨files.map fun file => analyzer.added root (file.1, Diff.blocks file.2)⟩,
        files.map fun file => Path.join [root, file.1]) := by
  have blocks : workspace.addedBlocks root base head [] =
      .ok (files.map fun file => (file.1, Diff.blocks file.2)) := by
    rw [Workspace.addedBlocks, added]
    rfl
  rw [between, rooted]
  dsimp only
  rw [blocks]
  dsimp only
  rw [List.map_map, List.map_map]
  rfl

/-- Where the added lines of the files between two revisions are known, their analysis has a result for each
file. Its issues begin on added lines of the file, each under the number of its line, and come line after
line. -/
theorem between_on_added_lines (analyzer : Analyzer) (workspace : Workspace) (path base head root : String)
    (files : List (String × Diff.LineMap)) (rooted : workspace.rootAt path = .ok root)
    (added : workspace.addedBetween root base head [] = .ok files)
    (plain : ∀ file ∈ files, ∀ line ∈ file.2, 10 ∉ line.2)
    (small : ∀ file ∈ files, ∀ line ∈ file.2, line.1 < 9223372036854775808) :
    ∃ analysis asked, analyzer.between workspace path base head = .ok (analysis, asked) ∧
      List.Forall₂ (Covers root) files analysis.files := by
  refine ⟨_, _, analyzer.between_eq rooted added, ?_⟩
  rw [List.forall₂_map_right_iff, List.forall₂_same]
  intro file mem
  exact covers_added analyzer root (Workspace.proper_of_addedBetween added mem) (plain file mem)
    (small file mem)

/-- A line is added at the top of a file and two at its end, and what is found there goes over both. -/
theorem between_on_added_lines_apart :
    let set := RuleSet.after false [.addRecords [{
      id := "A", severity := .critical, patterns := [some { text := "da\n?nger" }] }] "test"]
    let analyzer : Analyzer := { processor := ⟨some set, .critical, .builtIn⟩ }
    let repository : Repository := { commits := [
      ⟨"a", none, [("f.go", Utf8.ofString "one\ntwo\n")]⟩,
      ⟨"b", some "a", [("f.go", Utf8.ofString "danger\none\ntwo\nx da\nnger\n")]⟩] }
    let workspace : Workspace :=
      ⟨⟨.dir [("r", .dir [(".git", .dir [])])], "/"⟩, [("/r/.git", repository)]⟩
    let map : Diff.LineMap :=
      [(1, Utf8.ofString "danger"), (4, Utf8.ofString "x da"), (5, Utf8.ofString "nger")]
    workspace.rootAt "/r" = .ok "/r" ∧ workspace.addedBetween "/r" "a" "b" [] = .ok [("f.go", map)] ∧
      ∃ analysis asked, analyzer.between workspace "/r" "a" "b" = .ok (analysis, asked) ∧
        List.Forall₂ (Covers "/r") [("f.go", map)] analysis.files ∧
        analysis.issues.map (fun issue => (issue.line, issue.column)) = [(1, 1), (4, 3)] := by
  intro set analyzer repository workspace map
  have look : ∀ {ns : List String} {entries : List (String × Entry)}, (∀ name ∈ ns, Path.IsName name) →
      workspace.files.root.below? (["r"] ++ ns) = some (.dir entries) →
        workspace.files.locate true (FileSystem.pathBelow "/r" ns) =
          .ok ⟨(["r"] ++ ns).reverse, some (.dir entries)⟩ := fun all place =>
    FileSystem.locate_of_below? all (by decide) (by decide) (by decide) (by decide) place
      (by rintro target ⟨⟩)
  have dir : workspace.files.locate true "/r" = .ok ⟨["r"], some (.dir [(".git", .dir [])])⟩ :=
    look (List.forall_mem_nil _) rfl
  have git : workspace.files.locate true "/r/.git" = .ok ⟨[".git", "r"], some (.dir [])⟩ :=
    @look [".git"] [] (by decide) rfl
  have at_root : workspace.repositoryAt "/r" = .ok ("/r", repository) := by
    have ancestors : Path.ancestors (workspace.files.absolute "/r") = ["/r", "/"] := by decide +kernel
    have join : Path.join ["/r", ".git"] = "/r/.git" := by decide +kernel
    have search : Workspace.search workspace.files "/r" ["/r", "/"] = .ok ("/r", "/r/.git") := by
      rw [Workspace.search, FileSystem.stat, FileSystem.entryAt, dir]
      simp only [Entry.isDir, if_true]
      rw [join, FileSystem.stat, FileSystem.entryAt, git]
    have real : Workspace.realPath workspace.files "/r/.git" = "/r/.git" := by
      rw [Workspace.realPath, git]
      decide +kernel
    rw [Workspace.repositoryAt, if_neg (by decide), ancestors, search]
    dsimp only
    rw [real]
    rfl
  have rooted : workspace.rootAt "/r" = .ok "/r" := by
    rw [Workspace.rootAt, at_root]
    rfl
  have lines : addedLines [("f.go", Utf8.ofString "one\ntwo\n")]
      [("f.go", Utf8.ofString "danger\none\ntwo\nx da\nnger\n")] = [("f.go", map)] := by decide +kernel
  have added : workspace.addedBetween "/r" "a" "b" [] = .ok [("f.go", map)] := by
    have base : repository.resolve "a" = .ok ⟨"a", none, [("f.go", Utf8.ofString "one\ntwo\n")]⟩ := by
      rfl
    have head : repository.resolve "b" = .ok
        ⟨"b", some "a", [("f.go", Utf8.ofString "danger\none\ntwo\nx da\nnger\n")]⟩ := by rfl
    rw [Workspace.addedBetween, if_neg (by decide), at_root]
    dsimp only
    rw [base, head]
    dsimp only
    rw [lines]
    rfl
  have sorted : Diff.blocks map = [⟨1, Utf8.ofString "danger"⟩, ⟨4, Utf8.ofString "x da\nnger"⟩] := by
    rw [Diff.blocks, List.mergeSort_of_pairwise (by decide)]
    decide +kernel
  obtain ⟨analysis, asked, eq, covers⟩ := between_on_added_lines analyzer workspace "/r" "a" "b" "/r"
    [("f.go", map)] rooted added (by decide +kernel) (by decide +kernel)
  refine ⟨rooted, added, analysis, asked, eq, covers, ?_⟩
  rw [analyzer.between_eq rooted added] at eq
  cases eq
  rw [Analysis.issues, List.map_singleton, sorted]
  decide +kernel

end Analyzer

end Sift
