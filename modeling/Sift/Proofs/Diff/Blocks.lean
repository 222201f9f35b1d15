import Mathlib.Data.Int.Order.Basic
import Mathlib.Data.List.Basic
import Mathlib.Data.List.Pairwise
import Sift.Diff.Added
import Sift.Proofs.Sorting

/-!
# Runs of added lines

Lines in ascending order are grouped by a loop with an open group. `Grouping` says how the open group and
the lines to come belong together; it holds when a line is taken into the group (`Grouping.extend`) and
when one begins a new group (`Grouping.restart`). By it the blocks hold all lines, each under its number
(`Grouping.flatMap_lines`), and between two blocks there is room for a line (`Grouping.apart`). So
blocks are the longest runs of the lines of a map, and nothing is lost (`blocks_divide`).
-/

namespace Sift.Diff

/-- Texts under numbers that count up from `first`. -/
def numbered (first : Int) : List Bytes → LineMap
  | [] => []
  | text :: rest => (first, text) :: numbered (first + 1) rest

lemma numbered_append (first : Int) (front back : List Bytes) :
    numbered first (front ++ back) = numbered first front ++ numbered (first + front.length) back := by
  induction front generalizing first with
  | nil => simp [numbered]
  | cons text rest ih =>
    rw [List.cons_append, numbered, ih, numbered, List.cons_append, List.length_cons, Int.natCast_add,
      Int.add_assoc, Int.add_comm 1]
    rfl

lemma bounds_of_mem_numbered {first texts line} (mem : line ∈ numbered first texts) :
    first ≤ line.1 ∧ line.1 < first + texts.length := by
  induction texts generalizing first with
  | nil => cases mem
  | cons text rest ih =>
    rw [List.length_cons]
    rcases List.mem_cons.mp mem with rfl | later
    · dsimp only
      omega
    · have := ih later
      omega

lemma mem_numbered {first number texts text} :
    (number, text) ∈ numbered first texts ↔
      ∃ place : Nat, number = first + place ∧ texts[place]? = some text := by
  induction texts generalizing first with
  | nil => simp [numbered]
  | cons line rest ih =>
    rw [numbered, List.mem_cons, ih]
    constructor
    · rintro (eq | ⟨place, rfl, found⟩)
      · obtain ⟨rfl, rfl⟩ := Prod.mk.inj eq
        exact ⟨0, by simp, rfl⟩
      · exact ⟨place + 1, by omega, found⟩
    · rintro ⟨place, rfl, found⟩
      cases place with
      | zero =>
        obtain rfl := Option.some.inj found
        exact .inl (by simp)
      | succ place => exact .inr ⟨place, by omega, found⟩

lemma joinLines_eq (texts : List Bytes) : joinLines texts = [10].intercalate texts := by
  fun_induction joinLines texts with
  | case1 => rfl
  | case2 line => simp
  | case3 line rest ne ih =>
    rw [ih]
    cases rest with
    | nil => exact absurd rfl ne
    | cons next rest => simp

namespace Block

/-- The lines of a block under their numbers. -/
def lines (block : Block) : LineMap := numbered block.start (block.text.splitOn 10)

/-- The number behind the last line of a block. -/
def stop (block : Block) : Int := block.start + (block.text.splitOn 10).length

lemma start_lt_stop (block : Block) : block.start < block.stop := by
  have pos := List.length_pos_iff.mpr (List.splitOn_ne_nil 10 block.text)
  rw [stop]
  omega

end Block

/-- Joined lines are split again. -/
lemma splitOn_joinLines {texts} (ne : texts ≠ []) (plain : ∀ text ∈ texts, 10 ∉ text) :
    (joinLines texts).splitOn 10 = texts := by
  rw [joinLines_eq, List.splitOn_intercalate 10 plain ne]

/-- The open group ends at `last`, and the lines to come lie behind it in ascending order. -/
structure Grouping (start last : Int) (group : List Bytes) (rest : LineMap) : Prop where
  nonempty : group ≠ []
  length : last + 1 = start + group.length
  plain : ∀ text ∈ group, 10 ∉ text
  later : ∀ line ∈ rest, last < line.1
  ascending : rest.Pairwise (·.1 < ·.1)
  rest_plain : ∀ line ∈ rest, 10 ∉ line.2

namespace Grouping

variable {start last number : Int} {group : List Bytes} {text : Bytes} {rest : LineMap}

/-- Lines in ascending order are a group of one line and the lines to come. -/
lemma single (ascending : ((number, text) :: rest).Pairwise (·.1 < ·.1))
    (plain : ∀ line ∈ (number, text) :: rest, 10 ∉ line.2) : Grouping number number [text] rest := by
  rw [List.pairwise_cons] at ascending
  rw [List.forall_mem_cons] at plain
  exact ⟨List.cons_ne_nil _ _, rfl, by simpa using plain.1, ascending.1, ascending.2, plain.2⟩

/-- A line that follows the open group is taken into it. -/
lemma extend (grouping : Grouping start last group ((number, text) :: rest)) (next : number = last + 1) :
    Grouping start number (text :: group) rest := by
  obtain ⟨_, length, plain, _, ascending, rest_plain⟩ := grouping
  rw [List.pairwise_cons] at ascending
  rw [List.forall_mem_cons] at rest_plain
  refine ⟨List.cons_ne_nil _ _, ?_, List.forall_mem_cons.mpr ⟨rest_plain.1, plain⟩, ascending.1,
    ascending.2, rest_plain.2⟩
  rw [List.length_cons]
  omega

/-- A line that does not follow begins a new group. -/
lemma restart (grouping : Grouping start last group ((number, text) :: rest)) :
    Grouping number number [text] rest :=
  single grouping.ascending grouping.rest_plain

/-- The block of the open group has the texts of the group. -/
lemma splitOn_text (grouping : Grouping start last group rest) :
    (joinLines group.reverse).splitOn 10 = group.reverse := by
  refine splitOn_joinLines (by simpa using grouping.nonempty) fun text mem => ?_
  exact grouping.plain text (List.mem_reverse.mp mem)

/-- The blocks hold the lines of the open group and those to come, each under its number. -/
lemma flatMap_lines (grouping : Grouping start last group rest) :
    (groups start last group rest).flatMap Block.lines = numbered start group.reverse ++ rest := by
  induction rest generalizing start last group with
  | nil =>
    rw [groups, List.flatMap_singleton, Block.lines, grouping.splitOn_text, List.append_nil]
  | cons line rest ih =>
    obtain ⟨number, text⟩ := line
    rw [groups]
    split
    · rename_i next
      have here : start + (group.reverse.length : Int) = number := by
        rw [List.length_reverse, ← grouping.length, next]
      rw [ih (grouping.extend next), List.reverse_cons, numbered_append, here, List.append_assoc]
      rfl
    · rw [List.flatMap_cons, ih grouping.restart, Block.lines, grouping.splitOn_text]
      rfl

/-- No block begins before the open group. -/
lemma start_le (grouping : Grouping start last group rest) :
    ∀ block ∈ groups start last group rest, start ≤ block.start := by
  induction rest generalizing start last group with
  | nil =>
    intro block mem
    obtain rfl := List.mem_singleton.mp mem
    exact Int.le_refl start
  | cons line rest ih =>
    obtain ⟨number, text⟩ := line
    rw [groups]
    split
    · rename_i next
      exact ih (grouping.extend next)
    · have before := grouping.later _ List.mem_cons_self
      have length := grouping.length
      refine List.forall_mem_cons.mpr ⟨Int.le_refl _, fun block mem => ?_⟩
      have := ih grouping.restart block mem
      dsimp only at before
      omega

/-- Between two blocks there is room for a line. -/
lemma apart (grouping : Grouping start last group rest) :
    (groups start last group rest).Pairwise fun a b => a.stop < b.start := by
  induction rest generalizing start last group with
  | nil => exact List.pairwise_singleton _ _
  | cons line rest ih =>
    obtain ⟨number, text⟩ := line
    rw [groups]
    split
    · rename_i next
      exact ih (grouping.extend next)
    · rename_i gap
      refine List.pairwise_cons.mpr ⟨fun block mem => ?_, ih grouping.restart⟩
      have before := grouping.later _ List.mem_cons_self
      have after := grouping.restart.start_le block mem
      rw [Block.stop, grouping.splitOn_text, List.length_reverse, ← grouping.length]
      dsimp only at before
      omega

end Grouping

section

variable {map : LineMap} (distinct : (map.map (·.1)).Nodup) (plain : ∀ line ∈ map, 10 ∉ line.2)

include distinct plain

lemma blocks_grouped : (blocks map).flatMap Block.lines = map.mergeSort (fun a b => a.1 ≤ b.1) ∧
    (blocks map).Pairwise fun a b => a.stop < b.start := by
  have ascending : (map.mergeSort fun a b => a.1 ≤ b.1).Pairwise (·.1 < ·.1) :=
    pairwise_mergeSort_of_nodup Prod.fst distinct
  have plain' : ∀ line ∈ map.mergeSort fun a b => a.1 ≤ b.1, 10 ∉ line.2 :=
    fun line mem => plain line (List.mem_mergeSort.mp mem)
  rw [blocks]
  cases sorted : map.mergeSort fun a b => a.1 ≤ b.1 with
  | nil => exact ⟨rfl, .nil⟩
  | cons line rest =>
    rw [sorted] at ascending plain'
    have grouping := Grouping.single ascending plain'
    exact ⟨grouping.flatMap_lines, grouping.apart⟩

/-- The number behind a block is not the number of a line. -/
lemma stop_not_mem {block} (mem : block ∈ blocks map) : block.stop ∉ map.map (·.1) := by
  obtain ⟨lines, apart⟩ := blocks_grouped distinct plain
  -- It does not lie in the block itself, nor in one before it or behind it.
  have outside : ∀ other ∈ blocks map, ¬ (other.start ≤ block.stop ∧ block.stop < other.stop) := by
    refine List.Pairwise.forall_of_forall_of_flip (R := fun a b => ¬ (b.start ≤ a.stop ∧ a.stop < b.stop))
      (fun a _ => ?_) (apart.imp fun {a b} lt => ?_) (apart.imp fun {a b} lt => ?_) mem
    · omega
    · omega
    · have := b.start_lt_stop
      rw [flip]
      omega
  intro listed
  obtain ⟨line, mem_line, eq⟩ := List.mem_map.mp listed
  have held : line ∈ (blocks map).flatMap Block.lines := by
    rw [lines]
    exact List.mem_mergeSort.mpr mem_line
  obtain ⟨other, mem_other, mem_lines⟩ := List.mem_flatMap.mp held
  have bounds := bounds_of_mem_numbered mem_lines
  rw [eq] at bounds
  exact outside other mem_other bounds

end

/-- The blocks of a map stand in ascending order and hold its lines, each under its number and none twice,
and between two blocks a line is missing. -/
theorem blocks_divide (map : LineMap) (distinct : (map.map (·.1)).Nodup)
    (plain : ∀ line ∈ map, 10 ∉ line.2) :
    (blocks map).Pairwise (·.start < ·.start) ∧
    ((blocks map).flatMap Block.lines).Perm map ∧
    (blocks map).Pairwise fun a b =>
      ∃ number, a.stop ≤ number ∧ number < b.start ∧ number ∉ map.map (·.1) := by
  obtain ⟨lines, apart⟩ := blocks_grouped distinct plain
  refine ⟨apart.imp fun {a b} lt => ?_, ?_, apart.imp_of_mem fun {a b} mem _ lt => ?_⟩
  · exact Int.lt_trans a.start_lt_stop lt
  · rw [lines]
    exact List.mergeSort_perm _ _
  · exact ⟨a.stop, Int.le_refl _, lt, stop_not_mem distinct plain mem⟩

/-- A map with a gap and with empty lines, not in order. -/
theorem blocks_divide_gap :
    let map : LineMap := [(7, [98]), (-1, []), (6, []), (0, [97])]
    (map.map (·.1)).Nodup ∧ (∀ line ∈ map, 10 ∉ line.2) ∧
      (blocks map).Pairwise (·.start < ·.start) ∧ ((blocks map).flatMap Block.lines).Perm map ∧
      (blocks map).Pairwise fun a b =>
        ∃ number, a.stop ≤ number ∧ number < b.start ∧ number ∉ map.map (·.1) := by
  intro map
  have distinct : (map.map (·.1)).Nodup := by decide
  have plain : ∀ line ∈ map, 10 ∉ line.2 := by decide
  exact ⟨distinct, plain, blocks_divide map distinct plain⟩

end Sift.Diff
