import Mathlib.Data.List.Basic
import Mathlib.Data.List.Nodup
import Sift.Diff.Added

/-!
# Lines that a script inserts

Hunks deliver a script if each shows a stretch of it, line by line with marks, from the number that its
first line has in the new text, and what no hunk shows is kept (`Delivers`). The walk over such hunks never
loses count: it finds the lines that the script inserts, under their numbers (`Delivers.foldl_added`,
`added_iff_inserts`). Hunks that are made from a script deliver it if no insertion is empty
(`Assembly.delivers_hunks`).
-/

namespace Sift.Diff

/-- The lines of a script one by one, each with what happens to it. -/
def edits (script : List (Run Bytes)) : List (Change × Bytes) :=
  script.flatMap fun run => run.items.map (run.change, ·)

/-- The lines that are in the new text. -/
def newLines (edits : List (Change × Bytes)) : List Bytes :=
  (edits.filter (·.1 ≠ .delete)).map (·.2)

/-- The text of a line: without its newline and without a carriage return before it. -/
def textOf (line : Bytes) : Bytes :=
  let bare := if line.getLast? = some 10 then line.dropLast else line
  if bare.getLast? = some 13 then bare.dropLast else bare

/-- Marked lines show edits: each edit as its mark and its text. Remarks may stand between them, and
empty pieces where the lines were split. -/
inductive Renders : List (Change × Bytes) → List Bytes → Prop
  | nil : Renders [] []
  | line {change : Change} {line : Bytes} {edits : List (Change × Bytes)} {lines : List Bytes} :
    Renders edits lines → Renders ((change, line) :: edits) ((change.mark :: textOf line) :: lines)
  | remark {words : Bytes} {edits : List (Change × Bytes)} {lines : List Bytes} :
    Renders edits lines → Renders edits ((92 :: words) :: lines)
  | blank {edits : List (Change × Bytes)} {lines : List Bytes} :
    Renders edits lines → Renders edits ([] :: lines)

/-- Hunks deliver edits before which `passed` lines of the new text stand. What is not shown is kept, and a
hunk that shows lines of the new text has the number of the first of them. -/
inductive Delivers : Nat → List (Change × Bytes) → List Hunk → Prop
  | rest {passed : Nat} {kept : List (Change × Bytes)} :
    (∀ edit ∈ kept, edit.1 = .keep) → Delivers passed kept []
  | hunk {passed : Nat} {kept shown rest : List (Change × Bytes)} {hunk : Hunk} {hunks : List Hunk} :
    (∀ edit ∈ kept, edit.1 = .keep) → Renders shown hunk.lines →
      (newLines shown ≠ [] → hunk.start = passed + kept.length + 1) →
        Delivers (passed + kept.length + (newLines shown).length) rest hunks →
          Delivers passed (kept ++ shown ++ rest) (hunk :: hunks)

/-- The inserted ones of edits under their numbers; the first line of the new text has the given one. -/
def inserted (number : Int) : List (Change × Bytes) → LineMap
  | [] => []
  | (.insert, line) :: rest => (number, textOf line) :: inserted (number + 1) rest
  | (.keep, _) :: rest => inserted (number + 1) rest
  | (.delete, _) :: rest => inserted number rest

/-- New lines come one after the other. -/
lemma newLines_append (front back : List (Change × Bytes)) :
    newLines (front ++ back) = newLines front ++ newLines back := by
  rw [newLines, List.filter_append, List.map_append]
  rfl

/-- Lines that are kept are new lines. -/
lemma newLines_of_kept {kept} (all : ∀ edit ∈ kept, edit.1 = .keep) :
    newLines kept = kept.map (·.2) := by
  rw [newLines, List.filter_eq_self.mpr]
  intro edit mem
  rw [all edit mem]
  rfl

/-- The new lines of a script are its target. -/
lemma newLines_edits (script : List (Run Bytes)) : newLines (edits script) = target script := by
  induction script with
  | nil => rfl
  | cons run rest ih =>
    obtain ⟨change, items⟩ := run
    rw [edits, List.flatMap_cons, ← edits, newLines_append, ih]
    cases change <;> simp [newLines, target, List.filter_map, Function.comp_def]

/-- Inserted lines are numbered behind the new lines before them. -/
lemma inserted_append (number : Int) (front back : List (Change × Bytes)) :
    inserted number (front ++ back) =
      inserted number front ++ inserted (number + (newLines front).length) back := by
  induction front generalizing number with
  | nil => simp [inserted, newLines]
  | cons edit rest ih =>
    obtain ⟨change, line⟩ := edit
    cases change with
    | keep | insert =>
      simp only [List.cons_append, inserted, ih, newLines, List.filter_cons, ne_eq, reduceCtorEq,
        not_false_eq_true, decide_true, if_true, List.map_cons, List.length_cons, Int.natCast_add,
        Int.add_assoc, Int.add_comm 1]
      rfl
    | delete => simp [inserted, ih, newLines]

/-- Nothing is inserted where all is kept. -/
lemma inserted_of_kept (number : Int) {kept} (all : ∀ edit ∈ kept, edit.1 = .keep) : inserted number kept = [] := by
  induction kept generalizing number with
  | nil => rfl
  | cons edit rest ih =>
    obtain ⟨change, line⟩ := edit
    obtain ⟨keep, others⟩ := List.forall_mem_cons.mp all
    obtain rfl : change = .keep := keep
    exact ih (number + 1) others

lemma inserted_eq_nil (number : Int) {edits} (none : newLines edits = []) :
    inserted number edits = [] := by
  induction edits with
  | nil => rfl
  | cons edit rest ih =>
    obtain ⟨change, line⟩ := edit
    cases change with
    | keep | insert => cases none
    | delete => exact ih none

/-- An inserted line has the number of new lines before it. -/
lemma getElem?_newLines (front back : List (Change × Bytes)) (line : Bytes) :
    (newLines (front ++ (.insert, line) :: back))[(newLines front).length]? = some line := by
  rw [newLines_append, List.getElem?_append_right (Nat.le_refl _), Nat.sub_self]
  rfl

/-- An inserted line stands behind those of the new text that come before it. -/
lemma mem_inserted {first number text edits} :
    (number, text) ∈ inserted first edits ↔
      ∃ front line back, edits = front ++ (.insert, line) :: back ∧
        number = first + (newLines front).length ∧ text = textOf line := by
  constructor
  · intro mem
    induction edits generalizing first with
    | nil => cases mem
    | cons edit rest ih =>
      obtain ⟨change, line⟩ := edit
      cases change with
      | keep =>
        obtain ⟨front, line', back, rfl, rfl, rfl⟩ := ih mem
        refine ⟨(.keep, line) :: front, line', back, rfl, ?_, rfl⟩
        simp [newLines, Int.add_assoc, Int.add_comm 1]
      | delete =>
        obtain ⟨front, line', back, rfl, rfl, rfl⟩ := ih mem
        exact ⟨(.delete, line) :: front, line', back, rfl, by simp [newLines], rfl⟩
      | insert =>
        rcases List.mem_cons.mp mem with eq | mem
        · obtain ⟨rfl, rfl⟩ := Prod.mk.inj eq
          exact ⟨[], line, rest, rfl, by simp [newLines], rfl⟩
        · obtain ⟨front, line', back, rfl, rfl, rfl⟩ := ih mem
          refine ⟨(.insert, line) :: front, line', back, rfl, ?_, rfl⟩
          simp [newLines, Int.add_assoc, Int.add_comm 1]
  · rintro ⟨front, line, back, rfl, rfl, rfl⟩
    rw [inserted_append]
    exact List.mem_append_right _ List.mem_cons_self

/-- Numbers of inserted lines lie among the new lines. -/
lemma bounds_of_mem_inserted {first edits line} (mem : line ∈ inserted first edits) :
    first ≤ line.1 ∧ line.1 < first + (newLines edits).length := by
  obtain ⟨number, text⟩ := line
  obtain ⟨front, line, back, rfl, rfl, rfl⟩ := mem_inserted.mp mem
  have : newLines ((.insert, line) :: back) = line :: newLines back := rfl
  rw [newLines_append, this, List.length_append, List.length_cons]
  omega

/-- Numbers of inserted lines ascend. -/
lemma pairwise_inserted (first : Int) (edits : List (Change × Bytes)) :
    (inserted first edits).Pairwise (·.1 < ·.1) := by
  induction edits generalizing first with
  | nil => exact .nil
  | cons edit rest ih =>
    obtain ⟨change, line⟩ := edit
    cases change with
    | keep => exact ih _
    | delete => exact ih _
    | insert =>
      refine List.pairwise_cons.mpr ⟨fun later mem => ?_, ih _⟩
      have := (bounds_of_mem_inserted mem).1
      dsimp only
      omega

/-! ## The walk over hunks -/

/-- A higher number goes to the end. -/
lemma put_of_lt {map : LineMap} {number} (below : ∀ line ∈ map, line.1 < number) (text : Bytes) :
    map.put number text = map ++ [(number, text)] := by
  rw [LineMap.put, List.filter_eq_self.mpr]
  intro line mem
  exact decide_eq_true (Int.ne_of_lt (below line mem))

/-- Within a hunk the walk keeps count: marked lines add the inserted ones of the edits that they show. -/
lemma Renders.addedFrom_eq {edits lines} (renders : Renders edits lines) {map number}
    (below : ∀ line ∈ map, line.1 < number) :
    addedFrom map number lines = map ++ inserted number edits := by
  induction renders generalizing map number with
  | nil => exact (List.append_nil map).symm
  | @line change line edits lines _ ih =>
    have later : ∀ line ∈ map, line.1 < number + 1 := fun line mem => by
      have := below line mem
      omega
    cases change with
    | keep => exact ih later
    | delete => exact ih below
    | insert =>
      have here : ∀ other ∈ map ++ [(number, textOf line)], other.1 < number + 1 := by
        refine List.forall_mem_append.mpr ⟨later, List.forall_mem_singleton.mpr ?_⟩
        exact Int.lt_succ number
      have step : addedFrom map number ((Change.insert.mark :: textOf line) :: lines) =
          addedFrom (map.put number (textOf line)) (number + 1) lines := rfl
      rw [step, put_of_lt below, ih here, List.append_assoc]
      rfl
  | remark _ ih => exact ih below
  | blank _ ih => exact ih below

/-- A hunk without lines of the new text adds none, whatever its number is. -/
lemma Renders.addedFrom_of_none {edits lines} (renders : Renders edits lines) (none : newLines edits = [])
    (map : LineMap) (number : Int) :
    addedFrom map number lines = map := by
  induction renders with
  | nil => rfl
  | @line change line edits lines _ ih =>
    cases change with
    | keep | insert => cases none
    | delete => exact ih none
  | remark _ ih => exact ih none
  | blank _ ih => exact ih none

/-- The walk over the hunks of a script adds the lines that the script inserts. -/
lemma Delivers.foldl_added {passed edits hunks} (delivers : Delivers passed edits hunks) {map : LineMap}
    (below : ∀ line ∈ map, line.1 ≤ passed) :
    hunks.foldl Hunk.added map = map ++ inserted (passed + 1) edits := by
  induction delivers generalizing map with
  | rest kept => rw [inserted_of_kept _ kept, List.append_nil, List.foldl_nil]
  | @hunk passed kept shown rest hunk hunks all renders start _ ih =>
    have within : inserted (passed + 1) (kept ++ shown) = inserted (passed + kept.length + 1) shown := by
      rw [inserted_append, inserted_of_kept _ all, newLines_of_kept all, List.length_map,
        List.nil_append, Int.add_right_comm]
    have count : (newLines (kept ++ shown)).length = kept.length + (newLines shown).length := by
      rw [newLines_append, newLines_of_kept all, List.length_append, List.length_map]
    have added : hunk.added map = map ++ inserted (passed + kept.length + 1) shown := by
      by_cases none : newLines shown = []
      · rw [Hunk.added, renders.addedFrom_of_none none, inserted_eq_nil _ none, List.append_nil]
      · rw [Hunk.added, if_neg (by rw [start none]; omega), start none]
        refine renders.addedFrom_eq fun line mem => ?_
        have := below line mem
        omega
    rw [List.foldl_cons, added, ih, inserted_append, within, count, List.append_assoc]
    · congr 3
      push_cast
      omega
    · refine List.forall_mem_append.mpr ⟨fun line mem => ?_, fun line mem => ?_⟩
      · have := below line mem
        omega
      · have := (bounds_of_mem_inserted mem).2
        omega

/-! ## Numbers of added lines -/

/-- No number is there twice, and none is less than one. -/
structure LineMap.Proper (map : LineMap) : Prop where
  distinct : (map.map (·.1)).Nodup
  positive : ∀ line ∈ map, 1 ≤ line.1

/-- One more line keeps a map proper. -/
lemma LineMap.Proper.put {map : LineMap} (proper : map.Proper) {number} (le : 1 ≤ number) (text : Bytes) :
    (map.put number text).Proper := by
  constructor
  · rw [LineMap.put, List.map_append, List.map_singleton, List.nodup_append]
    refine ⟨proper.distinct.sublist (List.filter_sublist.map _), List.nodup_singleton _, ?_⟩
    intro other mem number' mem'
    obtain ⟨line, chosen, rfl⟩ := List.mem_map.mp mem
    rw [List.mem_singleton.mp mem']
    exact of_decide_eq_true (List.mem_filter.mp chosen).2
  · refine List.forall_mem_append.mpr ⟨fun line mem => ?_, List.forall_mem_singleton.mpr le⟩
    exact proper.positive line (List.mem_filter.mp mem).1

/-- Lines that are added keep a map proper. -/
lemma proper_addedFrom {map : LineMap} (proper : map.Proper) {number} (le : 1 ≤ number) (lines : List Bytes) :
    (addedFrom map number lines).Proper := by
  fun_induction addedFrom map number lines with
  | case1 map number => exact proper
  | case2 map number rest ih => exact ih proper le
  | case3 map number text rest ih => exact ih (proper.put le text) (by omega)
  | case4 map number mark text rest _ _ ih => exact ih proper le
  | case5 map number mark text rest _ _ ih => exact ih proper (by omega)

/-- The lines that a patch adds have proper numbers, whatever its hunks are. -/
lemma proper_added (patch : FilePatch) : patch.added.Proper := by
  rw [FilePatch.added]
  have empty : LineMap.Proper [] := ⟨.nil, List.forall_mem_nil _⟩
  generalize ([] : LineMap) = map at *
  induction patch.hunks generalizing map with
  | nil => exact empty
  | cons hunk rest ih =>
    refine ih _ (proper_addedFrom empty ?_ hunk.lines)
    split <;> omega

/-! ## Hunks that are made from a script -/

/-- Parts of a diff are rendered one after the other. -/
lemma Renders.append {front back above below} (renders : Renders front above) (renders' : Renders back below) :
    Renders (front ++ back) (above ++ below) := by
  induction renders with
  | nil => exact renders'
  | line _ ih => exact .line ih
  | remark _ ih => exact .remark ih
  | blank _ ih => exact .blank ih

lemma noNewline_eq : noNewline = 92 :: noNewline.tail := by decide +kernel

/-- Lines of one kind are rendered. -/
lemma renders_shownAll (change : Change) (lines : List Bytes) :
    Renders (lines.map (change, ·)) (shownAll change lines) := by
  induction lines with
  | nil => exact .nil
  | cons line rest ih =>
    rw [shownAll, List.flatMap_cons, ← shownAll, shown, List.cons_append, List.map_cons]
    refine .line ?_
    split
    · exact ih
    · rw [noNewline_eq]
      exact .remark ih

lemma newLines_map (change : Change) (lines : List Bytes) :
    newLines (lines.map (change, ·)) = if change = .delete then [] else lines := by
  cases change <;> simp [newLines, List.filter_map, Function.comp_def]

/-- A hunk shows the last of the edits that were passed since the hunk before it, up to which there are `base`
lines of the new text. Its number is right if it shows a line of the new text, and if `numbered` holds. -/
structure Hunk.Open (hunk : Hunk) (base : Nat) (kept shown : List (Change × Bytes)) (numbered : Prop) :
    Prop where
  kept_eq : ∀ edit ∈ kept, edit.1 = .keep
  renders : Renders shown hunk.lines
  start_eq : newLines shown ≠ [] ∨ numbered → hunk.start = base + kept.length + 1

namespace Assembly

variable {assembly : Assembly} {base : Nat} {rest : List (Run Bytes)}

/-- How an assembly stands to the edits that it has passed since the last finished hunk, and to the runs
ahead: all is kept, and it is the beginning of the text or enough for a context, or a hunk is open. -/
inductive Stands (assembly : Assembly) (base : Nat) (ahead : List (Run Bytes)) :
    List (Change × Bytes) → Prop
  | closed : assembly.current = none → assembly.passed = base + assembly.before.length →
    (ahead ≠ [] → base = 0 ∨ contextLines ≤ assembly.before.length) →
      Stands assembly base ahead (assembly.before.map (.keep, ·))
  | opened {kept shown : List (Change × Bytes)} {hunk : Hunk} : assembly.current = some hunk →
    assembly.passed = base + kept.length + (newLines shown).length →
      hunk.Open base kept shown (ahead ≠ []) → Stands assembly base ahead (kept ++ shown)

/-- The context is limited. -/
lemma length_context (assembly : Assembly) :
    assembly.context.length = min contextLines assembly.before.length := by
  rw [context, List.length_drop]
  omega

/-- A new hunk begins with the context before it. -/
lemma open_context {hunk : Hunk} {numbered : Prop} (lines : hunk.lines = shownAll .keep assembly.context)
    (start : assembly.context ≠ [] ∨ numbered →
      hunk.start = base + (assembly.before.length - contextLines : Nat) + 1) :
    hunk.Open base ((assembly.before.take (assembly.before.length - contextLines)).map (.keep, ·))
      (assembly.context.map (.keep, ·)) numbered where
  kept_eq := by
    intro edit mem
    obtain ⟨line, _, rfl⟩ := List.mem_map.mp mem
    rfl
  renders := by
    rw [lines]
    exact renders_shownAll _ _
  start_eq := by
    rw [newLines_map, if_neg (by decide), List.length_map, List.length_take,
      Nat.min_eq_left (Nat.sub_le _ _)]
    exact start

/-- The hunk to which a change is added: the open one, or a new one with the context before the change. -/
lemma Stands.exists_open {done run} (stands : assembly.Stands base (run :: rest) done) {hunk} {numbered : Prop}
    (old : ∀ current, assembly.current = some current → hunk = current)
    (new : assembly.current = none → hunk.lines = shownAll .keep assembly.context)
    (start : assembly.current = none → assembly.passed = base + assembly.before.length →
      (base = 0 ∨ contextLines ≤ assembly.before.length) → assembly.context ≠ [] ∨ numbered →
        hunk.start = base + (assembly.before.length - contextLines : Nat) + 1) :
    ∃ kept shown, done = kept ++ shown ∧ assembly.passed = base + kept.length + (newLines shown).length ∧
      hunk.Open base kept shown numbered := by
  cases stands with
  | closed none passed enough =>
    refine ⟨_, _, ?_, ?_, open_context (new none) (start none passed (enough (List.cons_ne_nil _ _)))⟩
    · rw [← List.map_append, context, List.take_append_drop]
    · have length := assembly.length_context
      rw [newLines_map, if_neg (by decide), List.length_map, List.length_take, passed]
      omega
  | @opened kept shown current some passed shows =>
    obtain rfl := old current some
    refine ⟨kept, shown, rfl, passed, shows.kept_eq, shows.renders, fun _ => ?_⟩
    exact shows.start_eq (.inr (List.cons_ne_nil _ _))

/-- An open hunk takes a run and stays open. -/
lemma stands_extend {kept shown hunk} {numbered : Prop} {passed : Int} (run : Run Bytes)
    (counted : passed = base + kept.length + (newLines shown).length) (shows : hunk.Open base kept shown numbered)
    (more : rest ≠ [] ∨ run.change ≠ .delete ∧ run.items ≠ [] → numbered)
    (current : assembly.current = some (extend hunk run.change run.items))
    (passed_eq : assembly.passed = passed + (if run.change = .delete then [] else run.items).length) :
    assembly.Stands base rest (kept ++ shown ++ run.items.map (run.change, ·)) := by
  rw [List.append_assoc]
  refine .opened current ?_
    ⟨shows.kept_eq, shows.renders.append (renders_shownAll run.change run.items), fun some => ?_⟩
  · rw [passed_eq, counted, newLines_append, newLines_map, List.length_append, Int.natCast_add,
      Int.add_assoc]
  · refine shows.start_eq ?_
    rw [newLines_append, newLines_map] at some
    by_cases none : newLines shown = []
    · refine .inr (more ?_)
      rw [none, List.nil_append] at some
      rcases some with some | some
      · refine .inr ?_
        split at some
        · exact absurd rfl some
        · exact ⟨‹_›, some⟩
      · exact .inl some
    · exact .inl none

/-- A hunk that begins with a deletion opens here. -/
lemma Stands.open_delete {done run} (stands : assembly.Stands base (run :: rest) done) :
    ∃ kept shown, done = kept ++ shown ∧ assembly.passed = base + kept.length + (newLines shown).length ∧
      (assembly.openHunk .delete rest.isEmpty).Open base kept shown (rest ≠ []) := by
  refine stands.exists_open (fun current eq => by rw [openHunk, eq])
    (fun none => by rw [openHunk, none]) ?_
  intro none passed enough used
  have length := assembly.length_context
  rw [openHunk, none]
  dsimp only
  rw [if_neg (by decide)]
  split
  · -- Less than the whole context is there only at the beginning of the text.
    split <;> simp only [contextLines] at * <;> omega
  · rename_i empty
    rw [ne_eq, not_not, List.length_eq_zero_iff] at empty
    have more : rest ≠ [] := used.resolve_left fun some => some empty
    rw [empty, List.length_nil] at length
    rw [if_neg (by simpa using more), passed]
    simp only [contextLines] at *
    omega

/-- A hunk that begins with an insertion opens behind the line before. -/
lemma Stands.open_insert {done run} (stands : assembly.Stands base (run :: rest) done) :
    ∃ kept shown, done = kept ++ shown ∧ assembly.passed = base + kept.length + (newLines shown).length ∧
      ({ assembly with passed := assembly.passed + 1 }.openHunk .insert rest.isEmpty).Open base kept shown
        True := by
  refine stands.exists_open (fun current eq => by rw [openHunk, eq])
    (fun none => by rw [openHunk, none]; rfl) ?_
  intro none passed _ _
  have length := assembly.length_context
  have start : ({ assembly with passed := assembly.passed + 1 }.openHunk .insert rest.isEmpty).start =
      assembly.passed + 1 - assembly.context.length := by
    rw [openHunk, none]
    rfl
  rw [start, passed, length]
  omega

/-- What passing a run comes to: the assembly goes on, or a hunk is finished and the assembly goes on
behind it. -/
inductive Passes (base : Nat) (ahead : List (Run Bytes)) :
    List (Change × Bytes) → Assembly × List Hunk → Prop
  | on {assembly : Assembly} {done : List (Change × Bytes)} :
    assembly.Stands base ahead done → Passes base ahead done (assembly, [])
  | finished {assembly : Assembly} {kept shown done : List (Change × Bytes)} {hunk : Hunk} :
    hunk.Open base kept shown False →
      assembly.Stands (base + kept.length + (newLines shown).length) ahead done →
        Passes base ahead (kept ++ shown ++ done) (assembly, [hunk])

/-- Passing a run keeps the count of lines. -/
lemma Stands.passes {done run} (stands : assembly.Stands base (run :: rest) done)
    (filled : run.change = .insert → run.items ≠ []) :
    Passes base rest (done ++ run.items.map (run.change, ·)) (assembly.pass run rest.isEmpty) := by
  obtain ⟨change, items⟩ := run
  cases change with
  | delete =>
    obtain ⟨kept, shown, rfl, passed, shows⟩ := stands.open_delete
    refine .on (stands_extend ⟨_, items⟩ passed shows ?_ rfl (Int.add_zero _).symm)
    rintro (more | ⟨ne, _⟩)
    · exact more
    · exact absurd rfl ne
  | insert =>
    obtain ⟨kept, shown, rfl, passed, shows⟩ := stands.open_insert
    have ne : (items.length : Int) ≠ 0 := by simpa using filled rfl
    have eq : assembly.pass ⟨.insert, items⟩ rest.isEmpty =
        ({ passed := assembly.passed + 1 + items.length - 1,
           current := some (extend ({ assembly with passed := assembly.passed + 1 }.openHunk .insert
             rest.isEmpty) .insert items) }, []) := by
      rw [pass]
      simp only [ne, if_false]
    rw [eq]
    refine .on (stands_extend ⟨_, items⟩ passed shows (fun _ => trivial) rfl ?_)
    simp only [reduceCtorEq, if_false]
    omega
  | keep =>
    cases stands with
    | closed none passed enough =>
      have eq : assembly.pass ⟨.keep, items⟩ rest.isEmpty =
          ({ assembly with
              passed := assembly.passed + items.length, before := assembly.before ++ items }, []) := by
        rw [pass, none]
      rw [eq, ← List.map_append]
      refine .on (.closed none ?_ fun _ => ?_)
      · simp only [passed, List.length_append]
        omega
      · have enough := enough (List.cons_ne_nil _ _)
        simp only [List.length_append]
        omega
    | @opened kept shown hunk current passed shows =>
      have numbered := shows.start_eq (.inr (List.cons_ne_nil _ _))
      rw [pass, current]
      dsimp only
      split
      case isTrue =>
        exact .on (stands_extend ⟨_, items⟩ passed shows (fun _ => List.cons_ne_nil _ _) rfl rfl)
      case isFalse long =>
        have split : kept ++ shown ++ items.map (.keep, ·) = kept ++ (shown ++ (items.take contextLines).map
            (.keep, ·)) ++ (items.drop contextLines).map (.keep, ·) := by
          rw [List.append_assoc, List.append_assoc, List.append_assoc, ← List.map_append,
            List.take_append_drop]
        rw [split]
        refine .finished ⟨shows.kept_eq, shows.renders.append (renders_shownAll _ _), fun _ => numbered⟩
          (.closed rfl ?_ fun more => .inr ?_)
        · have length := congrArg List.length (List.take_append_drop contextLines items)
          rw [List.length_append] at length
          rw [newLines_append, newLines_map, if_neg (by decide), List.length_append]
          dsimp only
          omega
        · have more' : (!rest.isEmpty) = true := by simpa using more
          rw [more', Bool.and_true, decide_eq_true_eq] at long
          rw [List.length_drop]
          omega

/-- The hunks deliver all edits. -/
lemma Stands.delivers {done runs} (stands : assembly.Stands base runs done)
    (filled : ∀ run ∈ runs, run.change = .insert → run.items ≠ []) :
    Delivers base (done ++ edits runs) (assembly.hunks runs) := by
  induction runs generalizing assembly base done with
  | nil =>
    rw [edits, List.flatMap_nil, List.append_nil]
    cases stands with
    | closed none _ _ =>
      rw [Assembly.hunks, none]
      refine .rest fun edit mem => ?_
      obtain ⟨line, _, rfl⟩ := List.mem_map.mp mem
      rfl
    | @opened kept shown hunk current _ shows =>
      rw [Assembly.hunks, current, ← List.append_nil (kept ++ shown)]
      exact .hunk shows.kept_eq shows.renders (fun ne => shows.start_eq (.inl ne))
        (.rest (List.forall_mem_nil _))
  | cons run rest ih =>
    obtain ⟨first, others⟩ := List.forall_mem_cons.mp filled
    have passes := stands.passes first
    have step : assembly.hunks (run :: rest) = (assembly.pass run rest.isEmpty).2 ++
        (assembly.pass run rest.isEmpty).1.hunks rest := rfl
    rw [step, edits, List.flatMap_cons, ← edits, ← List.append_assoc]
    generalize assembly.pass run rest.isEmpty = after at passes
    generalize done ++ run.items.map (run.change, ·) = all at passes
    cases passes with
    | on stands => exact ih stands others
    | @finished _ kept shown done hunk shows stands =>
      rw [List.append_assoc]
      exact .hunk shows.kept_eq shows.renders (fun ne => shows.start_eq (.inl ne)) (ih stands others)

/-- Hunks that are made from a script deliver it, if no insertion of the script is empty. -/
lemma delivers_hunks {script} (filled : ∀ run ∈ script, run.change = .insert → run.items ≠ []) :
    Delivers 0 (edits script) (Assembly.hunks {} script) := by
  have stands : Stands {} 0 script [] := .closed rfl rfl fun _ => .inl rfl
  exact stands.delivers filled

end Assembly

/-! ## Lines of the new text -/

/-- The script turns the old text into the new one. -/
structure Between (script : List (Run Bytes)) (old new : Bytes) : Prop where
  source_eq : source script = lines old
  target_eq : target script = lines new

/-- The line at a place of the new text is one that the script inserts. -/
def InsertedAt (script : List (Run Bytes)) (place : Nat) : Prop :=
  ∃ front line back, edits script = front ++ (.insert, line) :: back ∧ (newLines front).length = place

/-- The walk over hunks that deliver a script between two texts records, each number once, just the lines
of the new text that the script inserts. -/
theorem added_iff_inserts (old new : Bytes) (script : List (Run Bytes)) (between : Between script old new)
    (path : String) (hunks : List Hunk) (delivers : Delivers 0 (edits script) hunks) :
    ((FilePatch.mk path hunks).added.map (·.1)).Nodup ∧
    ∀ number text, (number, text) ∈ (FilePatch.mk path hunks).added ↔
      ∃ (place : Nat) (line : Bytes), number = place + 1 ∧ (lines new)[place]? = some line ∧
        InsertedAt script place ∧ text = textOf line := by
  have added : (FilePatch.mk path hunks).added = inserted 1 (edits script) :=
    delivers.foldl_added (List.forall_mem_nil _)
  have news : newLines (edits script) = lines new := by rw [newLines_edits, between.target_eq]
  rw [added]
  constructor
  · refine List.pairwise_map.mpr ((pairwise_inserted 1 _).imp fun lt => Int.ne_of_lt lt)
  · intro number text
    rw [mem_inserted, ← news]
    constructor
    · rintro ⟨front, line, back, eq, rfl, rfl⟩
      refine ⟨(newLines front).length, line, Int.add_comm _ _, ?_, ⟨front, line, back, eq, rfl⟩, rfl⟩
      rw [eq, getElem?_newLines]
    · rintro ⟨place, line, rfl, found, ⟨front, line', back, eq, rfl⟩, rfl⟩
      rw [eq, getElem?_newLines] at found
      exact ⟨front, line', back, eq, Int.add_comm _ _, by rw [Option.some.inj found]⟩

/-- An empty line is inserted at the top, and the last line is replaced by one without a newline. -/
theorem added_iff_inserts_two_hunks :
    let old := Utf8.ofString "a\nb\nc\nd\ne\nf\ng\nh\ni\n"
    let new := Utf8.ofString "\na\nb\nc\nd\ne\nf\ng\nh\nj"
    let kept := lines (Utf8.ofString "a\nb\nc\nd\ne\nf\ng\nh\n")
    let script : List (Run Bytes) :=
      [⟨.insert, [[10]]⟩, ⟨.keep, kept⟩, ⟨.delete, [[105, 10]]⟩, ⟨.insert, [[106]]⟩]
    let hunks := Assembly.hunks {} script
    Between script old new ∧ Delivers 0 (edits script) hunks ∧ hunks.map (·.start) = [1, 7] ∧
      (1, []) ∈ (FilePatch.mk "f" hunks).added ∧ (10, [106]) ∈ (FilePatch.mk "f" hunks).added := by
  intro old new kept script hunks
  have between : Between script old new := ⟨by decide +kernel, by decide +kernel⟩
  have delivers : Delivers 0 (edits script) hunks := Assembly.delivers_hunks (by decide)
  obtain ⟨_, iff⟩ := added_iff_inserts old new script between "f" hunks delivers
  refine ⟨between, delivers, by decide +kernel, (iff 1 []).mpr ?_, (iff 10 [106]).mpr ?_⟩
  · exact ⟨0, [10], rfl, by decide +kernel, ⟨[], [10], _, rfl, rfl⟩, by decide⟩
  · refine ⟨9, [106], rfl, by decide +kernel, ⟨(edits script).dropLast, [106], [], ?_, ?_⟩, by decide⟩
    · decide +kernel
    · decide +kernel

end Sift.Diff
