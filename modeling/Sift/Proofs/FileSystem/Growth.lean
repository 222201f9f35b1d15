import Sift.Proofs.FileSystem

/-!
# Trees that grow

A tree grows if what it holds stays where it is (`Entry.Grows`), as it does when a file is put where there
was nothing (`Entry.grows_updateDir`). A walk in the old tree is one in the new tree, so that what was
found is still found (`FileSystem.locate_grows`). A walk in the new tree that comes upon nothing new ends
where it ended before (`FileSystem.locate_same`).
-/

namespace Sift

namespace Entry

/-- Both are directories, or they are the same. -/
inductive Alike : Entry → Entry → Prop
  | same (entry : Entry) : Alike entry entry
  | dirs (old new : List (String × Entry)) : Alike (.dir old) (.dir new)

/-- What the old tree holds is in its place in the new one. -/
def Grows (old new : Entry) : Prop :=
  ∀ names entry, old.below? names = some entry → ∃ entry', new.below? names = some entry' ∧ entry.Alike entry'

lemma lookup_insertChild_self (name : String) (entry : Entry) (entries : List (String × Entry)) :
    (insertChild name entry entries).lookup name = some entry := by
  induction entries with
  | nil => exact List.lookup_cons_self
  | cons first rest ih =>
    obtain ⟨other, old⟩ := first
    unfold insertChild
    split
    · exact List.lookup_cons_self
    · split
      · exact List.lookup_cons_self
      · rename_i ne _
        rw [List.lookup_cons, beq_eq_false_iff_ne.mpr ne]
        exact ih

/-- Other names are looked up as before. -/
lemma lookup_insertChild_of_ne {name other} (ne : other ≠ name) (entry : Entry) (entries : List (String × Entry)) :
    (insertChild name entry entries).lookup other = entries.lookup other := by
  induction entries with
  | nil => rw [insertChild, List.lookup_cons, beq_eq_false_iff_ne.mpr ne]
  | cons first rest ih =>
    obtain ⟨third, old⟩ := first
    unfold insertChild
    split
    · rename_i eq
      rw [List.lookup_cons, List.lookup_cons, ← eq, beq_eq_false_iff_ne.mpr ne]
    · split
      · rw [List.lookup_cons, beq_eq_false_iff_ne.mpr ne]
      · rw [List.lookup_cons, List.lookup_cons, ih]

/-- A file can be put at the names: they lead through directories to where there is nothing. -/
def Vacant (entry : Entry) : List String → Prop
  | [] => False
  | name :: rest => entry.isDir = true ∧ ∀ child, entry.children.lookup name = some child → child.Vacant rest

instance decidableVacant : (entry : Entry) → (names : List String) → Decidable (entry.Vacant names)
  | _, [] => isFalse id
  | entry, name :: rest =>
    match listed : entry.children.lookup name with
    | none => decidable_of_iff (entry.isDir = true)
        ⟨fun isDir => ⟨isDir, fun _ listed' => by cases listed.symm.trans listed'⟩, And.left⟩
    | some child =>
      have := decidableVacant child rest
      decidable_of_iff (entry.isDir = true ∧ child.Vacant rest)
        ⟨fun both => ⟨both.1, fun _ listed' => by cases listed.symm.trans listed'; exact both.2⟩,
          fun both => ⟨both.1, both.2 child listed⟩⟩

/-- A tree grows when something is put where there was nothing. -/
lemma grows_updateDir {root : Entry} {parents name} (vacant : root.Vacant (parents ++ [name])) (new : Entry) :
    root.Grows (root.updateDir (insertChild name new) parents) := by
  induction parents generalizing root with
  | nil =>
    obtain ⟨isDir, empty⟩ := vacant
    rintro (_ | ⟨first, rest⟩) entry found
    · cases found
      cases root with
      | dir entries => exact ⟨_, rfl, .dirs _ _⟩
      | file _ | link _ | device => cases isDir
    · refine ⟨entry, ?_, .same entry⟩
      have ne : first ≠ name := by
        rintro rfl
        unfold below? at found
        split at found
        · rename_i child listed
          exact empty child listed
        · cases found
      unfold below? at found ⊢
      rw [updateDir, children, lookup_insertChild_of_ne ne]
      exact found
  | cons parent rest ih =>
    obtain ⟨isDir, below⟩ := vacant
    rintro (_ | ⟨first, others⟩) entry found
    · cases found
      cases root with
      | dir entries => exact ⟨_, rfl, .dirs _ _⟩
      | file _ | link _ | device => cases isDir
    · unfold below? at found ⊢
      rw [updateDir, children]
      split at found
      · rename_i child listed
        by_cases eq : first = parent
        · subst eq
          obtain ⟨entry', found', alike⟩ := ih (below child listed) others entry found
          refine ⟨entry', ?_, alike⟩
          rw [lookup_insertChild_self, listed]
          exact found'
        · refine ⟨entry, ?_, .same entry⟩
          rw [lookup_insertChild_of_ne eq, listed]
          exact found
      · cases found

lemma mem_insertChild {name other new entries} (mem : other ∈ (insertChild name new entries).map (·.1)) :
    other = name ∨ other ∈ entries.map (·.1) := by
  induction entries with
  | nil => exact .inl (List.mem_singleton.mp mem)
  | cons first rest ih =>
    obtain ⟨third, old⟩ := first
    unfold insertChild at mem
    split at mem
    case isTrue => exact (List.mem_cons.mp mem).imp_right (List.mem_cons_of_mem _)
    case isFalse =>
      split at mem
      case isTrue => exact List.mem_cons.mp mem
      case isFalse =>
        rcases List.mem_cons.mp mem with rfl | mem
        · exact .inr (List.mem_cons_self ..)
        · exact (ih mem).imp_right (List.mem_cons_of_mem _)

/-- Names still ascend. -/
lemma pairwise_insertChild (name : String) (new : Entry) {entries} (sorted : (entries.map (·.1)).Pairwise (· < ·)) :
    ((insertChild name new entries).map (·.1)).Pairwise (· < ·) := by
  induction entries with
  | nil => exact List.pairwise_singleton _ _
  | cons first rest ih =>
    obtain ⟨other, old⟩ := first
    obtain ⟨above, sorted'⟩ := List.pairwise_cons.mp sorted
    unfold insertChild
    split
    case isTrue eq =>
      subst eq
      exact sorted
    case isFalse ne =>
      split
      case isTrue lt =>
        refine List.pairwise_cons.mpr ⟨List.forall_mem_cons.mpr ⟨lt, ?_⟩, sorted⟩
        exact fun third mem => lt_trans lt (above third mem)
      case isFalse ge =>
        have gt : other < name := lt_of_le_of_ne (not_lt.mp ge) (Ne.symm ne)
        refine List.pairwise_cons.mpr ⟨?_, ih sorted'⟩
        intro third mem
        rcases mem_insertChild mem with rfl | mem
        · exact gt
        · exact above third mem

/-- A sound entry with a name keeps the directory sound. -/
lemma Sound.insertChild {entry new : Entry} (sound : entry.Sound) {name} (isName : Path.IsName name)
    (sound' : new.Sound) : (dir (insertChild name new entry.children)).Sound := by
  obtain ⟨sorted, named, below⟩ := sound_iff.mp sound
  refine sound_iff.mpr ⟨pairwise_insertChild name new sorted, ?_, ?_⟩
  · intro other mem
    rcases mem_insertChild mem with rfl | mem
    · exact isName
    · exact named other mem
  · intro other child listed
    rw [children] at listed
    by_cases eq : other = name
    · subst eq
      rw [lookup_insertChild_self] at listed
      cases listed
      exact sound'
    · rw [lookup_insertChild_of_ne eq] at listed
      exact below other child listed

/-- Putting something into a sound tree keeps it sound. -/
lemma Sound.updateDir {root new : Entry} (sound : root.Sound) {parents name}
    (named : ∀ part ∈ parents ++ [name], Path.IsName part) (sound' : new.Sound) :
    (root.updateDir (Entry.insertChild name new) parents).Sound := by
  induction parents generalizing root with
  | nil => exact sound.insertChild (named name (List.mem_singleton_self _)) sound'
  | cons first rest ih =>
    obtain ⟨isName, named⟩ := List.forall_mem_cons.mp named
    refine sound.insertChild isName (ih ?_ named)
    cases listed : root.children.lookup first with
    | none => exact sound_of_children rfl
    | some child => exact (sound_iff.mp sound).2.2 first child listed

/-- What was put somewhere is there. -/
lemma below?_updateDir_self (root : Entry) (parents : List String) (name : String) (new : Entry) :
    (root.updateDir (Entry.insertChild name new) parents).below? (parents ++ [name]) = some new := by
  induction parents generalizing root with
  | nil =>
    rw [updateDir, List.nil_append, below?, children, lookup_insertChild_self]
    rfl
  | cons first rest ih =>
    rw [updateDir, List.cons_append, below?, children, lookup_insertChild_self]
    exact ih _

/-- All that is new lies on the way to what was put. -/
lemma prefix_of_new {root new : Entry} (leaf : new.children = []) {parents names name entry}
    (found : (root.updateDir (Entry.insertChild name new) parents).below? names = some entry)
    (none : root.below? names = none) : names <+: parents ++ [name] := by
  induction parents generalizing root names with
  | nil =>
    rcases names with _ | ⟨first, rest⟩
    · cases none
    · by_cases eq : first = name
      · subst eq
        rw [updateDir, below?, children, lookup_insertChild_self] at found
        cases rest with
        | nil => exact List.prefix_rfl
        | cons next rest =>
          dsimp only at found
          rw [below?, leaf] at found
          cases found
      · rw [updateDir, below?, children, lookup_insertChild_of_ne eq] at found
        cases none.symm.trans found
  | cons parent parents ih =>
    rcases names with _ | ⟨first, rest⟩
    · cases none
    · by_cases eq : first = parent
      · subst eq
        rw [updateDir, below?, children, lookup_insertChild_self] at found
        rw [List.cons_append, List.prefix_cons_inj]
        cases rest with
        | nil => exact List.nil_prefix
        | cons next rest =>
          refine ih found ?_
          unfold below? at none
          cases listed : root.children.lookup first with
          | none => rfl
          | some child => rwa [listed] at none
      · rw [updateDir, below?, children, lookup_insertChild_of_ne eq] at found
        cases none.symm.trans found

/-- What is new and no directory is what was put. -/
lemma eq_of_new {root new : Entry} (leaf : new.children = []) {parents names name entry}
    (found : (root.updateDir (Entry.insertChild name new) parents).below? names = some entry)
    (none : root.below? names = none) (other : entry.isDir = false) :
    names = parents ++ [name] ∧ entry = new := by
  have whole := below?_updateDir_self root parents name new
  obtain ⟨rest, eq⟩ := prefix_of_new leaf found none
  rw [← eq, below?_append, found, Option.bind_some] at whole
  cases rest with
  | nil =>
    rw [List.append_nil] at eq
    exact ⟨eq, Option.some.inj whole⟩
  | cons next rest =>
    cases entry with
    | dir entries => cases other
    | file _ | link _ | device => cases whole

end Entry

namespace FileSystem

/-- The walk, in the new tree, comes upon something where there was nothing in the old one. -/
def Meets (old new : Entry) (walk : Walk) : Prop :=
  ∃ links trail name rest entries entry,
    Relation.ReflTransGen (Step new) walk ⟨links, trail, name :: rest⟩ ∧
      new.below? trail.reverse = some (.dir entries) ∧ IsPlain name ∧
      entries.lookup name = some entry ∧ old.below? (name :: trail).reverse = none

section Growth

variable {old new : Entry} {walk walk' : Walk}

lemma Meets.append {links trail ahead} (meets : Meets old new ⟨links, trail, ahead⟩) (more : List String) :
    Meets old new ⟨links, trail, ahead ++ more⟩ := by
  obtain ⟨links', trail', name, rest, entries, entry, steps, others⟩ := meets
  exact ⟨links', trail', name, rest ++ more, entries, entry, steps_append steps more, others⟩

lemma Meets.of_dot {links trail ahead} (meets : Meets old new ⟨links, trail, ahead ++ ["."]⟩) :
    Meets old new ⟨links, trail, ahead⟩ := by
  obtain ⟨links', trail', name, rest, entries, entry, steps, dir, plain, others⟩ := meets
  rcases steps_split steps rfl with ⟨rest', eq, steps'⟩ | ⟨links'', trail'', _, dot⟩
  · cases rest' with
    | nil => exact absurd (List.cons.inj eq).1 plain.1
    | cons first rest' =>
      obtain ⟨rfl, _⟩ := List.cons.inj eq
      exact ⟨links', trail', name, rest', entries, entry, steps', dir, plain, others⟩
  · rcases steps_dot dot with eq | eq
    · exact absurd (List.cons.inj (Walk.mk.inj eq).2.2).1 plain.1
    · exact absurd (Walk.mk.inj eq).2.2 (List.cons_ne_nil _ _)

/-- A walk meets what its later steps meet. -/
lemma Meets.of_steps (steps : Relation.ReflTransGen (Step new) walk walk') (meets : Meets old new walk') :
    Meets old new walk := by
  obtain ⟨links, trail, name, rest, entries, entry, steps', others⟩ := meets
  exact ⟨links, trail, name, rest, entries, entry, steps.trans steps', others⟩

variable (grows : old.Grows new)
include grows

/-- Directories stay. -/
lemma exists_dir_of_grows {trail : List String} {entries} (dir : old.below? trail.reverse = some (.dir entries)) :
    ∃ entries', new.below? trail.reverse = some (.dir entries') := by
  obtain ⟨entry, found, alike⟩ := grows _ _ dir
  cases alike with
  | same _ => exact ⟨_, found⟩
  | dirs _ entries' => exact ⟨entries', found⟩

/-- Entries stay, and stay alike. -/
lemma exists_lookup_of_grows {trail : List String} {entries entries'}
    (dir : old.below? trail.reverse = some (.dir entries)) (dir' : new.below? trail.reverse = some (.dir entries'))
    {name entry} (listed : entries.lookup name = some entry) :
    ∃ entry', entries'.lookup name = some entry' ∧ entry.Alike entry' := by
  rw [← Entry.below?_cons dir] at listed
  obtain ⟨entry', found, alike⟩ := grows _ _ listed
  exact ⟨entry', by rwa [← Entry.below?_cons dir'], alike⟩

/-- A step through the old tree is one through the new tree. -/
lemma Step.of_grows (step : Step old walk walk') : Step new walk walk' := by
  cases step with
  | stay dir =>
    obtain ⟨entries', dir'⟩ := exists_dir_of_grows grows dir
    exact .stay dir'
  | up dir =>
    obtain ⟨entries', dir'⟩ := exists_dir_of_grows grows dir
    exact .up dir'
  | enter dir plain listed real =>
    obtain ⟨entries', dir'⟩ := exists_dir_of_grows grows dir
    obtain ⟨entry', listed', alike⟩ := exists_lookup_of_grows grows dir dir' listed
    refine .enter dir' plain listed' ?_
    cases alike with
    | same _ => exact real
    | dirs _ _ => exact nofun
  | jump dir plain listed absolute =>
    obtain ⟨entries', dir'⟩ := exists_dir_of_grows grows dir
    obtain ⟨_, listed', ⟨⟩⟩ := exists_lookup_of_grows grows dir dir' listed
    exact .jump dir' plain listed' absolute
  | turn dir plain listed relative =>
    obtain ⟨entries', dir'⟩ := exists_dir_of_grows grows dir
    obtain ⟨_, listed', ⟨⟩⟩ := exists_lookup_of_grows grows dir dir' listed
    exact .turn dir' plain listed' relative

/-- Results of one look-up in two trees: the same refusal, the same gap, or alike entries in one place. -/
inductive Same : Except Errno Place → Except Errno Place → Prop
  | refused (errno : Errno) : Same (.error errno) (.error errno)
  | missing (trail : List String) : Same (.ok ⟨trail, none⟩) (.ok ⟨trail, none⟩)
  | found {trail : List String} {entry entry' : Entry} :
    entry.Alike entry' → Same (.ok ⟨trail, some entry⟩) (.ok ⟨trail, some entry'⟩)

/-- Where a walk halts in the old tree, it halts in the new one, unless something new lies ahead. -/
lemma Halt.of_grows {result} (halt : Halt old walk result) (meets : ¬ Meets old new walk) :
    ∃ result', Halt new walk result' ∧ Same result result' := by
  have unlisted : ∀ {links trail name rest entries entries'},
      old.below? trail.reverse = some (.dir entries) → new.below? trail.reverse = some (.dir entries') →
      IsPlain name → entries.lookup name = none → ¬ Meets old new ⟨links, trail, name :: rest⟩ →
        entries'.lookup name = none := by
    intro links trail name rest entries entries' dir dir' plain none meets
    rw [← Entry.below?_cons dir] at none
    cases listed : entries'.lookup name with
    | none => rfl
    | some entry => exact absurd ⟨_, _, _, _, _, _, .refl, dir', plain, listed, none⟩ meets
  cases halt with
  | arrived found =>
    obtain ⟨entry', found', alike⟩ := grows _ _ found
    exact ⟨_, .arrived found', .found alike⟩
  | barred found other =>
    obtain ⟨entry', found', alike⟩ := grows _ _ found
    cases alike with
    | same _ => exact ⟨_, .barred found' other, .refused _⟩
    | dirs _ _ => cases other
  | long dir dot dots long =>
    obtain ⟨entries', dir'⟩ := exists_dir_of_grows grows dir
    exact ⟨_, .long dir' dot dots long, .refused _⟩
  | missing dir plain none =>
    obtain ⟨entries', dir'⟩ := exists_dir_of_grows grows dir
    exact ⟨_, .missing dir' plain (unlisted dir dir' plain none meets), .missing _⟩
  | lost dir plain none =>
    obtain ⟨entries', dir'⟩ := exists_dir_of_grows grows dir
    exact ⟨_, .lost dir' plain (unlisted dir dir' plain none meets), .refused _⟩
  | looped dir plain listed =>
    obtain ⟨entries', dir'⟩ := exists_dir_of_grows grows dir
    obtain ⟨_, listed', ⟨⟩⟩ := exists_lookup_of_grows grows dir dir' listed
    exact ⟨_, .looped dir' plain listed', .refused _⟩

/-- Steps stay. -/
lemma steps_of_grows (steps : Relation.ReflTransGen (Step old) walk walk') :
    Relation.ReflTransGen (Step new) walk walk' := by
  induction steps with
  | refl => exact .refl
  | tail _ step ih => exact .tail ih (step.of_grows grows)

/-- What is new does not lie on a way that was there before. -/
lemma Meets.behind (steps : Relation.ReflTransGen (Step old) walk walk') (meets : Meets old new walk) :
    Meets old new walk' := by
  induction steps using Relation.ReflTransGen.head_induction_on with
  | refl => exact meets
  | head step _ ih =>
    obtain ⟨links, trail, name, rest, entries, entry, steps', dir, plain, listed, none⟩ := meets
    rcases Relation.ReflTransGen.cases_head steps' with rfl | ⟨middle, step', steps'⟩
    · -- The old tree has the entry that this step asks for.
      exfalso
      cases step with
      | stay _ => exact plain.1 rfl
      | up _ => exact plain.2.1 rfl
      | enter dir' _ listed' _ | jump dir' _ listed' _ | turn dir' _ listed' _ =>
        rw [Entry.below?_cons dir', listed'] at none
        cases none
    · cases (step.of_grows grows).next_eq.symm.trans step'.next_eq
      exact ih ⟨links, trail, name, rest, entries, entry, steps', dir, plain, listed, none⟩

/-- A walk that comes upon nothing new ends where it ended before. -/
lemma ends_same {entry} (found : old.below? walk.trail.reverse = some entry) (meets : ¬ Meets old new walk) :
    Same (ends old walk) (ends new walk) := by
  obtain ⟨walk', steps, halt⟩ := exists_halt found
  have steps' := steps_of_grows grows steps
  obtain ⟨result, halt', same⟩ := halt.of_grows grows fun meets' => meets (.of_steps steps' meets')
  rwa [ends_of_steps steps', halt'.ends_eq]

end Growth

/-- The path leads, in the new tree, over a place where there was nothing in the old one. -/
def Touches (new old : FileSystem) (path : String) : Prop := Meets old.root new.root (new.walkTo path)

section Growth

variable {fs fs' : FileSystem} (grows : fs.root.Grows fs'.root) (dir : fs'.workingDir = fs.workingDir)
include grows dir

/-- What was found is still found, and in the same place. -/
lemma locate_grows {path trail entry} (found : fs.locate true path = .ok ⟨trail, some entry⟩) :
    ∃ entry', fs'.locate true path = .ok ⟨trail, some entry'⟩ ∧ entry.Alike entry' := by
  obtain ⟨links, steps, place, ne, null⟩ := exists_steps_of_locate found
  obtain ⟨entry', place', alike⟩ := grows _ _ place
  have same : fs'.walkTo path = fs.walkTo path := by rw [walkTo, walkTo, dir]
  have arrived : Halt fs'.root ⟨links, trail, []⟩ _ := .arrived place'
  refine ⟨entry', ?_, alike⟩
  rw [locate_eq_ends fs' ne null, same, ends_of_steps (steps_of_grows grows steps), arrived.ends_eq]

/-- A path that leads over nothing new leads where it led before. -/
lemma locate_same {path} (untouched : ¬ fs'.Touches fs path) :
    Same (fs.locate true path) (fs'.locate true path) := by
  by_cases ne : path = ""
  · subst ne
    exact .refused _
  by_cases null : Char.ofNat 0 ∈ path.toList
  · have holds : path.toList.contains (Char.ofNat 0) = true := by simpa using null
    rw [locate, locate, if_neg ne, if_neg ne, if_pos holds, if_pos holds]
    exact .refused _
  · have same : fs'.walkTo path = fs.walkTo path := by rw [walkTo, walkTo, dir]
    rw [locate_eq_ends fs ne null, locate_eq_ends fs' ne null, same]
    exact ends_same grows rfl (same ▸ untouched)

end Growth

/-- The same place has the same content. -/
lemma Same.readFile_eq {fs fs' : FileSystem} {path} (same : Same (fs.locate true path) (fs'.locate true path)) :
    fs'.readFile path = fs.readFile path := by
  unfold readFile entryAt
  generalize fs.locate true path = result at same
  generalize fs'.locate true path = result' at same
  cases same with
  | refused _ => rfl
  | missing _ => rfl
  | found alike =>
    cases alike with
    | same _ => rfl
    | dirs _ _ => rfl

/-- The same place is a directory in both trees. -/
lemma Same.isDir_eq {fs fs' : FileSystem} {path} (same : Same (fs.locate true path) (fs'.locate true path)) :
    fs'.isDir path = fs.isDir path := by
  unfold isDir stat entryAt
  generalize fs.locate true path = result at same
  generalize fs'.locate true path = result' at same
  cases same with
  | refused _ => rfl
  | missing _ => rfl
  | found alike =>
    cases alike with
    | same _ => rfl
    | dirs _ _ => rfl

section Below

variable {fs : FileSystem} {root : String} {ns : List String} (all : ∀ name ∈ ns, Path.IsName name)

include all in
/-- What leads over something new still does so with more names. -/
lemma Touches.append {fs' : FileSystem} (touches : fs'.Touches fs (pathBelow root ns)) {more}
    (all' : ∀ name ∈ more, Path.IsName name) :
    fs'.Touches fs (pathBelow root (ns ++ more)) := by
  have all'' : ∀ name ∈ ns ++ more, Path.IsName name := List.forall_mem_append.mpr ⟨all, all'⟩
  unfold Touches at touches ⊢
  rw [walkTo_pathBelow all] at touches
  rw [walkTo_pathBelow all'', ← List.append_assoc]
  by_cases none : Path.cleanComponents root ++ ns = []
  · rw [if_pos none] at touches
    rw [none, List.nil_append]
    exact touches.of_dot.append _
  · rw [if_neg none] at touches
    rw [if_neg (List.append_ne_nil_of_left_ne_nil none _), ← List.append_assoc]
    exact touches.append more

include all in
/-- A new entry is touched by its path. -/
lemma touches_of_listed {fs' : FileSystem} {trail entries name entry}
    (found : fs'.locate true (pathBelow root ns) = .ok ⟨trail, some (.dir entries)⟩) (isName : Path.IsName name)
    (listed : entries.lookup name = some entry) (new : fs.root.below? (name :: trail).reverse = none) :
    fs'.Touches fs (pathBelow root (ns ++ [name])) := by
  obtain ⟨_, _, dir, -⟩ := exists_steps_of_locate found
  obtain ⟨links, steps⟩ := exists_steps_pathBelow all found (List.forall_mem_singleton.mpr isName)
    (List.cons_ne_nil _ _)
  exact ⟨links, trail, name, [], entries, entry, steps, dir,
    ⟨isName.ne_dot, isName.ne_dots, isName.short⟩, listed, new⟩

include all in
/-- Without links below a directory, a path below it leads over something new only to something new. -/
lemma Touches.below?_eq_none {fs' : FileSystem} (grows : fs.root.Grows fs'.root)
    (dir : fs'.workingDir = fs.workingDir) {base entries}
    (found : fs.locate true (pathBelow root []) = .ok ⟨base, some (.dir entries)⟩)
    (unlinked : ∀ names target, fs'.root.below? (base.reverse ++ names) ≠ some (.link target))
    (touches : fs'.Touches fs (pathBelow root ns)) : fs.root.below? (base.reverse ++ ns) = none := by
  obtain ⟨links, steps⟩ := exists_steps_base all found
  have same : fs'.walkTo (pathBelow root ns) = fs.walkTo (pathBelow root ns) := by rw [walkTo, walkTo, dir]
  rw [Touches, same] at touches
  obtain ⟨_, trail, name, rest, _, _, down, _, _, _, none⟩ := touches.behind grows steps
  obtain ⟨front, rfl, eq⟩ := exists_of_steps_down unlinked all down
  rw [List.reverse_cons, eq] at none
  rw [List.append_cons, ← List.append_assoc, ← List.append_assoc, Entry.below?_append, none]
  rfl

end Below

section Put

variable {fs : FileSystem} {trail : List String} {content : Bytes}

/-- A file in a vacant place makes the tree grow. -/
lemma grows_put (vacant : fs.root.Vacant trail.reverse) :
    fs.root.Grows (fs.put trail (.file content)).root := by
  cases trail with
  | nil => exact absurd vacant id
  | cons name parents =>
    rw [List.reverse_cons] at vacant
    exact Entry.grows_updateDir vacant _

/-- A file with a name keeps the tree sound. -/
lemma sound_put (sound : fs.root.Sound) (named : ∀ name ∈ trail, Path.IsName name) :
    (fs.put trail (.file content)).root.Sound := by
  cases trail with
  | nil => exact Entry.sound_of_children rfl
  | cons name parents =>
    refine sound.updateDir ?_ (Entry.sound_of_children rfl)
    intro part mem
    rw [← List.reverse_cons] at mem
    exact named part (List.mem_reverse.mp mem)

lemma workingDir_put : (fs.put trail (.file content)).workingDir = fs.workingDir := by
  cases trail with
  | nil => rfl
  | cons name parents => rfl

/-- Nothing else is new. -/
lemma eq_of_new_put (vacant : fs.root.Vacant trail.reverse) {names entry}
    (found : (fs.put trail (.file content)).root.below? names = some entry) (none : fs.root.below? names = none)
    (other : entry.isDir = false) :
    names = trail.reverse ∧ entry = .file content := by
  cases trail with
  | nil => exact absurd vacant id
  | cons name parents =>
    rw [List.reverse_cons]
    exact Entry.eq_of_new rfl found none other

/-- No link is added. -/
lemma unlinked_put (vacant : fs.root.Vacant trail.reverse) {front}
    (unlinked : ∀ names target, fs.root.below? (front ++ names) ≠ some (.link target)) (names : List String)
    (target : String) :
    (fs.put trail (.file content)).root.below? (front ++ names) ≠ some (.link target) := by
  intro link
  cases old : fs.root.below? (front ++ names) with
  | none => cases (eq_of_new_put vacant link old rfl).2
  | some entry =>
    obtain ⟨entry', found', alike⟩ := @grows_put fs trail content vacant _ _ old
    cases link.symm.trans found'
    cases alike with
    | same _ => exact unlinked names target old

end Put

end FileSystem

end Sift
