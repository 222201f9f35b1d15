import Mathlib.Data.String.Basic
import Mathlib.Logic.Relation
import Sift.Proofs.Path

/-!
# Looking paths up

In a sound tree every directory lists names that files can have, by ascending name (`Entry.Sound`).

Looking a path up is a walk through the tree, one name after the other (`Step`), that halts where it
arrives or cannot go on (`Halt`). Every look-up takes some steps and halts with its result
(`exists_halt`), and this is all that is used of it here. Names below a directory that is found lead to what
the directory holds there (`FileSystem.locate_pathBelow`).
-/

namespace Sift

namespace Refusals

variable {α : Type} {refuses : Refusals} {operation path : String} {outcome : Except FileError α}

/-- Where nothing is refused, attempts are operations. -/
@[simp] lemma attempt_nothing : nothing.attempt operation path outcome = outcome := rfl

/-- What is refused fails for the reason of the refusal. -/
lemma attempt_of_refused {errno} (refused : refuses operation path = some errno) :
    refuses.attempt operation path outcome = .error ⟨operation, path, errno⟩ := by
  rw [attempt, refused]

/-- What is not refused comes to what it comes to. -/
lemma attempt_of_allowed (allowed : refuses operation path = none) :
    refuses.attempt operation path outcome = outcome := by
  rw [attempt, allowed]

/-- An attempt succeeds where nothing is refused and the operation succeeds. -/
lemma attempt_eq_ok_iff {value} : refuses.attempt operation path outcome = .ok value ↔
    refuses operation path = none ∧ outcome = .ok value := by
  cases refused : refuses operation path with
  | none => simp [attempt_of_allowed refused]
  | some errno => simp [attempt_of_refused refused]

/-- What is made of an outcome is made of an attempt that succeeds. -/
lemma attempt_map_eq_ok_iff {β : Type} {make} {value : β} :
    refuses.attempt operation path (outcome.map make) = .ok value ↔
      ∃ found, refuses.attempt operation path outcome = .ok found ∧ make found = value := by
  cases refused : refuses operation path with
  | none => cases outcome <;> simp [attempt_of_allowed refused, Except.map]
  | some errno => simp [attempt_of_refused refused]

/-- What is made of an outcome makes no difference to an attempt that fails. -/
lemma attempt_map_eq_error_iff {β : Type} {make : α → β} {error} :
    refuses.attempt operation path (outcome.map make) = .error error ↔
      refuses.attempt operation path outcome = .error error := by
  cases refused : refuses operation path with
  | none => cases outcome <;> simp [attempt_of_allowed refused, Except.map]
  | some errno => simp [attempt_of_refused refused]

/-- An attempt at what would succeed fails just if it is refused. -/
lemma attempt_ok_eq_error_iff {value : α} {error} :
    refuses.attempt operation path (.ok value) = .error error ↔
      ∃ errno, refuses operation path = some errno ∧ error = ⟨operation, path, errno⟩ := by
  cases refused : refuses operation path with
  | none => simp [attempt_of_allowed refused]
  | some errno => simp [attempt_of_refused refused, eq_comm]

end Refusals

namespace Entry

/-- Every directory of the tree lists names that files can have, by ascending name. -/
def Sound (root : Entry) : Prop :=
  ∀ names entries, root.below? names = some (.dir entries) →
    (entries.map (·.1)).Pairwise (· < ·) ∧ ∀ name ∈ entries.map (·.1), Path.IsName name

/-- Names lead on from where the names before them led. -/
lemma below?_append (entry : Entry) (front back : List String) :
    entry.below? (front ++ back) = (entry.below? front).bind (·.below? back) := by
  induction front generalizing entry with
  | nil => rfl
  | cons name rest ih =>
    simp only [List.cons_append, below?]
    cases entry.children.lookup name with
    | none => rfl
    | some child => exact ih child

/-- What is below a directory is what the directory lists. -/
lemma below?_cons {root : Entry} {trail entries} (dir : root.below? trail.reverse = some (.dir entries))
    (name : String) :
    root.below? (name :: trail).reverse = entries.lookup name := by
  rw [List.reverse_cons, below?_append, dir, Option.bind_some]
  unfold below? children
  cases entries.lookup name <;> rfl

/-- Only a directory has something below it. -/
lemma exists_dir_of_below? {entry found : Entry} {name rest} (below : entry.below? (name :: rest) = some found) :
    ∃ entries, entry = .dir entries := by
  cases entry with
  | dir entries => exact ⟨entries, rfl⟩
  | file _ | link _ | device => cases below

/-- Below what has no entries there is only itself. -/
lemma eq_of_below?_leaf {entry entry' : Entry} (leaf : entry.children = []) {names}
    (found : entry.below? names = some entry') : names = [] ∧ entry = entry' := by
  cases names with
  | nil => exact ⟨rfl, Option.some.inj found⟩
  | cons name rest =>
    rw [below?, leaf] at found
    cases found

/-- Induction over a tree, where all that a directory lists is settled before it. -/
lemma inductionOn {motive : Entry → Prop} (entry : Entry) (file : ∀ content, motive (.file content))
    (link : ∀ target, motive (.link target)) (device : motive .device)
    (dir : ∀ entries, (∀ name child, (name, child) ∈ entries → motive child) → motive (.dir entries)) :
    motive entry :=
  @Entry.rec motive (fun entries => ∀ name child, (name, child) ∈ entries → motive child)
    (fun listed => motive listed.2) file link device dir
    (fun _ _ mem => absurd mem List.not_mem_nil)
    (fun listed _ first others name child mem => by
      rcases List.mem_cons.mp mem with rfl | mem
      · exact first
      · exact others name child mem)
    (fun _ _ holds => holds) entry

/-- An entry is listed just if it is looked up by its name. -/
lemma mem_iff_lookup {entries : List (String × Entry)} (nodup : (entries.map (·.1)).Nodup) {name entry} :
    (name, entry) ∈ entries ↔ entries.lookup name = some entry := by
  induction entries with
  | nil => simp
  | cons first rest ih =>
    obtain ⟨other, old⟩ := first
    obtain ⟨fresh, nodup⟩ := List.nodup_cons.mp nodup
    by_cases same : name = other
    · subst same
      have absent : (name, entry) ∉ rest := fun mem => fresh (List.mem_map.mpr ⟨_, mem, rfl⟩)
      simp [absent, eq_comm]
    · rw [List.lookup_cons, beq_eq_false_iff_ne.mpr same, ← ih nodup]
      simp [same]

/-- What is found has something around it. -/
lemma exists_below?_tail {root entry : Entry} {trail : List String}
    (found : root.below? trail.reverse = some entry) :
    ∃ entry', root.below? trail.tail.reverse = some entry' := by
  cases trail with
  | nil => exact ⟨entry, found⟩
  | cons name rest =>
    rw [List.reverse_cons, below?_append] at found
    obtain ⟨entry', found', _⟩ := Option.bind_eq_some_iff.mp found
    exact ⟨entry', found'⟩

/-- A tree is sound if its top is and what the top lists is. -/
lemma sound_iff {entry : Entry} : entry.Sound ↔
    (entry.children.map (·.1)).Pairwise (· < ·) ∧ (∀ name ∈ entry.children.map (·.1), Path.IsName name) ∧
      ∀ name child, entry.children.lookup name = some child → child.Sound := by
  constructor
  · intro sound
    have top : (entry.children.map (·.1)).Pairwise (· < ·) ∧
        ∀ name ∈ entry.children.map (·.1), Path.IsName name := by
      cases entry with
      | dir entries => exact sound [] entries rfl
      | file _ | link _ | device => exact ⟨.nil, List.forall_mem_nil _⟩
    refine ⟨top.1, top.2, ?_⟩
    intro name child listed names entries found
    refine sound (name :: names) entries ?_
    rw [below?, listed]
    exact found
  · rintro ⟨sorted, named, below⟩ names entries found
    cases names with
    | nil =>
      cases found
      exact ⟨sorted, named⟩
    | cons name rest =>
      rw [below?] at found
      split at found
      case h_1 child listed => exact below name child listed rest entries found
      case h_2 => cases found

/-- What is found in a sound tree is sound. -/
lemma Sound.of_below? {root entry : Entry} (sound : root.Sound) {names} (found : root.below? names = some entry) :
    entry.Sound := by
  intro more entries listed
  refine sound (names ++ more) entries ?_
  rw [below?_append, found, Option.bind_some, listed]

/-- What has no entries is sound. -/
lemma sound_of_children {entry : Entry} (leaf : entry.children = []) : entry.Sound := by
  rw [sound_iff, leaf]
  exact ⟨.nil, List.forall_mem_nil _, nofun⟩

/-- A directory is sound if its names ascend and its entries are sound. -/
lemma sound_dir_iff {entries : List (String × Entry)} : (dir entries).Sound ↔
    (entries.map (·.1)).Pairwise (· < ·) ∧ ∀ listed ∈ entries, Path.IsName listed.1 ∧ listed.2.Sound := by
  rw [sound_iff, children]
  constructor
  · rintro ⟨sorted, named, below⟩
    refine ⟨sorted, fun listed mem => ⟨named _ (List.mem_map_of_mem mem), below listed.1 listed.2 ?_⟩⟩
    exact (mem_iff_lookup (sorted.imp ne_of_lt)).mp mem
  · rintro ⟨sorted, all⟩
    refine ⟨sorted, fun name mem => ?_, fun name child listed => ?_⟩
    · obtain ⟨listed, within, rfl⟩ := List.mem_map.mp mem
      exact (all listed within).1
    · exact (all (name, child) ((mem_iff_lookup (sorted.imp ne_of_lt)).mpr listed)).2

mutual

instance decidableSound : (entry : Entry) → Decidable entry.Sound
  | file _ => .isTrue (sound_of_children rfl)
  | link _ => .isTrue (sound_of_children rfl)
  | device => .isTrue (sound_of_children rfl)
  | dir entries =>
    have := decidableSoundAll entries
    decidable_of_iff _ sound_dir_iff.symm

def decidableSoundAll : (entries : List (String × Entry)) →
    Decidable (∀ listed ∈ entries, Path.IsName listed.1 ∧ listed.2.Sound)
  | [] => .isTrue (List.forall_mem_nil _)
  | (_, child) :: rest =>
    have := decidableSound child
    have := decidableSoundAll rest
    decidable_of_iff _ List.forall_mem_cons.symm

end

/-- No name is listed twice. -/
lemma Sound.nodup {entries} (sound : (dir entries).Sound) :
    (entries.map (·.1)).Nodup := (sound_dir_iff.mp sound).1.imp ne_of_lt

/-- A listed name is one that files can have, and its entry is sound. -/
lemma Sound.listed {entries} (sound : (dir entries).Sound) {name entry} (mem : (name, entry) ∈ entries) :
    Path.IsName name ∧ entry.Sound :=
  (sound_dir_iff.mp sound).2 _ mem

/-- Below a directory, names lead on from what it lists. -/
lemma Sound.below?_of_mem {entries} (sound : (dir entries).Sound) {name entry} (mem : (name, entry) ∈ entries)
    (names : List String) :
    (dir entries).below? (name :: names) = entry.below? names := by
  rw [below?, children, (mem_iff_lookup sound.nodup).mp mem]

/-- The names that lead to something are names that files can have. -/
lemma Sound.isName {root entry : Entry} (sound : root.Sound) {names} (found : root.below? names = some entry) :
    ∀ name ∈ names, Path.IsName name := by
  induction names generalizing root with
  | nil => exact List.forall_mem_nil _
  | cons name rest ih =>
    obtain ⟨-, named, below⟩ := sound_iff.mp sound
    rw [below?] at found
    split at found
    case h_1 child listed =>
      obtain ⟨front, back, eq, -⟩ := List.lookup_eq_some_iff.mp listed
      have mem : name ∈ root.children.map (·.1) := by simp [eq]
      exact List.forall_mem_cons.mpr ⟨named name mem, ih (below name child listed) found⟩
    case h_2 => cases found

end Entry

namespace FileSystem

/-- A walk under way: how many links it may still follow, where it is, and the names that are ahead. -/
structure Walk where
  links : Nat
  trail : List String
  ahead : List String

/-- The name asks for an entry of a directory. -/
def IsPlain (name : String) : Prop := name ≠ "." ∧ name ≠ ".." ∧ name.utf8ByteSize ≤ nameLimit

/-- One step of a walk through a tree. -/
inductive Step (root : Entry) : Walk → Walk → Prop
  | stay {links : Nat} {trail rest : List String} {entries : List (String × Entry)} :
    root.below? trail.reverse = some (.dir entries) →
      Step root ⟨links, trail, "." :: rest⟩ ⟨links, trail, rest⟩
  | up {links : Nat} {trail rest : List String} {entries : List (String × Entry)} :
    root.below? trail.reverse = some (.dir entries) →
      Step root ⟨links, trail, ".." :: rest⟩ ⟨links, trail.tail, rest⟩
  | enter {links : Nat} {trail rest : List String} {entries : List (String × Entry)} {name : String}
      {entry : Entry} :
    root.below? trail.reverse = some (.dir entries) → IsPlain name →
      entries.lookup name = some entry → (∀ target, entry ≠ .link target) →
        Step root ⟨links, trail, name :: rest⟩ ⟨links, name :: trail, rest⟩
  | jump {links : Nat} {trail rest : List String} {entries : List (String × Entry)} {name target : String} :
    root.below? trail.reverse = some (.dir entries) → IsPlain name →
      entries.lookup name = some (.link target) → Path.isAbsolute target = true →
        Step root ⟨links + 1, trail, name :: rest⟩ ⟨links, [], names target ++ rest⟩
  | turn {links : Nat} {trail rest : List String} {entries : List (String × Entry)} {name target : String} :
    root.below? trail.reverse = some (.dir entries) → IsPlain name →
      entries.lookup name = some (.link target) → Path.isAbsolute target = false →
        Step root ⟨links + 1, trail, name :: rest⟩ ⟨links, trail, names target ++ rest⟩

/-- Where a walk halts, and with which result. -/
inductive Halt (root : Entry) : Walk → Except Errno Place → Prop
  | arrived {links : Nat} {trail : List String} {entry : Entry} :
    root.below? trail.reverse = some entry → Halt root ⟨links, trail, []⟩ (.ok ⟨trail, some entry⟩)
  | barred {links : Nat} {trail rest : List String} {entry : Entry} {name : String} :
    root.below? trail.reverse = some entry → entry.isDir = false →
      Halt root ⟨links, trail, name :: rest⟩ (.error .notDirectory)
  | long {links : Nat} {trail rest : List String} {entries : List (String × Entry)} {name : String} :
    root.below? trail.reverse = some (.dir entries) → name ≠ "." → name ≠ ".." →
      nameLimit < name.utf8ByteSize → Halt root ⟨links, trail, name :: rest⟩ (.error .nameTooLong)
  | missing {links : Nat} {trail : List String} {entries : List (String × Entry)} {name : String} :
    root.below? trail.reverse = some (.dir entries) → IsPlain name → entries.lookup name = none →
      Halt root ⟨links, trail, [name]⟩ (.ok ⟨name :: trail, none⟩)
  | lost {links : Nat} {trail rest : List String} {entries : List (String × Entry)} {name next : String} :
    root.below? trail.reverse = some (.dir entries) → IsPlain name → entries.lookup name = none →
      Halt root ⟨links, trail, name :: next :: rest⟩ (.error .noEntry)
  | looped {trail rest : List String} {entries : List (String × Entry)} {name target : String} :
    root.below? trail.reverse = some (.dir entries) → IsPlain name →
      entries.lookup name = some (.link target) →
        Halt root ⟨0, trail, name :: rest⟩ (.error .tooManyLinks)

/-- What looking up gives from a walk on. -/
def ends (root : Entry) (walk : Walk) : Except Errno Place :=
  follow root true walk.links walk.trail ((root.below? walk.trail.reverse).getD root) walk.ahead

section Look

variable {root : Entry} {walk walk' : Walk}

lemma IsPlain.not_long {name} (plain : IsPlain name) : ¬ nameLimit < name.utf8ByteSize :=
  Nat.not_lt.mpr plain.2.2

/-- A step does not change where the walk ends. -/
lemma ends_of_step (step : Step root walk walk') : ends root walk = ends root walk' := by
  cases step with
  | stay dir =>
    rw [ends, ends, dir, Option.getD_some]
    conv => lhs; unfold follow
    simp only [if_true]
  | up dir =>
    rw [ends, ends, dir, Option.getD_some]
    conv => lhs; unfold follow
    exact if_neg (by decide)
  | @enter links trail rest entries name entry dir plain listed real =>
    rw [ends, ends, dir, Option.getD_some, Entry.below?_cons dir, listed, Option.getD_some]
    conv => lhs; unfold follow
    simp only [plain.1, plain.2.1, plain.not_long, listed, if_false]
  | jump dir plain listed absolute =>
    rw [ends, ends, dir, Option.getD_some]
    conv => lhs; unfold follow
    simp only [plain.1, plain.2.1, plain.not_long, listed, if_false, Bool.not_true, Bool.and_false,
      Bool.false_eq_true, absolute, if_true]
    rfl
  | turn dir plain listed relative =>
    rw [ends, ends, dir, Option.getD_some]
    conv => lhs; unfold follow
    simp only [plain.1, plain.2.1, plain.not_long, listed, if_false, Bool.not_true, Bool.and_false,
      Bool.false_eq_true, relative]

/-- A walk that halts ends there. -/
lemma Halt.ends_eq {result} (halt : Halt root walk result) :
    ends root walk = result := by
  cases halt with
  | arrived found =>
    rw [ends, found]
    unfold follow
    rfl
  | @barred links trail rest entry name found other =>
    rw [ends, found, Option.getD_some]
    unfold follow
    cases entry with
    | dir entries => cases other
    | file _ | device | link _ => rfl
  | long dir ne ne' long =>
    rw [ends, dir, Option.getD_some]
    unfold follow
    simp only [ne, ne', long, if_false, if_true]
  | missing dir plain none =>
    rw [ends, dir, Option.getD_some]
    unfold follow
    simp only [plain.1, plain.2.1, plain.not_long, none, if_false, List.isEmpty_nil, if_true]
  | lost dir plain none =>
    rw [ends, dir, Option.getD_some]
    unfold follow
    simp only [plain.1, plain.2.1, plain.not_long, none, if_false, List.isEmpty_cons,
      Bool.false_eq_true]
  | looped dir plain listed =>
    rw [ends, dir, Option.getD_some]
    unfold follow
    simp only [plain.1, plain.2.1, plain.not_long, listed, if_false, Bool.not_true, Bool.and_false,
      Bool.false_eq_true]

/-- A step comes to something that is there. -/
lemma exists_below?_of_step (step : Step root walk walk') :
    ∃ entry, root.below? walk'.trail.reverse = some entry := by
  cases step with
  | stay dir => exact ⟨_, dir⟩
  | up dir => exact Entry.exists_below?_tail dir
  | enter dir _ listed _ => exact ⟨_, (Entry.below?_cons dir _).trans listed⟩
  | jump _ _ _ _ => exact ⟨root, rfl⟩
  | turn dir _ _ _ => exact ⟨_, dir⟩

/-- A walk that is somewhere goes on or halts. -/
lemma step_or_halt {entry} (found : root.below? walk.trail.reverse = some entry) :
    (∃ walk', Step root walk walk') ∨ ∃ result, Halt root walk result := by
  obtain ⟨links, trail, ahead⟩ := walk
  cases ahead with
  | nil => exact .inr ⟨_, .arrived found⟩
  | cons name rest =>
    cases entry with
    | file _ | device | link _ => exact .inr ⟨_, .barred found rfl⟩
    | dir entries =>
      by_cases dot : name = "."
      · subst dot
        exact .inl ⟨_, .stay found⟩
      by_cases dots : name = ".."
      · subst dots
        exact .inl ⟨_, .up found⟩
      by_cases long : nameLimit < name.utf8ByteSize
      · exact .inr ⟨_, .long found dot dots long⟩
      have plain : IsPlain name := ⟨dot, dots, Nat.not_lt.mp long⟩
      cases listed : entries.lookup name with
      | none =>
        cases rest with
        | nil => exact .inr ⟨_, .missing found plain listed⟩
        | cons next rest => exact .inr ⟨_, .lost found plain listed⟩
      | some child =>
        cases child with
        | file _ | device | dir _ => exact .inl ⟨_, .enter found plain listed nofun⟩
        | link target =>
          cases links with
          | zero => exact .inr ⟨_, .looped found plain listed⟩
          | succ links =>
            cases absolute : Path.isAbsolute target with
            | true => exact .inl ⟨_, .jump found plain listed absolute⟩
            | false => exact .inl ⟨_, .turn found plain listed absolute⟩

/-- Looking up takes some steps and halts with its result. -/
lemma exists_halt {entry} (found : root.below? walk.trail.reverse = some entry) :
    ∃ walk', Relation.ReflTransGen (Step root) walk walk' ∧ Halt root walk' (ends root walk) := by
  obtain ⟨links, trail, ahead⟩ := walk
  -- A link costs one of `links` and may bring more names; any other step uses a name up.
  induction links using Nat.strongRecOn generalizing trail ahead entry with
  | ind links fewer =>
    induction ahead generalizing trail entry with
    | nil =>
      have halt : Halt root ⟨links, trail, []⟩ _ := .arrived found
      exact ⟨_, .refl, halt.ends_eq ▸ halt⟩
    | cons name rest shorter =>
      rcases step_or_halt found with ⟨walk', step⟩ | ⟨result, halt⟩
      · obtain ⟨entry', found'⟩ := exists_below?_of_step step
        have eq := ends_of_step step
        suffices ∃ walk'', Relation.ReflTransGen (Step root) walk' walk'' ∧
            Halt root walk'' (ends root walk') by
          obtain ⟨walk'', steps, halt⟩ := this
          exact ⟨walk'', .head step steps, eq ▸ halt⟩
        cases step with
        | stay _ => exact shorter _ found'
        | up _ => exact shorter _ found'
        | enter _ _ _ _ => exact shorter _ found'
        | jump _ _ _ _ => exact fewer _ (Nat.lt_succ_self _) _ _ found'
        | turn _ _ _ _ => exact fewer _ (Nat.lt_succ_self _) _ _ found'
      · exact ⟨_, .refl, halt.ends_eq ▸ halt⟩

/-- Steps do not change where the walk ends. -/
lemma ends_of_steps (steps : Relation.ReflTransGen (Step root) walk walk') :
    ends root walk = ends root walk' := by
  induction steps with
  | refl => rfl
  | tail _ step ih => rw [ih, ends_of_step step]

end Look

/-- The step that a walk takes next, if it takes one. -/
def next (root : Entry) : Walk → Option Walk
  | ⟨_, _, []⟩ => none
  | ⟨links, trail, name :: rest⟩ =>
    if name = "." then some ⟨links, trail, rest⟩
    else if name = ".." then some ⟨links, trail.tail, rest⟩
    else
      match root.below? (name :: trail).reverse with
      | some (.link target) =>
        some ⟨links - 1, if Path.isAbsolute target then [] else trail, names target ++ rest⟩
      | _ => some ⟨links, name :: trail, rest⟩

/-- There is one step only. -/
lemma Step.next_eq {root walk walk'} (step : Step root walk walk') :
    next root walk = some walk' := by
  cases step with
  | stay dir => rw [next, if_pos rfl]
  | up dir => rw [next, if_neg (by decide), if_pos rfl]
  | @enter _ _ _ _ _ entry dir plain listed real =>
    rw [next, if_neg plain.1, if_neg plain.2.1, Entry.below?_cons dir, listed]
    cases entry with
    | link target => exact absurd rfl (real target)
    | file _ | device | dir _ => rfl
  | jump dir plain listed absolute =>
    rw [next, if_neg plain.1, if_neg plain.2.1, Entry.below?_cons dir, listed]
    simp only [absolute, if_true, Nat.add_sub_cancel]
  | turn dir plain listed relative =>
    rw [next, if_neg plain.1, if_neg plain.2.1, Entry.below?_cons dir, listed]
    simp only [relative, Bool.false_eq_true, if_false, Nat.add_sub_cancel]

/-- More names ahead do not change the steps that come first. -/
lemma Step.append {root walk walk'} (step : Step root walk walk') (more : List String) :
    Step root ⟨walk.links, walk.trail, walk.ahead ++ more⟩ ⟨walk'.links, walk'.trail, walk'.ahead ++ more⟩ := by
  cases step with
  | stay dir => exact .stay dir
  | up dir => exact .up dir
  | enter dir plain listed real => exact .enter dir plain listed real
  | jump dir plain listed absolute =>
    rw [List.append_assoc]
    exact .jump dir plain listed absolute
  | turn dir plain listed relative =>
    rw [List.append_assoc]
    exact .turn dir plain listed relative

/-- Steps are taken also if more names follow. -/
lemma steps_append {root walk walk'} (steps : Relation.ReflTransGen (Step root) walk walk') (more : List String) :
    Relation.ReflTransGen (Step root) ⟨walk.links, walk.trail, walk.ahead ++ more⟩
      ⟨walk'.links, walk'.trail, walk'.ahead ++ more⟩ := by
  induction steps with
  | refl => exact .refl
  | tail _ step ih => exact .tail ih (step.append more)

/-- The first step of a walk uses the first name up and leaves those behind it. -/
lemma Step.exists_ahead {root links trail rest more name walk}
    (step : Step root ⟨links, trail, (name :: rest) ++ more⟩ walk) :
    ∃ front, walk.ahead = front ++ more ∧
      Step root ⟨links, trail, name :: rest⟩ ⟨walk.links, walk.trail, front⟩ := by
  cases step with
  | stay dir => exact ⟨rest, rfl, .stay dir⟩
  | up dir => exact ⟨rest, rfl, .up dir⟩
  | enter dir plain listed real => exact ⟨rest, rfl, .enter dir plain listed real⟩
  | jump dir plain listed absolute =>
    exact ⟨_, (List.append_assoc _ _ _).symm, .jump dir plain listed absolute⟩
  | turn dir plain listed relative =>
    exact ⟨_, (List.append_assoc _ _ _).symm, .turn dir plain listed relative⟩

/-- A walk is still among its first names, or has used them up. -/
lemma steps_split {root walk walk' front back} (steps : Relation.ReflTransGen (Step root) walk walk')
    (eq : walk.ahead = front ++ back) :
    (∃ rest, walk'.ahead = rest ++ back ∧ Relation.ReflTransGen (Step root)
        ⟨walk.links, walk.trail, front⟩ ⟨walk'.links, walk'.trail, rest⟩) ∨
      ∃ links trail, Relation.ReflTransGen (Step root) ⟨walk.links, walk.trail, front⟩ ⟨links, trail, []⟩ ∧
        Relation.ReflTransGen (Step root) ⟨links, trail, back⟩ walk' := by
  induction steps using Relation.ReflTransGen.head_induction_on generalizing front with
  | refl => exact .inl ⟨front, eq, .refl⟩
  | @head walk middle step steps ih =>
    obtain ⟨links, trail, ahead⟩ := walk
    obtain rfl : ahead = front ++ back := eq
    cases front with
    | nil => exact .inr ⟨links, trail, .refl, .head step steps⟩
    | cons name rest =>
      obtain ⟨front, eq', first⟩ := step.exists_ahead
      rcases ih eq' with ⟨rest', eq'', steps'⟩ | ⟨links', trail', steps', others⟩
      · exact .inl ⟨rest', eq'', .head first steps'⟩
      · exact .inr ⟨links', trail', .head first steps', others⟩

lemma Step.of_dot {root walk walk'} (step : Step root walk walk') (eq : walk.ahead = ["."]) :
    walk' = ⟨walk.links, walk.trail, []⟩ := by
  cases step with
  | stay _ => rw [(List.cons.inj eq).2]
  | up _ => exact absurd (List.cons.inj eq).1 (by decide)
  | enter _ plain _ _ => exact absurd (List.cons.inj eq).1 plain.1
  | jump _ plain _ _ => exact absurd (List.cons.inj eq).1 plain.1
  | turn _ plain _ _ => exact absurd (List.cons.inj eq).1 plain.1

/-- A dot at the end asks for a directory and leads nowhere else. -/
lemma steps_dot {root links trail walk} (steps : Relation.ReflTransGen (Step root) ⟨links, trail, ["."]⟩ walk) :
    walk = ⟨links, trail, ["."]⟩ ∨ walk = ⟨links, trail, []⟩ := by
  rcases Relation.ReflTransGen.cases_head steps with rfl | ⟨middle, step, steps⟩
  · exact .inl rfl
  · obtain rfl := step.of_dot rfl
    rcases Relation.ReflTransGen.cases_head steps with rfl | ⟨_, step, _⟩
    · exact .inr rfl
    · cases step

/-- Steps through names are steps through their front and through the rest. -/
lemma exists_steps_between {root links links' trail trail' front back}
    (steps : Relation.ReflTransGen (Step root) ⟨links, trail, front ++ back⟩ ⟨links', trail', []⟩) :
    ∃ links'' trail'', Relation.ReflTransGen (Step root) ⟨links, trail, front⟩ ⟨links'', trail'', []⟩ ∧
      Relation.ReflTransGen (Step root) ⟨links'', trail'', back⟩ ⟨links', trail', []⟩ := by
  rcases steps_split steps rfl with ⟨rest, eq, steps'⟩ | between
  · obtain ⟨rfl, rfl⟩ := List.append_eq_nil_iff.mp eq.symm
    exact ⟨links', trail', steps', .refl⟩
  · exact between

/-- A walk comes to the same place without the dots among its names. -/
lemma steps_without_dots {root links links' trail trail' ns}
    (steps : Relation.ReflTransGen (Step root) ⟨links, trail, ns⟩ ⟨links', trail', []⟩) :
    Relation.ReflTransGen (Step root) ⟨links, trail, ns.filter (· ≠ ".")⟩ ⟨links', trail', []⟩ := by
  induction ns generalizing links trail with
  | nil => exact steps
  | cons name rest ih =>
    obtain ⟨links'', trail'', first, others⟩ := @exists_steps_between _ _ _ _ _ [name] rest steps
    by_cases dot : name = "."
    · subst dot
      rcases steps_dot first with eq | eq
      · cases eq
      · cases eq
        rw [List.filter_cons_of_neg (by decide)]
        exact ih others
    · rw [List.filter_cons_of_pos (by simpa using dot)]
      exact (steps_append first _).trans (ih others)

/-- The names end with one that is no dot, and the look-up with a link. -/
def EndsInLink (ahead : List String) (result : Except Errno Place) : Prop :=
  ∃ last trail target, ahead.getLast? = some last ∧ last ≠ "." ∧ result = .ok ⟨trail, some (.link target)⟩

/-- A name in front does not change the last one. -/
lemma EndsInLink.cons {name rest result} (link : EndsInLink rest result) : EndsInLink (name :: rest) result := by
  obtain ⟨last, trail, target, eq, plain, found⟩ := link
  exact ⟨last, trail, target, by rw [List.getLast?_cons, eq, Option.getD_some], plain, found⟩

/-- A last link is a last link of the rest. -/
lemma EndsInLink.of_append {front rest result} (ne : rest ≠ []) (link : EndsInLink (front ++ rest) result) :
    EndsInLink rest result := by
  obtain ⟨last, trail, target, eq, others⟩ := link
  rw [List.getLast?_append_of_ne_nil _ ne] at eq
  exact ⟨last, trail, target, eq, others⟩

/-- Whether a link in the last place is followed matters only if there is one. -/
lemma follow_false_eq_or {root current links trail ahead} :
    follow root false links trail current ahead = follow root true links trail current ahead ∨
      EndsInLink ahead (follow root false links trail current ahead) := by
  fun_induction follow root false links trail current ahead with
  | case1 => exact .inl (by rw [follow])
  | case2 links trail rest entries ih =>
    refine ih.imp (fun eq => ?_) EndsInLink.cons
    rw [eq, follow, if_pos rfl]
  | case3 links trail rest entries dot ih =>
    refine ih.imp (fun eq => ?_) EndsInLink.cons
    rw [eq, follow, if_neg dot, if_pos rfl]
  | case4 links trail name rest entries dot dots long =>
    left
    rw [follow, if_neg dot, if_neg dots, if_pos long]
  | case5 links trail name rest entries dot dots short listed last =>
    left
    simp only [follow, if_neg dot, if_neg dots, if_neg short, listed, if_pos last]
  | case6 links trail name rest entries dot dots short listed last =>
    left
    simp only [follow, if_neg dot, if_neg dots, if_neg short, listed, if_neg last]
  | case7 links trail name rest entries dot dots short target listed last =>
    rw [Bool.and_eq_true, List.isEmpty_iff] at last
    exact .inr ⟨name, name :: trail, target, by rw [last.1, List.getLast?_singleton], dot, rfl⟩
  | case8 trail name rest entries dot dots short target listed last =>
    left
    simp only [follow, if_neg dot, if_neg dots, if_neg short, listed, Bool.not_true, Bool.and_false,
      Bool.false_eq_true, if_false]
  | case9 trail name rest entries dot dots short target listed last links rooted ih =>
    refine ih.imp (fun eq => ?_) fun link => (link.of_append (by simpa using last)).cons
    simp only [eq, follow, if_neg dot, if_neg dots, if_neg short, listed, Bool.not_true, Bool.and_false,
      Bool.false_eq_true, if_false, if_pos rooted]
  | case10 trail name rest entries dot dots short target listed last links rooted ih =>
    refine ih.imp (fun eq => ?_) fun link => (link.of_append (by simpa using last)).cons
    simp only [eq, follow, if_neg dot, if_neg dots, if_neg short, listed, Bool.not_true, Bool.and_false,
      Bool.false_eq_true, if_false, if_neg rooted]
  | case11 links trail name rest entries dot dots short entry real listed ih =>
    refine ih.imp (fun eq => ?_) EndsInLink.cons
    rw [eq]
    conv => rhs; unfold follow
    cases entry with
    | link target => exact absurd rfl (real target)
    | file _ | dir _ | device => simp only [if_neg dot, if_neg dots, if_neg short, listed]
  | case12 links trail current name rest other =>
    left
    rw [follow]
    exact other

/-- The walk along a path. -/
def walkTo (fs : FileSystem) (path : String) : Walk :=
  ⟨linkLimit, [], names (if Path.isAbsolute path then "" else fs.workingDir) ++ names path⟩

/-- A look-up ends where its walk does. -/
lemma locate_eq_ends (fs : FileSystem) {path} (ne : path ≠ "") (null : Char.ofNat 0 ∉ path.toList) :
    fs.locate true path = ends fs.root (fs.walkTo path) := by
  rw [locate, if_neg ne, if_neg (by simpa using null)]
  rfl

/-- A last link that is not followed matters only where there is one. -/
lemma locate_false_eq_or (fs : FileSystem) (path : String) : fs.locate false path = fs.locate true path ∨
    EndsInLink (fs.walkTo path).ahead (fs.locate false path) := by
  unfold locate
  split
  · exact .inl rfl
  · split
    · exact .inl rfl
    · exact follow_false_eq_or

/-- What is found without following a last link, and is no link, is found by following, too. -/
lemma stat_of_lstat {fs : FileSystem} {path entry} (found : fs.lstat path = .ok entry)
    (real : ∀ target, entry ≠ .link target) : fs.stat path = .ok entry := by
  rw [lstat, entryAt] at found
  rcases fs.locate_false_eq_or path with same | ⟨_, _, target, _, _, link⟩
  · rw [same] at found
    rw [stat, entryAt]
    split at found
    · cases found
    · cases found
    · exact found
  · rw [link] at found
    exact absurd (Except.ok.inj found).symm (real target)

/-- A path's entry is the one at the place that is found. -/
lemma stat_eq_ok_iff {fs : FileSystem} {path entry} :
    fs.stat path = .ok entry ↔ ∃ trail, fs.locate true path = .ok ⟨trail, some entry⟩ := by
  unfold stat entryAt
  cases fs.locate true path with
  | error errno => simp
  | ok place =>
    obtain ⟨trail, entry?⟩ := place
    cases entry? <;> simp

/-- What is found when links are followed is there, or a link to it is. -/
lemma exists_lstat_of_stat {fs : FileSystem} {path entry} (found : fs.stat path = .ok entry) :
    ∃ entry, fs.lstat path = .ok entry := by
  obtain ⟨trail, found⟩ := stat_eq_ok_iff.mp found
  rcases fs.locate_false_eq_or path with same | ⟨_, _, target, _, _, link⟩
  · exact ⟨entry, by rw [lstat, entryAt, same, found]⟩
  · exact ⟨.link target, by rw [lstat, entryAt, link]⟩

/-- What is found was walked to, and is in the tree. -/
lemma exists_steps_of_locate {fs : FileSystem} {path trail entry}
    (found : fs.locate true path = .ok ⟨trail, some entry⟩) :
    ∃ links, Relation.ReflTransGen (Step fs.root) (fs.walkTo path) ⟨links, trail, []⟩ ∧
      fs.root.below? trail.reverse = some entry ∧ path ≠ "" ∧ Char.ofNat 0 ∉ path.toList := by
  have ne : path ≠ "" := by
    rintro rfl
    cases found
  have null : Char.ofNat 0 ∉ path.toList := by
    intro mem
    rw [locate, if_neg ne, if_pos (by simpa using mem)] at found
    cases found
  rw [locate_eq_ends fs ne null] at found
  obtain ⟨walk, steps, halt⟩ := @exists_halt fs.root (fs.walkTo path) fs.root rfl
  rw [found] at halt
  cases halt with
  | arrived place => exact ⟨_, steps, place, ne, null⟩

/-- A directory is read at the place that is found. -/
lemma readDir_eq_ok_iff {fs : FileSystem} {path entries} :
    fs.readDir path = .ok entries ↔ ∃ trail, fs.locate true path = .ok ⟨trail, some (.dir entries)⟩ := by
  unfold readDir entryAt
  cases fs.locate true path with
  | error errno => simp
  | ok place =>
    obtain ⟨trail, entry?⟩ := place
    cases entry? with
    | none => simp
    | some entry => cases entry <;> simp

/-- The path of names below a directory. -/
def pathBelow (root : String) (names : List String) : String :=
  Path.join [root, Path.ofComponents false names]

section Below

variable {fs : FileSystem} {root : String} {ns : List String} (all : ∀ name ∈ ns, Path.IsName name)

/-- The names that lead to where paths below a directory begin. -/
def lead (fs : FileSystem) (root : String) : List String :=
  names (if Path.isAbsolute root then "" else fs.workingDir)

include all in
lemma isPart_of_below : ∀ part ∈ Path.cleanComponents root ++ ns, Path.IsPart part :=
  List.forall_mem_append.mpr
    ⟨fun _ => Path.isPart_of_mem_cleanComponents, fun name mem => (all name mem).isPart⟩

lemma pathBelow_nil (root : String) : pathBelow root [] = Path.clean root := by
  rw [pathBelow, Path.join_ofComponents root (List.forall_mem_nil _), List.append_nil, Path.clean]

include all in
/-- Names below a root are added to its clean components. -/
lemma cleanComponents_pathBelow :
    Path.cleanComponents (pathBelow root ns) = Path.cleanComponents root ++ ns := by
  rw [pathBelow, Path.join_ofComponents root all, Path.cleanComponents_ofComponents root all]

include all in
/-- Different names lead to different paths. -/
lemma pathBelow_inj {ns'} (all' : ∀ name ∈ ns', Path.IsName name) (eq : pathBelow root ns = pathBelow root ns') :
    ns = ns' := by
  have same := congrArg Path.cleanComponents eq
  rw [cleanComponents_pathBelow all, cleanComponents_pathBelow all'] at same
  exact List.append_cancel_left same

include all in
/-- A path below a root goes on with a name. -/
lemma join_pathBelow {name} (isName : Path.IsName name) :
    Path.join [pathBelow root ns, name] = pathBelow root (ns ++ [name]) := by
  have rooted : Path.isAbsolute (pathBelow root ns) = Path.isAbsolute root := by
    rw [pathBelow, Path.join_ofComponents root all, Path.isAbsolute_ofComponents _ (isPart_of_below all)]
  conv => lhs; rw [← Path.ofComponents_singleton isName.isPart]
  rw [Path.join_ofComponents _ (List.forall_mem_singleton.mpr isName), rooted, cleanComponents_pathBelow all,
    pathBelow, Path.join_ofComponents root (Path.isName_concat all isName), List.append_assoc]

include all in
/-- The walk to a path below a root. -/
lemma walkTo_pathBelow : fs.walkTo (pathBelow root ns) =
    ⟨linkLimit, [], fs.lead root ++
      if Path.cleanComponents root ++ ns = [] then ["."] else Path.cleanComponents root ++ ns⟩ := by
  rw [walkTo, pathBelow, Path.join_ofComponents root all, Path.isAbsolute_ofComponents _ (isPart_of_below all),
    names_ofComponents _ (isPart_of_below all)]
  rfl

include all in
/-- The walk to what is below a directory comes to the directory and then has the other names ahead. -/
lemma exists_steps_pathBelow {trail entries more}
    (found : fs.locate true (pathBelow root ns) = .ok ⟨trail, some (.dir entries)⟩)
    (all' : ∀ name ∈ more, Path.IsName name) (some : more ≠ []) :
    ∃ links, Relation.ReflTransGen (Step fs.root) (fs.walkTo (pathBelow root (ns ++ more)))
      ⟨links, trail, more⟩ := by
  have all'' : ∀ name ∈ ns ++ more, Path.IsName name := List.forall_mem_append.mpr ⟨all, all'⟩
  have ne : Path.cleanComponents root ++ (ns ++ more) ≠ [] := by simp [some]
  obtain ⟨links, steps, -⟩ := exists_steps_of_locate found
  rw [walkTo_pathBelow all] at steps
  rw [walkTo_pathBelow all'', if_neg ne]
  by_cases none : Path.cleanComponents root ++ ns = []
  · rw [if_pos none] at steps
    rw [← List.append_assoc (Path.cleanComponents root), none, List.nil_append]
    -- The dot is used up last, so that the walk without it comes to the directory, too.
    rcases steps_split steps rfl with ⟨rest, eq, _⟩ | ⟨links', trail', steps', dot⟩
    · cases rest <;> cases eq
    · rcases steps_dot dot with eq | eq
      · cases eq
      · cases eq
        exact ⟨links, steps_append steps' more⟩
  · rw [if_neg none] at steps
    rw [← List.append_assoc (Path.cleanComponents root), ← List.append_assoc]
    exact ⟨links, steps_append steps more⟩

/-- Without links, a walk goes down name by name. -/
lemma exists_of_steps_down {top links base walk}
    (unlinked : ∀ names target, top.below? (base.reverse ++ names) ≠ some (.link target))
    (all : ∀ name ∈ ns, Path.IsName name) (steps : Relation.ReflTransGen (Step top) ⟨links, base, ns⟩ walk) :
    ∃ front, ns = front ++ walk.ahead ∧ walk.trail.reverse = base.reverse ++ front := by
  induction steps with
  | refl => exact ⟨[], rfl, (List.append_nil _).symm⟩
  | tail _ step ih =>
    obtain ⟨front, rfl, eq⟩ := ih
    cases step with
    | stay _ => exact absurd rfl (all "." (by simp)).ne_dot
    | up _ => exact absurd rfl (all ".." (by simp)).ne_dots
    | @enter _ _ rest _ name =>
      refine ⟨front ++ [name], List.append_cons .., ?_⟩
      rw [List.reverse_cons, eq, List.append_assoc]
    | @jump _ _ _ _ name target dir _ listed _ | @turn _ _ _ _ name target dir _ listed _ =>
      refine absurd ?_ (unlinked (front ++ [name]) target)
      rw [← List.append_assoc, ← eq, ← List.reverse_cons, Entry.below?_cons dir, listed]

include all in
/-- The walk to a path below a directory passes through it. -/
lemma exists_steps_base {base entries}
    (found : fs.locate true (pathBelow root []) = .ok ⟨base, some (.dir entries)⟩) :
    ∃ links, Relation.ReflTransGen (Step fs.root) (fs.walkTo (pathBelow root ns)) ⟨links, base, ns⟩ := by
  by_cases none : ns = []
  · subst none
    obtain ⟨links, steps, -⟩ := exists_steps_of_locate found
    exact ⟨links, steps⟩
  · exact exists_steps_pathBelow (List.forall_mem_nil _) found all none

include all in
/-- Without links below a directory, the names of a path below it say where the path leads. -/
lemma trail_eq_of_unlinked {base trail entries entry}
    (found : fs.locate true (pathBelow root []) = .ok ⟨base, some (.dir entries)⟩)
    (unlinked : ∀ names target, fs.root.below? (base.reverse ++ names) ≠ some (.link target))
    (found' : fs.locate true (pathBelow root ns) = .ok ⟨trail, some entry⟩) :
    trail.reverse = base.reverse ++ ns := by
  obtain ⟨links, steps⟩ := exists_steps_base all found
  obtain ⟨links', steps', -⟩ := exists_steps_of_locate found'
  have unique : Relator.RightUnique (Step fs.root) := fun _ _ _ step step' =>
    Option.some.inj (step.next_eq.symm.trans step'.next_eq)
  rcases Relation.ReflTransGen.total_of_right_unique unique steps steps' with down | up
  · obtain ⟨front, eq, eq'⟩ := exists_of_steps_down unlinked all down
    rw [List.append_nil] at eq
    rw [eq, eq']
  · rcases Relation.ReflTransGen.cases_head up with eq | ⟨_, step, _⟩
    · cases eq
      rw [List.append_nil]
    · cases step

/-- A walk goes down to what the tree holds. -/
lemma steps_down {top entry links base} (all : ∀ name ∈ ns, Path.IsName name)
    (place : top.below? (base.reverse ++ ns) = some entry) (real : ∀ target, entry ≠ .link target) :
    Relation.ReflTransGen (Step top) ⟨links, base, ns⟩ ⟨links, ns.reverse ++ base, []⟩ := by
  induction ns generalizing base with
  | nil => exact .refl
  | cons name rest ih =>
    obtain ⟨isName, all⟩ := List.forall_mem_cons.mp all
    have place' := place
    rw [Entry.below?_append] at place'
    obtain ⟨parent, found, below⟩ := Option.bind_eq_some_iff.mp place'
    obtain ⟨entries, rfl⟩ := Entry.exists_dir_of_below? below
    rw [Entry.below?] at below
    split at below
    case h_2 => cases below
    case h_1 child listed =>
      have child_real : ∀ target, child ≠ .link target := by
        rintro target rfl
        cases rest with
        | nil => exact real target (Option.some.inj below).symm
        | cons _ _ => cases below
      have step : Step top ⟨links, base, name :: rest⟩ ⟨links, name :: base, rest⟩ :=
        .enter found ⟨isName.ne_dot, isName.ne_dots, isName.short⟩ listed child_real
      have steps := @ih (name :: base) all (by rwa [List.reverse_cons, List.append_assoc])
      rw [List.reverse_cons, List.append_assoc]
      exact .head step steps

include all in
/-- A path below a directory leads to what the directory holds there. -/
lemma locate_pathBelow {base entries entry}
    (found : fs.locate true (pathBelow root []) = .ok ⟨base, some (.dir entries)⟩)
    (place : (Entry.dir entries).below? ns = some entry) (real : ∀ target, entry ≠ .link target) :
    fs.locate true (pathBelow root ns) = .ok ⟨ns.reverse ++ base, some entry⟩ := by
  obtain ⟨links, steps⟩ := exists_steps_base all found
  obtain ⟨_, _, dir, _, null⟩ := exists_steps_of_locate found
  have place' : fs.root.below? (base.reverse ++ ns) = some entry := by
    rw [Entry.below?_append, dir, Option.bind_some, place]
  have arrived : Halt fs.root ⟨links, ns.reverse ++ base, []⟩ _ := .arrived (by simpa using place')
  rw [locate_eq_ends, ends_of_steps steps, ends_of_steps (steps_down all place' real), arrived.ends_eq]
  · rw [pathBelow, Path.join_ofComponents root all]
    exact Path.ofComponents_ne_empty _ _
  · rw [pathBelow, Path.join_ofComponents root (List.forall_mem_nil _),
      Path.mem_ofComponents _ (by decide) (by decide), List.append_nil] at null
    rw [pathBelow, Path.join_ofComponents root all, Path.mem_ofComponents _ (by decide) (by decide)]
    rintro ⟨part, mem, mem'⟩
    rcases List.mem_append.mp mem with mem | mem
    · exact null ⟨part, mem, mem'⟩
    · exact (all part mem).null mem'

include all in
/-- A path from the root leads to what the tree holds there. -/
lemma locate_of_below? {dirs entry} (absolute : Path.isAbsolute root = true)
    (clean : Path.cleanComponents root = dirs) (ne : dirs ≠ []) (named : ∀ name ∈ dirs, Path.IsName name)
    (place : fs.root.below? (dirs ++ ns) = some entry) (real : ∀ target, entry ≠ .link target) :
    fs.locate true (pathBelow root ns) = .ok ⟨(dirs ++ ns).reverse, some entry⟩ := by
  subst clean
  have names : ∀ name ∈ Path.cleanComponents root ++ ns, Path.IsName name :=
    List.forall_mem_append.mpr ⟨named, all⟩
  have path : pathBelow root ns = Path.ofComponents true (Path.cleanComponents root ++ ns) := by
    rw [pathBelow, Path.join_ofComponents root all, absolute]
  have walk : fs.walkTo (pathBelow root ns) = ⟨linkLimit, [], Path.cleanComponents root ++ ns⟩ := by
    have blank : FileSystem.names "" = [] := by decide
    rw [walkTo_pathBelow all, if_neg (List.append_ne_nil_of_left_ne_nil ne _), lead, if_pos absolute, blank,
      List.nil_append]
  have steps := @steps_down (Path.cleanComponents root ++ ns) fs.root entry linkLimit [] names place real
  have arrived : Halt fs.root ⟨linkLimit, (Path.cleanComponents root ++ ns).reverse ++ [], []⟩ _ :=
    .arrived (by rwa [List.append_nil, List.reverse_reverse])
  rw [locate_eq_ends, walk, ends_of_steps steps, arrived.ends_eq, List.append_nil]
  · rw [path, Path.ofComponents_true]
    simp
  · rw [path, Path.mem_ofComponents true (by decide) (by decide)]
    rintro ⟨name, mem, null⟩
    exact (names name mem).null null

/-- Apart from dots, the names of a path are its components. -/
lemma filter_names (path : String) : (names path).filter (· ≠ ".") = Path.components path := by
  have parts : ((Text.splitAt '/' path).filter (· ≠ "")).filter (· ≠ ".") = Path.components path := by
    rw [List.filter_filter, Path.components]
    exact List.filter_congr fun part _ => Bool.and_comm _ _
  rw [names]
  split
  · rw [List.filter_append, parts]
    exact List.append_nil _
  · exact parts

/-- A path leads to the same directory in its shortest spelling, if a walk may resolve its double dots
beforehand. -/
lemma locate_clean {path trail entries} (resolves : ∀ {links links' trail'},
      Relation.ReflTransGen (Step fs.root) ⟨linkLimit, [], fs.lead path⟩ ⟨links, trail', []⟩ →
      Relation.ReflTransGen (Step fs.root) ⟨links, trail', Path.components path⟩ ⟨links', trail, []⟩ →
      Relation.ReflTransGen (Step fs.root) ⟨links, trail', Path.cleanComponents path⟩ ⟨links', trail, []⟩)
    (found : fs.locate true path = .ok ⟨trail, some (.dir entries)⟩) :
    fs.locate true (Path.clean path) = .ok ⟨trail, some (.dir entries)⟩ := by
  obtain ⟨links, steps, place, -, null⟩ := exists_steps_of_locate found
  obtain ⟨links', trail', first, others⟩ := exists_steps_between steps
  have plain := steps_without_dots others
  rw [filter_names] at plain
  have clean := resolves first plain
  have walk := @walkTo_pathBelow fs path [] (List.forall_mem_nil _)
  rw [pathBelow_nil, List.append_nil] at walk
  have steps' : Relation.ReflTransGen (Step fs.root) (fs.walkTo (Path.clean path)) ⟨links, trail, []⟩ := by
    rw [walk]
    refine (steps_append first _).trans ?_
    split
    case isTrue none =>
      rw [none] at clean
      rcases Relation.ReflTransGen.cases_head clean with eq | ⟨_, step, _⟩
      · cases eq
        exact .single (.stay place)
      · cases step
    case isFalse => exact clean
  have arrived : Halt fs.root ⟨links, trail, []⟩ _ := .arrived place
  rw [locate_eq_ends, ends_of_steps steps', arrived.ends_eq]
  · exact Path.ofComponents_ne_empty _ _
  · rw [Path.clean, Path.mem_ofComponents _ (by decide) (by decide)]
    rintro ⟨part, mem, within⟩
    have without : ∀ part ∈ Path.components path, Char.ofNat 0 ∉ part.toList := fun part mem within =>
      null (Text.mem_of_mem_splitAt (List.mem_filter.mp mem).1 within).1
    exact Path.forall_mem_resolveDots (P := fun part => Char.ofNat 0 ∉ part.toList) (by decide)
      (List.forall_mem_nil _) without part mem within

/-- Without double dots, a path leads to the same directory in its shortest spelling. -/
lemma stat_clean {path entries} (dots : ".." ∉ Path.components path) (found : fs.stat path = .ok (.dir entries)) :
    fs.stat (Path.clean path) = .ok (.dir entries) := by
  obtain ⟨trail, found⟩ := stat_eq_ok_iff.mp found
  have clean : Path.cleanComponents path = Path.components path := Path.resolveDots_of_not_mem _ _ dots
  refine stat_eq_ok_iff.mpr ⟨trail, locate_clean (fun _ steps => ?_) found⟩
  rwa [clean]

/-- With a slash at its end a path asks for a directory, which it may have done before. -/
lemma exists_names_slash (path : String) :
    ∃ parts, names (path ++ "/") = parts ++ ["."] ∧ (names path = parts ∨ names path = parts ++ ["."]) := by
  have ends : Text.endsWith (path ++ "/") "/" = true := by
    rw [Text.endsWith, String.toList_append, List.reverse_append]
    exact List.isPrefixOf_iff_prefix.mpr (List.prefix_append _ _)
  have parts : (Text.splitAt '/' (path ++ "/")).filter (· ≠ "") = (Text.splitAt '/' path).filter (· ≠ "") := by
    rw [← @String.append_empty (path ++ "/"), Text.splitAt_append, List.filter_append]
    exact List.append_nil _
  refine ⟨(Text.splitAt '/' path).filter (· ≠ ""), by rw [names, if_pos ends, parts], ?_⟩
  rw [names]
  split
  · exact .inr rfl
  · exact .inl rfl

/-- A slash at the end does not make a path absolute. -/
lemma isAbsolute_slash {path} (ne : path ≠ "") :
    Path.isAbsolute (path ++ "/") = Path.isAbsolute path := by
  have chars : path.toList ≠ [] := fun nil => ne (String.toList_inj.mp nil)
  rw [Path.isAbsolute, Path.isAbsolute, String.toList_append, List.head?_append_of_ne_nil _ chars]

/-- A link to a directory is followed if the path ends with a slash. -/
lemma lstat_slash {fs : FileSystem} {path entries} (found : fs.stat path = .ok (.dir entries)) :
    fs.lstat (path ++ "/") = .ok (.dir entries) := by
  obtain ⟨trail, found⟩ := stat_eq_ok_iff.mp found
  obtain ⟨links, steps, place, ne, null⟩ := exists_steps_of_locate found
  obtain ⟨parts, asks, names⟩ := exists_names_slash path
  have slash : fs.walkTo (path ++ "/") = ⟨linkLimit, [], fs.lead path ++ parts ++ ["."]⟩ := by
    rw [walkTo, isAbsolute_slash ne, asks, ← List.append_assoc]
    rfl
  have steps' : Relation.ReflTransGen (Step fs.root) (fs.walkTo (path ++ "/")) ⟨links, trail, []⟩ := by
    rw [walkTo] at steps
    rw [slash]
    rcases names with names | names
    · rw [names] at steps
      exact .tail (steps_append steps ["."]) (.stay place)
    · rwa [names, ← List.append_assoc] at steps
  have arrived : Halt fs.root ⟨links, trail, []⟩ _ := .arrived place
  have led : fs.locate true (path ++ "/") = .ok ⟨trail, some (.dir entries)⟩ := by
    rw [locate_eq_ends fs (by simp) (by simpa using null), ends_of_steps steps', arrived.ends_eq]
  rcases fs.locate_false_eq_or (path ++ "/") with same | ⟨last, _, _, eq, plain, _⟩
  · rw [lstat, entryAt, same, led]
  · rw [slash, List.getLast?_concat] at eq
    exact absurd (Option.some.inj eq).symm plain

end Below

end FileSystem

end Sift
