import Sift.Proofs.FileSystem

/-!
# Trees without symbolic links

Where a tree holds no link, a path says by its spelling where it leads: a link in the last place need
not be asked about (`FileSystem.locate_false_of_unlinked`), and the shortest spelling of a path leads to
the same directory, double dots or not (`FileSystem.locate_clean_of_unlinked`).
-/

namespace Sift

/-- No symbolic link is at or below the entry. -/
def Entry.Unlinked (root : Entry) : Prop :=
  ∀ names target, root.below? names ≠ some (.link target)

namespace FileSystem

variable {root : Entry}

/-- What following names finds is at the trail that comes with it. -/
lemma below?_of_follow {followLast links trail ahead trail' current entry}
    (here : root.below? trail.reverse = some current)
    (found : follow root followLast links trail current ahead = .ok ⟨trail', some entry⟩) :
    root.below? trail'.reverse = some entry := by
  fun_induction follow root followLast links trail current ahead with
  | case1 =>
    cases found
    exact here
  | case2 _ _ _ _ ih => exact ih here found
  | case3 _ trail _ _ _ ih =>
    obtain ⟨parent, above⟩ := Entry.exists_below?_tail here
    exact ih (by rw [above, Option.getD_some]) found
  | case4 | case5 | case6 | case8 | case12 => cases found
  | case7 _ trail name _ _ _ _ _ _ listed =>
    cases found
    rw [Entry.below?_cons here, listed]
  | case9 _ _ _ _ _ _ _ _ _ _ _ _ ih => exact ih rfl found
  | case10 _ _ _ _ _ _ _ _ _ _ _ _ ih => exact ih here found
  | case11 _ _ _ _ _ _ _ _ _ _ listed ih => exact ih (by rw [Entry.below?_cons here, listed]) found

/-- Without links it does not matter whether a link in the last place is followed. -/
lemma locate_false_of_unlinked {fs : FileSystem} (unlinked : fs.root.Unlinked) (path : String) :
    fs.locate false path = fs.locate true path := by
  rcases fs.locate_false_eq_or path with same | ⟨_, trail, target, _, _, link⟩
  · exact same
  · refine absurd ?_ (unlinked trail.reverse target)
    unfold locate at link
    split at link
    · cases link
    · split at link
      · cases link
      · exact below?_of_follow rfl link

lemma Step.of_dots {walk walk' rest} (step : Step root walk walk') (eq : walk.ahead = ".." :: rest) :
    walk' = ⟨walk.links, walk.trail.tail, rest⟩ := by
  cases step with
  | stay _ => exact absurd (List.cons.inj eq).1 (by decide)
  | up _ => rw [(List.cons.inj eq).2]
  | enter _ plain _ _ | jump _ plain _ _ | turn _ plain _ _ => exact absurd (List.cons.inj eq).1 plain.2.1

/-- Without links, a name and the double dots behind it lead nowhere else. -/
lemma steps_up_down (unlinked : root.Unlinked) {links trail rest name walk} (ne_dot : name ≠ ".")
    (ne_dots : name ≠ "..") (arrived : walk.ahead = [])
    (steps : Relation.ReflTransGen (Step root) ⟨links, trail, name :: ".." :: rest⟩ walk) :
    Relation.ReflTransGen (Step root) ⟨links, trail, rest⟩ walk := by
  rcases Relation.ReflTransGen.cases_head steps with rfl | ⟨_, step, steps⟩
  · cases arrived
  cases step with
  | stay _ => exact absurd rfl ne_dot
  | up _ => exact absurd rfl ne_dots
  | jump dir _ listed _ | turn dir _ listed _ =>
    exact absurd ((Entry.below?_cons dir name).trans listed) (unlinked _ _)
  | enter _ _ _ _ =>
    rcases Relation.ReflTransGen.cases_head steps with rfl | ⟨_, step, steps⟩
    · cases arrived
    · obtain rfl := step.of_dots rfl
      exact steps

/-- Without links, double dots may be resolved before a walk as well as on it. -/
lemma steps_resolveDots (unlinked : root.Unlinked) {rooted links trail seen parts walk}
    (top : rooted = true → trail = []) (dot : "." ∉ seen) (dot' : "." ∉ parts) (arrived : walk.ahead = [])
    (steps : Relation.ReflTransGen (Step root) ⟨links, trail, seen.reverse ++ parts⟩ walk) :
    Relation.ReflTransGen (Step root) ⟨links, trail, Path.resolveDots rooted seen parts⟩ walk := by
  induction parts generalizing seen with
  | nil => rwa [List.append_nil] at steps
  | cons part rest ih =>
    rw [List.mem_cons, not_or] at dot'
    have on : ∀ {front : List String}, part :: seen = front →
        Relation.ReflTransGen (Step root) ⟨links, trail, front.reverse ++ rest⟩ walk := by
      rintro _ rfl
      rwa [List.reverse_cons, List.append_assoc]
    unfold Path.resolveDots
    split
    case isFalse => exact ih (by simp [dot, dot'.1]) dot'.2 (on rfl)
    case isTrue dots =>
      subst dots
      split
      case h_1 =>
        cases rooted with
        | false => exact ih (by decide) dot'.2 (on rfl)
        | true =>
          obtain rfl := top rfl
          -- Above the root there is the root.
          refine ih List.not_mem_nil dot'.2 ?_
          rcases Relation.ReflTransGen.cases_head steps with rfl | ⟨_, step, steps⟩
          · cases arrived
          · obtain rfl := step.of_dots rfl
            exact steps
      case h_2 last before =>
        rw [List.mem_cons, not_or] at dot
        split
        case isTrue => exact ih (by simp [dot]) dot'.2 (on rfl)
        case isFalse name =>
          refine ih dot.2 dot'.2 ?_
          rw [List.reverse_cons, List.append_assoc] at steps
          obtain ⟨links', trail', ahead'⟩ := walk
          cases arrived
          obtain ⟨_, _, first, others⟩ := exists_steps_between steps
          exact (steps_append first rest).trans (steps_up_down unlinked (Ne.symm dot.1) name rfl others)

/-- Without links, a path leads to the same directory in its shortest spelling. -/
lemma locate_clean_of_unlinked {fs : FileSystem} (unlinked : fs.root.Unlinked) {path trail entries}
    (found : fs.locate true path = .ok ⟨trail, some (.dir entries)⟩) :
    fs.locate true (Path.clean path) = .ok ⟨trail, some (.dir entries)⟩ := by
  refine locate_clean (fun first steps => ?_) found
  have dot : "." ∉ Path.components path := fun mem => by simpa using (List.mem_filter.mp mem).2
  refine steps_resolveDots unlinked (fun absolute => ?_) List.not_mem_nil dot rfl steps
  rw [lead, if_pos absolute] at first
  have blank : names "" = [] := by decide
  rw [blank] at first
  rcases Relation.ReflTransGen.cases_head first with eq | ⟨_, step, _⟩
  · cases eq
    rfl
  · cases step

end FileSystem

end Sift
