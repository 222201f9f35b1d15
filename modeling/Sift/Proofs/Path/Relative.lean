import Sift.Proofs.Path
import Sift.Report.Locator

/-!
# A path as seen from a directory

Reports give a path as seen from a directory, unless it lies outside. Main statement: the path that is given
leads back from the directory, and it is the whole path exactly where the target lies outside. Only a
component of two dots leads outside, not one that begins with them.
-/

namespace Sift.Path

/-- Whether a path from the root, in its shortest spelling, goes on behind another. Every path but the root
goes on behind the root. -/
def LiesBelow (dir path : String) : Prop := if dir = "/" then path ≠ "/" else ∃ rest, path = dir ++ "/" ++ rest

section Parts

variable {full dir : String} {parts front names : List String}

/-- Of two lists of parts, one is left with what the other does not begin with. -/
lemma dropCommon_eq (front back : List String) :
    (∃ names, back = front ++ names ∧ dropCommon front back = ([], names)) ∨
      (¬ front <+: back ∧ ∃ part up down, dropCommon front back = (part :: up, down)) := by
  induction front generalizing back with
  | nil => exact .inl ⟨back, rfl, dropCommon_append [] back⟩
  | cons part rest ih =>
    cases back with
    | nil => exact .inr ⟨by simp, part, rest, [], rfl⟩
    | cons other others =>
      by_cases eq : part = other
      · subst eq
        rw [dropCommon, if_pos rfl]
        refine (ih others).imp ?_ ?_
        · rintro ⟨names, rfl, eq⟩
          exact ⟨names, rfl, eq⟩
        · rintro ⟨apart, left⟩
          exact ⟨fun before => apart (List.cons_prefix_cons.mp before).2, left⟩
      · refine .inr ⟨fun before => eq (List.cons_prefix_cons.mp before).1, part, rest, other :: others, ?_⟩
        rw [dropCommon, if_neg eq]

lemma Spells.eq_root_iff (spells : Spells full parts) : full = "/" ↔ parts = [] := by
  constructor
  · rintro rfl
    exact spells.components_eq.symm
  · rintro rfl
    exact spells.eq

/-- The parts of a path that is a directory or lies below it begin with those of the directory. -/
lemma Spells.within_iff (around : Spells dir front) (spells : Spells full parts) :
    full = dir ∨ LiesBelow dir full ↔ front <+: parts := by
  constructor
  · rintro (rfl | below)
    · obtain rfl : front = parts := around.components_eq.symm.trans spells.components_eq
      exact List.prefix_rfl
    · unfold LiesBelow at below
      split at below
      case isTrue root =>
        rw [around.eq_root_iff.mp root]
        exact List.nil_prefix
      case isFalse =>
        obtain ⟨rest, rfl⟩ := below
        refine ⟨components rest, ?_⟩
        rw [← spells.components_eq, components_append, around.components_eq]
  · rintro ⟨names, rfl⟩
    by_cases none : names = []
    · subst none
      rw [List.append_nil] at spells
      exact .inl (spells.eq.trans around.eq.symm)
    · refine .inr ?_
      unfold LiesBelow
      split
      case isTrue root =>
        rw [Ne, spells.eq_root_iff]
        simp [none]
      case isFalse other =>
        have some : front ≠ [] := fun nil => other (around.eq_root_iff.mpr nil)
        refine ⟨"/".intercalate names, ?_⟩
        rw [spells.eq, around.eq, ofComponents_true, ofComponents_true, intercalate_append some none]
        simp only [String.append_assoc]

end Parts

section Relative

variable {root target : String} {names : List String}

/-- The components of a path that is made of parts. -/
lemma splitAt_ofComponents (all : ∀ name ∈ names, IsPart name) :
    Text.splitAt '/' (ofComponents false names) = if names = [] then ["."] else names := by
  split
  case isTrue none =>
    subst none
    decide
  case isFalse ne =>
    rw [ofComponents_false_of_ne_nil all ne, Text.splitAt_intercalate (fun name mem => (all name mem).2) ne]

lemma dots_not_mem_splitAt (all : ∀ name ∈ names, IsPart name) (dots : ".." ∉ names) :
    ".." ∉ Text.splitAt '/' (ofComponents false names) := by
  rw [splitAt_ofComponents all]
  split
  · decide
  · exact dots

lemma head_splitAt_of_startsWith {path} (up : path = ".." ∨ Text.startsWith path "../" = true) :
    (Text.splitAt '/' path).head? = some ".." := by
  rcases up with rfl | up
  · decide
  · obtain ⟨back, chars⟩ := List.isPrefixOf_iff_prefix.mp up
    have eq : path = ".." ++ "/" ++ String.ofList back := by
      rw [← String.toList_inj, ← chars]
      simp
    rw [eq, Text.splitAt_append, Text.splitAt_of_not_mem (by decide)]
    rfl

lemma ofComponents_dots (rest : List String) :
    ofComponents false (".." :: rest) = ".." ∨ Text.startsWith (ofComponents false (".." :: rest)) "../" = true := by
  cases rest with
  | nil => exact .inl (by decide)
  | cons next rest =>
    have chars : ("/".intercalate (".." :: next :: rest)).toList =
        ['.', '.', '/'] ++ ("/".intercalate (next :: rest)).toList := by
      rw [String.intercalate_cons_cons, String.toList_append, String.toList_append]
      rfl
    have ne : "/".intercalate (".." :: next :: rest) ≠ "" := by
      intro eq
      rw [eq] at chars
      cases chars
    refine .inr (List.isPrefixOf_iff_prefix.mpr ?_)
    rw [ofComponents, if_neg Bool.false_ne_true, if_neg ne, chars]
    exact List.prefix_append _ _

lemma ne_empty_of_isAbsolute (rooted : isAbsolute root = true) : root ≠ "" := by
  rintro rfl
  cases rooted

variable (rooted : isAbsolute root = true) (rooted' : isAbsolute target = true)
include rooted rooted'

/-- From a directory around it, the target is seen by the rest of its parts. -/
lemma relativeTo_of_within (parts : cleanComponents target = cleanComponents root ++ names) :
    relativeTo root target = ofComponents false names := by
  have spells := spells_clean rooted'
  rw [parts] at spells
  have all : ∀ name ∈ names, IsPart name := fun name mem => spells.isPart name (List.mem_append_right _ mem)
  have dots : ".." ∉ names := fun mem => spells.dots (List.mem_append_right _ mem)
  have ne : root ≠ "" := ne_empty_of_isAbsolute rooted
  have seen : relative? root target = some (ofComponents false names) := by
    rw [relative?, rooted, rooted', bne_self_eq_false, if_neg Bool.false_ne_true, parts, dropCommon_append]
    rfl
  have inside : ¬ (ofComponents false names = ".." ∨ Text.startsWith (ofComponents false names) "../" = true) :=
    fun up => dots_not_mem_splitAt all dots (List.mem_of_mem_head? (head_splitAt_of_startsWith up))
  rw [relativeTo, if_neg ne, seen]
  simp only [Bool.or_eq_true, decide_eq_true_eq, inside, if_false]

/-- A target outside is given whole. -/
lemma relativeTo_of_outside (outside : ¬ cleanComponents root <+: cleanComponents target) :
    relativeTo root target = clean target := by
  have ne : root ≠ "" := ne_empty_of_isAbsolute rooted
  rcases dropCommon_eq (cleanComponents root) (cleanComponents target) with ⟨names, eq, _⟩ | ⟨_, part, up, down, left⟩
  · exact absurd ⟨names, eq.symm⟩ outside
  · have seen : relative? root target = none ∨
        relative? root target = some (ofComponents false (".." :: (up.map (fun _ => "..") ++ down))) := by
      rw [relative?, rooted, rooted', bne_self_eq_false, if_neg Bool.false_ne_true, left]
      dsimp only
      split
      · exact .inl rfl
      · exact .inr rfl
    rw [relativeTo, if_neg ne]
    rcases seen with seen | seen
    · rw [seen]
    · rw [seen]
      have up := ofComponents_dots (up.map (fun _ => "..") ++ down)
      simp only [Bool.or_eq_true, decide_eq_true_eq, up, if_true]

end Relative

/-- From a directory a path is seen as one that leads to it, if it lies below, and else it is given whole. So a
component that only begins with two dots is kept. -/
theorem relativeTo_leads_back (root target : String) (rooted : isAbsolute root = true)
    (rooted' : isAbsolute target = true) :
    (clean target = clean root ∨ LiesBelow (clean root) (clean target) →
      isAbsolute (relativeTo root target) = false ∧ ".." ∉ Text.splitAt '/' (relativeTo root target) ∧
        join [root, relativeTo root target] = clean target) ∧
    (¬ (clean target = clean root ∨ LiesBelow (clean root) (clean target)) →
      relativeTo root target = clean target) ∧
    ∀ name, IsPart name → name ≠ "." → name ≠ ".." → relativeTo root (root ++ "/" ++ name) = name := by
  have within := (spells_clean rooted).within_iff (spells_clean rooted')
  refine ⟨fun inside => ?_, fun outside => ?_, fun name isPart ne_dot ne_dots => ?_⟩
  · obtain ⟨names, parts⟩ := within.mp inside
    have spells := spells_clean rooted'
    rw [← parts] at spells
    have all : ∀ name ∈ names, IsPart name := fun name mem => spells.isPart name (List.mem_append_right _ mem)
    have dot : "." ∉ names := fun mem => spells.dot (List.mem_append_right _ mem)
    have dots : ".." ∉ names := fun mem => spells.dots (List.mem_append_right _ mem)
    rw [relativeTo_of_within rooted rooted' parts.symm]
    refine ⟨isAbsolute_ofComponents false all, dots_not_mem_splitAt all dots, ?_⟩
    rw [join_ofParts all dot dots, rooted, ← spells.eq]
  · exact relativeTo_of_outside rooted rooted' fun before => outside (within.mpr before)
  · have ne : root ≠ "" := ne_empty_of_isAbsolute rooted
    have all : ∀ part ∈ [name], IsPart part := List.forall_mem_singleton.mpr isPart
    have parts := cleanComponents_append all (by simpa using ne_dot.symm) (by simpa using ne_dots.symm) ne
    rw [ofComponents_singleton isPart] at parts
    rw [relativeTo_of_within rooted ((isAbsolute_append ne name).trans rooted) parts, ofComponents_singleton isPart]

/-- A root with dots and double slashes. -/
theorem relativeTo_leads_back_dotted :
    let root := "/w//repo/."
    let target := "/w/repo/..cache/x/../y.go"
    isAbsolute root = true ∧ isAbsolute target = true ∧ LiesBelow (clean root) (clean target) ∧
      relativeTo root target = "..cache/y.go" ∧ join [root, relativeTo root target] = "/w/repo/..cache/y.go" := by
  intro root target
  have dir : clean root = "/w/repo" := by decide
  have path : clean target = "/w/repo/..cache/y.go" := by decide
  have below : LiesBelow (clean root) (clean target) := by
    rw [dir, path, LiesBelow, if_neg (by decide)]
    exact ⟨"..cache/y.go", by decide⟩
  obtain ⟨_, _, joined⟩ := (relativeTo_leads_back root target (by decide) (by decide)).1 (.inr below)
  exact ⟨by decide, by decide, below, by decide, joined.trans path⟩

end Sift.Path
