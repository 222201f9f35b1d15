import Mathlib.Data.List.Basic
import Sift.FileSystem

/-!
# Spelling paths

A path below a directory is a list of names that are joined by slashes. Joining such a path to the
directory and splitting the result gives the components of the directory and then the names
(`Path.join_ofComponents`, `FileSystem.names_ofComponents`), so that what is found at paths can be said of
lists of names.
-/

namespace Sift

namespace Text

variable {sep : Char}

/-- There always is a piece. -/
lemma splitChars_ne_nil (cs : List Char) : splitChars sep cs ≠ [] := by
  cases cs with
  | nil => exact List.cons_ne_nil _ _
  | cons c rest =>
    unfold splitChars
    split
    · exact List.cons_ne_nil _ _
    · split
      · exact List.cons_ne_nil _ _
      · exact List.cons_ne_nil _ _

/-- Pieces on both sides of a separator are split apart. -/
lemma splitChars_append (front back : List Char) :
    splitChars sep (front ++ sep :: back) = splitChars sep front ++ splitChars sep back := by
  induction front with
  | nil => simp only [splitChars, List.nil_append, if_true, List.cons_append]
  | cons c rest ih =>
    by_cases eq : c = sep
    · simp only [List.cons_append, splitChars, eq, if_true, ih]
    · obtain ⟨piece, pieces, split⟩ := List.exists_cons_of_ne_nil (@splitChars_ne_nil sep rest)
      simp only [List.cons_append, splitChars, eq, if_false, ih, split]

/-- What has no separator is one piece. -/
lemma splitChars_of_not_mem {cs} (plain : sep ∉ cs) : splitChars sep cs = [cs] := by
  induction cs with
  | nil => rfl
  | cons c rest ih =>
    rw [List.mem_cons, not_or] at plain
    simp only [splitChars, Ne.symm plain.1, if_false, ih plain.2]

/-- The characters of a piece are characters of the whole, and none is the separator. -/
lemma mem_of_mem_splitChars {cs piece c} (mem : piece ∈ splitChars sep cs) (within : c ∈ piece) : c ∈ cs ∧ c ≠ sep := by
  induction cs generalizing piece with
  | nil =>
    rw [List.mem_singleton.mp mem] at within
    cases within
  | cons first rest ih =>
    have later : ∀ {piece}, piece ∈ splitChars sep rest → c ∈ piece → c ∈ first :: rest ∧ c ≠ sep :=
      fun mem within => (ih mem within).imp_left (List.mem_cons_of_mem _)
    unfold splitChars at mem
    split at mem
    case isTrue =>
      rcases List.mem_cons.mp mem with rfl | mem
      · cases within
      · exact later mem within
    case isFalse ne =>
      obtain ⟨next, pieces, split⟩ := List.exists_cons_of_ne_nil (@splitChars_ne_nil sep rest)
      rw [split] at mem later
      rcases List.mem_cons.mp mem with rfl | mem
      · rcases List.mem_cons.mp within with rfl | within
        · exact ⟨List.mem_cons_self, ne⟩
        · exact later List.mem_cons_self within
      · exact later (List.mem_cons_of_mem _ mem) within

/-- A slash splits what stands on its two sides. -/
lemma splitAt_append (front back : String) :
    splitAt '/' (front ++ "/" ++ back) = splitAt '/' front ++ splitAt '/' back := by
  have chars : (front ++ "/" ++ back).toList = front.toList ++ '/' :: back.toList := by
    rw [String.toList_append, String.toList_append, List.append_assoc]
    rfl
  rw [splitAt, chars, splitChars_append, List.map_append]
  rfl

/-- A string without the separator is one piece. -/
lemma splitAt_of_not_mem {s} (plain : sep ∉ s.toList) : splitAt sep s = [s] := by
  rw [splitAt, splitChars_of_not_mem plain, List.map_singleton, String.ofList_toList]

/-- A piece has characters of the string, and no separator. -/
lemma mem_of_mem_splitAt {s piece c} (mem : piece ∈ splitAt sep s) (within : c ∈ piece.toList) :
    c ∈ s.toList ∧ c ≠ sep := by
  obtain ⟨cs, found, rfl⟩ := List.mem_map.mp mem
  rw [String.toList_ofList] at within
  exact mem_of_mem_splitChars found within

/-- Pieces that were joined by slashes are split again. -/
lemma splitAt_intercalate {pieces} (plain : ∀ piece ∈ pieces, '/' ∉ piece.toList) (ne : pieces ≠ []) :
    splitAt '/' ("/".intercalate pieces) = pieces := by
  induction pieces with
  | nil => exact absurd rfl ne
  | cons piece rest ih =>
    obtain ⟨first, others⟩ := List.forall_mem_cons.mp plain
    cases rest with
    | nil => rw [String.intercalate_singleton, splitAt_of_not_mem first]
    | cons next rest =>
      rw [String.intercalate_cons_cons, splitAt_append, splitAt_of_not_mem first,
        ih others (List.cons_ne_nil _ _), List.singleton_append]

/-- A lead does not reach across a character that it lacks. -/
lemma isPrefixOf_append_cons {lead front back : List Char} {c} (plain : c ∉ lead) :
    lead.isPrefixOf (front ++ c :: back) = lead.isPrefixOf front := by
  induction lead generalizing front with
  | nil => cases front <;> rfl
  | cons d lead ih =>
    rw [List.mem_cons, not_or] at plain
    cases front with
    | nil => simp [List.isPrefixOf, Ne.symm plain.1]
    | cons e front => rw [List.cons_append, List.isPrefixOf_cons_cons, ih plain.2, List.isPrefixOf_cons_cons]

/-- A joined path starts as its first piece does. -/
lemma startsWith_intercalate {lead : String} (plain : '/' ∉ lead.toList) (first : String) (rest : List String) :
    startsWith ("/".intercalate (first :: rest)) lead = startsWith first lead := by
  cases rest with
  | nil => rw [String.intercalate_singleton]
  | cons next rest =>
    have chars : (first ++ "/" ++ "/".intercalate (next :: rest)).toList =
        first.toList ++ '/' :: ("/".intercalate (next :: rest)).toList := by
      rw [String.toList_append, String.toList_append, List.append_assoc]
      rfl
    rw [String.intercalate_cons_cons, startsWith, chars, isPrefixOf_append_cons plain, startsWith]

/-- The last piece of what ends in a slash is empty. -/
lemma exists_splitAt_of_endsWith {s} (ends : endsWith s "/" = true) :
    ∃ pieces, splitAt '/' s = pieces ++ [""] := by
  obtain ⟨back, eq⟩ := List.isPrefixOf_iff_prefix.mp ends
  have chars : s = String.ofList back.reverse ++ "/" ++ "" := by
    rw [← String.toList_inj, ← List.reverse_inj, ← eq]
    simp
  exact ⟨splitAt '/' (String.ofList back.reverse), by rw [chars, splitAt_append]; rfl⟩

end Text

namespace Path

/-- A component that a path can have. -/
def IsPart (part : String) : Prop := part ≠ "" ∧ '/' ∉ part.toList

/-- A name that a file can have. -/
structure IsName (name : String) : Prop where
  isPart : IsPart name
  ne_dot : name ≠ "."
  ne_dots : name ≠ ".."
  null : Char.ofNat 0 ∉ name.toList
  short : name.utf8ByteSize ≤ FileSystem.nameLimit

instance (name : String) : Decidable (IsName name) :=
  decidable_of_iff ((name ≠ "" ∧ '/' ∉ name.toList) ∧ name ≠ "." ∧ name ≠ ".." ∧
      Char.ofNat 0 ∉ name.toList ∧ name.utf8ByteSize ≤ FileSystem.nameLimit)
    ⟨fun ⟨isPart, ne_dot, ne_dots, null, short⟩ => ⟨isPart, ne_dot, ne_dots, null, short⟩,
      fun isName => ⟨isName.isPart, isName.ne_dot, isName.ne_dots, isName.null, isName.short⟩⟩

/-- One more name leaves names. -/
lemma isName_concat {names name} (all : ∀ part ∈ names, IsName part) (isName : IsName name) :
    ∀ part ∈ names ++ [name], IsName part :=
  List.forall_mem_append.mpr ⟨all, List.forall_mem_singleton.mpr isName⟩

variable {parts names : List String}

/-- Parts that are joined make no empty string. -/
lemma intercalate_ne_empty (all : ∀ part ∈ parts, IsPart part) (ne : parts ≠ []) :
    "/".intercalate parts ≠ "" := by
  intro eq
  have pieces := Text.splitAt_intercalate (fun part mem => (all part mem).2) ne
  rw [eq] at pieces
  have blank : "" ∈ parts := pieces ▸ List.mem_singleton_self _
  exact (all "" blank).1 rfl

/-- A relative path with parts is its parts, joined. -/
lemma ofComponents_false_of_ne_nil (all : ∀ part ∈ parts, IsPart part) (ne : parts ≠ []) :
    ofComponents false parts = "/".intercalate parts := by
  simp only [ofComponents, Bool.false_eq_true, if_false, intercalate_ne_empty all ne]

/-- A single part is its own path. -/
lemma ofComponents_singleton {part} (isPart : IsPart part) : ofComponents false [part] = part := by
  rw [ofComponents_false_of_ne_nil (List.forall_mem_singleton.mpr isPart) (List.cons_ne_nil _ _),
    String.intercalate_singleton]

lemma ofComponents_false_ne_empty (parts : List String) : ofComponents false parts ≠ "" := by
  simp only [ofComponents, Bool.false_eq_true, if_false]
  split
  · decide
  · assumption

/-- A path from the root is a slash and its parts, joined. -/
lemma ofComponents_true (parts : List String) :
    ofComponents true parts = "" ++ "/" ++ "/".intercalate parts := by
  simp [ofComponents]

/-- No path is empty. -/
lemma ofComponents_ne_empty (rooted : Bool) (parts : List String) : ofComponents rooted parts ≠ "" := by
  cases rooted with
  | true => simp [ofComponents]
  | false => exact ofComponents_false_ne_empty parts

/-- The components of a path, single dots left out, are those that it is made of. -/
lemma components_ofComponents (rooted : Bool) (all : ∀ part ∈ parts, IsPart part) (dot : "." ∉ parts) :
    components (ofComponents rooted parts) = parts := by
  by_cases none : parts = []
  · subst none
    cases rooted <;> decide
  · have used : parts.filter (fun part => part ≠ "" && part ≠ ".") = parts := by
      refine List.filter_eq_self.mpr fun part mem => ?_
      rw [Bool.and_eq_true, decide_eq_true_eq, decide_eq_true_eq]
      exact ⟨(all part mem).1, fun eq => dot (eq ▸ mem)⟩
    have split := Text.splitAt_intercalate (fun part mem => (all part mem).2) none
    cases rooted with
    | true =>
      rw [components, ofComponents_true, Text.splitAt_append, split, List.filter_append, used]
      rfl
    | false => rw [components, ofComponents_false_of_ne_nil all none, split, used]

/-- The components of a path of names are these names. -/
lemma components_ofNames (all : ∀ name ∈ names, IsName name) :
    components (ofComponents false names) = names :=
  components_ofComponents false (fun name mem => (all name mem).isPart) fun mem => (all _ mem).ne_dot rfl

/-- Different names make different paths. -/
lemma ofComponents_inj {names'} (all : ∀ name ∈ names, IsName name) (all' : ∀ name ∈ names', IsName name)
    (eq : ofComponents false names = ofComponents false names') : names = names' := by
  rw [← components_ofNames all, eq, components_ofNames all']

/-- A slash parts the components. -/
lemma components_append (front back : String) :
    components (front ++ "/" ++ back) = components front ++ components back := by
  rw [components, Text.splitAt_append, List.filter_append]
  rfl

/-- Components are parts. -/
lemma isPart_of_mem_components {path part} (mem : part ∈ components path) : IsPart part := by
  obtain ⟨mem, used⟩ := List.mem_filter.mp mem
  rw [Bool.and_eq_true, decide_eq_true_eq] at used
  exact ⟨used.1, fun slash => (Text.mem_of_mem_splitAt mem slash).2 rfl⟩

/-- Without double dots nothing is resolved. -/
lemma resolveDots_of_not_mem (rooted : Bool) (seen : List String) (dots : ".." ∉ parts) :
    resolveDots rooted seen parts = seen.reverse ++ parts := by
  induction parts generalizing seen with
  | nil => exact (List.append_nil _).symm
  | cons part rest ih =>
    rw [List.mem_cons, not_or] at dots
    simp only [resolveDots, Ne.symm dots.1, if_false]
    rw [ih (part :: seen) dots.2, List.reverse_cons, List.append_assoc, List.singleton_append]

/-- Names are kept. -/
lemma resolveDots_names (rooted : Bool) (seen : List String) (all : ∀ name ∈ names, IsName name) :
    resolveDots rooted seen names = seen.reverse ++ names :=
  resolveDots_of_not_mem rooted seen fun mem => (all _ mem).ne_dots rfl

/-- Dots are resolved one part at a time. -/
lemma resolveDots_cons (rooted : Bool) (seen : List String) (part : String) (rest : List String) :
    resolveDots rooted seen (part :: rest) =
      resolveDots rooted (resolveDots rooted seen [part]).reverse rest := by
  simp only [resolveDots]
  split
  · cases seen with
    | nil => rw [List.reverse_reverse]
    | cons last before =>
      dsimp only
      split <;> rw [List.reverse_reverse]
  · rw [List.reverse_reverse]

/-- Dots are resolved in the front first. -/
lemma resolveDots_append (rooted : Bool) (seen front back : List String) :
    resolveDots rooted seen (front ++ back) =
      resolveDots rooted (resolveDots rooted seen front).reverse back := by
  induction front generalizing seen with
  | nil => rw [List.nil_append, resolveDots, List.reverse_reverse]
  | cons part rest ih => rw [List.cons_append, resolveDots_cons, ih, ← resolveDots_cons]

/-- Names at the end of a path are out of reach of the double dots before them. -/
lemma resolveDots_append_names (rooted : Bool) (seen parts : List String)
    (all : ∀ name ∈ names, IsName name) :
    resolveDots rooted seen (parts ++ names) = resolveDots rooted seen parts ++ names := by
  rw [resolveDots_append, resolveDots_names rooted _ all, List.reverse_reverse]

/-- Resolving a second time changes nothing; `settled` says so of what was seen before. -/
lemma resolveDots_resolveDots (rooted : Bool) {seen} (parts : List String)
    (settled : resolveDots rooted [] seen.reverse = seen.reverse) :
    resolveDots rooted [] (resolveDots rooted seen parts) = resolveDots rooted seen parts := by
  induction parts generalizing seen with
  | nil => exact settled
  | cons part rest ih =>
    have more : resolveDots rooted [] (part :: seen).reverse = resolveDots rooted seen [part] := by
      rw [List.reverse_cons, resolveDots_append, settled, List.reverse_reverse]
    rw [resolveDots_cons]
    refine ih ?_
    rw [List.reverse_reverse]
    by_cases dots : part = ".."
    · subst dots
      cases seen with
      | nil => cases rooted <;> rfl
      | cons last before =>
        by_cases above : last = ".."
        · subst above
          exact more
        · -- The name before the double dots goes, and what stands before it was settled, too.
          have gone : resolveDots rooted (last :: before) [".."] = before.reverse := by
            simp only [resolveDots, if_true, above, if_false]
          rw [List.reverse_cons, resolveDots_append] at settled
          simp only [resolveDots, above, if_false, List.reverse_cons, List.reverse_reverse] at settled
          rw [gone]
          exact List.append_cancel_right settled
    · have kept : resolveDots rooted seen [part] = (part :: seen).reverse := by
        simp only [resolveDots, dots, if_false]
      rw [kept, more, kept]

/-- What holds of all parts and of double dots holds of what is left. -/
lemma forall_mem_resolveDots {P : String → Prop} (dots : P "..") {rooted seen} (all : ∀ part ∈ seen, P part)
    (all' : ∀ part ∈ parts, P part) :
    ∀ part ∈ resolveDots rooted seen parts, P part := by
  induction parts generalizing seen with
  | nil => exact fun part mem => all part (List.mem_reverse.mp mem)
  | cons part rest ih =>
    obtain ⟨first, others⟩ := List.forall_mem_cons.mp all'
    unfold resolveDots
    split
    · split
      · refine ih ?_ others
        cases rooted with
        | true => exact List.forall_mem_nil _
        | false => exact List.forall_mem_singleton.mpr dots
      · rename_i last before
        split
        · exact ih (List.forall_mem_cons.mpr ⟨dots, all⟩) others
        · exact ih (List.forall_mem_cons.mp all).2 others
    · exact ih (List.forall_mem_cons.mpr ⟨first, all⟩) others

/-- Clean components are parts. -/
lemma isPart_of_mem_cleanComponents {path part} (mem : part ∈ cleanComponents path) :
    IsPart part :=
  forall_mem_resolveDots ⟨by decide, by decide⟩ (List.forall_mem_nil _)
    (fun _ => isPart_of_mem_components) part mem

/-- No single dot is left in a clean path. -/
lemma dot_not_mem_cleanComponents (path : String) : "." ∉ cleanComponents path := fun mem =>
  forall_mem_resolveDots (P := (· ≠ ".")) (by decide) (List.forall_mem_nil _)
    (fun part mem => of_decide_eq_true (Bool.and_eq_true_iff.mp (List.mem_filter.mp mem).2).2) "." mem rfl

/-- A path begins at the root if it was made so. -/
lemma isAbsolute_ofComponents (rooted : Bool) (all : ∀ part ∈ parts, IsPart part) :
    isAbsolute (ofComponents rooted parts) = rooted := by
  cases rooted with
  | true => simp [ofComponents, isAbsolute]
  | false =>
    cases parts with
    | nil => decide
    | cons part rest =>
      rw [ofComponents_false_of_ne_nil all (List.cons_ne_nil _ _)]
      obtain ⟨ne, plain⟩ := (List.forall_mem_cons.mp all).1
      obtain ⟨c, cs, chars⟩ : ∃ c cs, part.toList = c :: cs := by
        refine List.exists_cons_of_ne_nil fun nil => ne ?_
        rw [← String.toList_inj, nil]
        rfl
      have head : ("/".intercalate (part :: rest)).toList.head? = some c := by
        cases rest with
        | nil => rw [String.intercalate_singleton, chars, List.head?_cons]
        | cons next rest =>
          rw [String.intercalate_cons_cons, String.toList_append, String.toList_append, chars]
          rfl
      rw [chars, List.mem_cons, not_or] at plain
      rw [isAbsolute, head, beq_eq_false_iff_ne]
      exact fun eq => plain.1 (Option.some.inj eq).symm

/-- What is below a path is absolute if the path is. -/
lemma isAbsolute_append {root} (ne : root ≠ "") (rest : String) :
    isAbsolute (root ++ "/" ++ rest) = isAbsolute root := by
  have chars : root.toList ≠ [] := fun nil => ne (String.toList_inj.mp nil)
  rw [isAbsolute, isAbsolute, String.append_assoc, String.toList_append, List.head?_append_of_ne_nil _ chars]

section Joined

variable {root : String} (all : ∀ part ∈ parts, IsPart part) (dot : "." ∉ parts) (dots : ".." ∉ parts)
include all dot dots

/-- A path behind a directory has the components of the directory and then its own. -/
lemma cleanComponents_append (ne : root ≠ "") :
    cleanComponents (root ++ "/" ++ ofComponents false parts) = cleanComponents root ++ parts := by
  rw [cleanComponents, isAbsolute_append ne, components_append, components_ofComponents false all dot,
    resolveDots_append, resolveDots_of_not_mem _ _ dots, List.reverse_reverse]
  rfl

/-- Parts are joined to the clean components of a root. -/
lemma join_ofParts :
    join [root, ofComponents false parts] = ofComponents (isAbsolute root) (cleanComponents root ++ parts) := by
  have used : ofComponents false parts ≠ "" := ofComponents_false_ne_empty parts
  by_cases none : root = ""
  · subst none
    have plain : isAbsolute (ofComponents false parts) = false := isAbsolute_ofComponents false all
    simp only [join, List.filter_cons, List.filter_nil, ne_eq, not_true_eq_false, decide_false,
      Bool.false_eq_true, if_false, used, not_false_eq_true, decide_true, if_true, List.isEmpty_cons,
      String.intercalate_singleton]
    rw [clean, plain, cleanComponents, plain, components_ofComponents false all dot,
      resolveDots_of_not_mem false [] dots]
    rfl
  · simp only [join, List.filter_cons, List.filter_nil, ne_eq, none, not_false_eq_true, decide_true,
      if_true, used, List.isEmpty_cons, Bool.false_eq_true, if_false, String.intercalate_cons_cons,
      String.intercalate_singleton]
    rw [clean, isAbsolute_append none, cleanComponents_append all dot dots none]

end Joined

/-- Names are joined to the clean components of a root. -/
lemma join_ofComponents (root : String) (all : ∀ name ∈ names, IsName name) :
    join [root, ofComponents false names] =
      ofComponents (isAbsolute root) (cleanComponents root ++ names) :=
  join_ofParts (fun name mem => (all name mem).isPart) (fun mem => (all _ mem).ne_dot rfl)
    fun mem => (all _ mem).ne_dots rfl

/-- Such a path keeps its components. -/
lemma cleanComponents_ofComponents (root : String) (all : ∀ name ∈ names, IsName name) :
    cleanComponents (ofComponents (isAbsolute root) (cleanComponents root ++ names)) =
      cleanComponents root ++ names := by
  have parts : ∀ part ∈ cleanComponents root ++ names, IsPart part :=
    List.forall_mem_append.mpr ⟨fun _ => isPart_of_mem_cleanComponents, fun name mem => (all name mem).isPart⟩
  have dot : "." ∉ cleanComponents root ++ names := by
    rw [List.mem_append, not_or]
    exact ⟨dot_not_mem_cleanComponents root, fun mem => (all _ mem).ne_dot rfl⟩
  rw [cleanComponents, isAbsolute_ofComponents _ parts, components_ofComponents _ parts dot,
    resolveDots_append_names _ _ _ all, cleanComponents, resolveDots_resolveDots _ _ rfl]

/-- What two paths share in front is dropped. -/
lemma dropCommon_append (front back : List String) : dropCommon front (front ++ back) = ([], back) := by
  induction front with
  | nil => cases back <;> rfl
  | cons part rest ih => rw [List.cons_append, dropCommon, if_pos rfl, ih]

/-- Seen from a directory, a path that was joined to it is what it was before. -/
lemma relative?_join (root : String) (all : ∀ name ∈ names, IsName name) :
    relative? root (join [root, ofComponents false names]) = some (ofComponents false names) := by
  have parts : ∀ part ∈ cleanComponents root ++ names, IsPart part :=
    List.forall_mem_append.mpr ⟨fun _ => isPart_of_mem_cleanComponents, fun name mem => (all name mem).isPart⟩
  rw [join_ofComponents root all, relative?, isAbsolute_ofComponents _ parts, bne_self_eq_false,
    if_neg Bool.false_ne_true, cleanComponents_ofComponents root all, dropCommon_append]
  rfl

/-- Both halves of a joined path are joined by a slash. -/
lemma intercalate_append {front back} (ne : front ≠ []) (ne' : back ≠ []) :
    "/".intercalate (front ++ back) = "/".intercalate front ++ "/" ++ "/".intercalate back := by
  induction front with
  | nil => exact absurd rfl ne
  | cons first rest ih =>
    cases rest with
    | nil =>
      obtain ⟨next, back, rfl⟩ := List.exists_cons_of_ne_nil ne'
      rw [List.singleton_append, String.intercalate_cons_cons, String.intercalate_singleton]
    | cons next rest =>
      rw [List.cons_append, List.cons_append, String.intercalate_cons_cons,
        String.intercalate_cons_cons, ← List.cons_append, ih (List.cons_ne_nil _ _)]
      simp only [String.append_assoc]

/-- What stands before the last components of a path does not depend on them. -/
lemma exists_ofComponents_append (rooted : Bool) {front} (all : ∀ part ∈ front, IsPart part) :
    ∃ lead : String, (lead = "" ∨ ∃ dirs, lead = dirs ++ "/") ∧
      ∀ back : List String, back ≠ [] → (∀ part ∈ back, IsPart part) →
        ofComponents rooted (front ++ back) = lead ++ "/".intercalate back := by
  by_cases none : front = []
  · subst none
    cases rooted with
    | true => exact ⟨"/", .inr ⟨"", rfl⟩, fun back _ _ => ofComponents_true back⟩
    | false =>
      refine ⟨"", .inl rfl, fun back ne parts => ?_⟩
      rw [List.nil_append, ofComponents_false_of_ne_nil parts ne, String.empty_append]
  · cases rooted with
    | true =>
      refine ⟨"/" ++ "/".intercalate front ++ "/", .inr ⟨_, rfl⟩, fun back ne _ => ?_⟩
      rw [ofComponents_true, intercalate_append none ne]
      simp only [String.append_assoc, String.empty_append]
    | false =>
      refine ⟨"/".intercalate front ++ "/", .inr ⟨_, rfl⟩, fun back ne parts => ?_⟩
      rw [ofComponents_false_of_ne_nil (List.forall_mem_append.mpr ⟨all, parts⟩) (by simp [none]),
        intercalate_append none ne]

/-- Behind the last slash of a path stands its last component. -/
lemma afterLastSlash_ofComponents (rooted : Bool) {name} (all : ∀ part ∈ parts ++ [name], IsPart part) :
    afterLastSlash (ofComponents rooted (parts ++ [name])).toList = name.toList := by
  obtain ⟨all, isPart⟩ := List.forall_mem_append.mp all
  have plain : ∀ c ∈ name.toList.reverse, decide (c ≠ '/') = true := fun c mem =>
    decide_eq_true fun eq => (isPart name (List.mem_singleton_self _)).2 (eq ▸ List.mem_reverse.mp mem)
  obtain ⟨lead, form, eq⟩ := exists_ofComponents_append rooted all
  rw [eq [name] (List.cons_ne_nil _ _) isPart, String.intercalate_singleton, String.toList_append,
    afterLastSlash, List.reverse_append]
  rcases form with rfl | ⟨dirs, rfl⟩
  · rw [List.takeWhile_append_of_pos plain]
    simp
  · rw [List.takeWhile_append_of_pos plain]
    simp

/-- The base is the part behind the last slash. -/
lemma base_of_afterLastSlash {path name} (isPart : IsPart name) (last : afterLastSlash path.toList = name.toList) :
    base path = name := by
  have chars : path.toList.reverse.takeWhile (· ≠ '/') = name.toList.reverse := by
    rw [← last, afterLastSlash, List.reverse_reverse]
  obtain ⟨c, rest, eq⟩ : ∃ c rest, path.toList.reverse = c :: rest := by
    refine List.exists_cons_of_ne_nil fun nil => isPart.1 ?_
    rw [nil, List.takeWhile_nil, eq_comm, List.reverse_eq_nil_iff] at chars
    exact String.toList_inj.mp chars
  have plain : c ≠ '/' := by
    rintro rfl
    rw [eq, List.takeWhile_cons_of_neg (by decide), eq_comm, List.reverse_eq_nil_iff] at chars
    exact isPart.1 (String.toList_inj.mp chars)
  have ne : path ≠ "" := by
    rintro rfl
    cases eq
  have trimmed : (path.toList.reverse.dropWhile (· = '/')).reverse = path.toList := by
    rw [eq, List.dropWhile_cons_of_neg (by simpa using plain), ← eq, List.reverse_reverse]
  have some : path.toList ≠ [] := fun nil => ne (String.toList_inj.mp nil)
  rw [base, if_neg ne, trimmed]
  split
  · contradiction
  · rw [last, String.ofList_toList]

/-- A character of a joined path is in one of its parts. -/
lemma mem_intercalate {c} (ne : c ≠ '/') :
    c ∈ ("/".intercalate parts).toList ↔ ∃ part ∈ parts, c ∈ part.toList := by
  induction parts with
  | nil => simp
  | cons part rest ih =>
    cases rest with
    | nil => simp
    | cons next rest =>
      have slash : c ∉ "/".toList := by simpa using ne
      rw [String.intercalate_cons_cons, String.toList_append, String.toList_append, List.mem_append,
        List.mem_append, ih]
      simp only [slash, or_false, List.exists_mem_cons_iff]

/-- A character of a path is in one of its parts. -/
lemma mem_ofComponents {c} (rooted : Bool) (ne : c ≠ '/') (ne' : c ≠ '.') :
    c ∈ (ofComponents rooted parts).toList ↔ ∃ part ∈ parts, c ∈ part.toList := by
  rw [← mem_intercalate ne]
  cases rooted with
  | true => simp [ofComponents, ne]
  | false =>
    simp only [ofComponents, Bool.false_eq_true, if_false]
    split
    · rename_i blank
      rw [blank]
      simp [ne']
    · rfl

variable {full : String}

/-- At the root, double dots are dropped. -/
lemma dots_not_mem_resolveDots {seen} (free : ".." ∉ seen) :
    ".." ∉ resolveDots true seen parts := by
  induction parts generalizing seen with
  | nil => exact fun mem => free (List.mem_reverse.mp mem)
  | cons part rest ih =>
    unfold resolveDots
    split
    · cases seen with
      | nil => exact ih List.not_mem_nil
      | cons last before =>
        rw [List.mem_cons, not_or] at free
        simp only [Ne.symm free.1, if_false]
        exact ih free.2
    · rename_i ne
      exact ih fun mem => (List.mem_cons.mp mem).elim (fun eq => ne eq.symm) free

/-- The path from the root that is made of the parts, in its shortest spelling. -/
structure Spells (full : String) (parts : List String) : Prop where
  eq : full = ofComponents true parts
  isPart : ∀ part ∈ parts, IsPart part
  dot : "." ∉ parts
  dots : ".." ∉ parts

namespace Spells

lemma isAbsolute_eq (spells : Spells full parts) : isAbsolute full = true := by
  rw [spells.eq, isAbsolute_ofComponents true spells.isPart]

/-- The parts that spell a path are its components. -/
lemma components_eq (spells : Spells full parts) : components full = parts := by
  rw [spells.eq, components_ofComponents true spells.isPart spells.dot]

lemma cleanComponents_eq (spells : Spells full parts) : cleanComponents full = parts := by
  rw [cleanComponents, spells.isAbsolute_eq, spells.components_eq, resolveDots_of_not_mem true [] spells.dots]
  rfl

/-- A path that is spelled by its parts is clean. -/
lemma clean_eq (spells : Spells full parts) : clean full = full := by
  rw [clean, spells.isAbsolute_eq, spells.cleanComponents_eq, ← spells.eq]

/-- A beginning of the parts spells a directory around the path. -/
lemma of_prefix (spells : Spells full parts) {front} (before : front <+: parts) :
    Spells (ofComponents true front) front :=
  ⟨rfl, fun part mem => spells.isPart part (before.subset mem), fun mem => spells.dot (before.subset mem),
    fun mem => spells.dots (before.subset mem)⟩

end Spells

/-- An absolute path is spelled by its clean components once it is clean. -/
lemma spells_clean {path} (rooted : isAbsolute path = true) :
    Spells (clean path) (cleanComponents path) := by
  refine ⟨by rw [clean, rooted], fun _ => isPart_of_mem_cleanComponents, dot_not_mem_cleanComponents path, ?_⟩
  rw [cleanComponents, rooted]
  exact dots_not_mem_resolveDots List.not_mem_nil

/-- The directory around a path is spelled by all parts but the last. -/
lemma Spells.dir_eq (spells : Spells full parts) : dir full = ofComponents true parts.dropLast := by
  rcases List.eq_nil_or_concat' parts with rfl | ⟨front, last, rfl⟩
  · rw [spells.eq]
    decide
  · have isPart : ∀ part ∈ [last], IsPart part := (List.forall_mem_append.mp spells.isPart).2
    have plain : ∀ c ∈ last.toList.reverse, decide (c ≠ '/') = true := fun c mem =>
      decide_eq_true fun eq => (isPart last (List.mem_singleton_self _)).2 (eq ▸ List.mem_reverse.mp mem)
    obtain ⟨dirs, split⟩ : ∃ dirs, full = dirs ++ "/" ++ last := by
      rw [spells.eq, ofComponents_true]
      by_cases none : front = []
      · subst none
        exact ⟨"", by rw [List.nil_append, String.intercalate_singleton]⟩
      · refine ⟨"" ++ "/" ++ "/".intercalate front, ?_⟩
        rw [intercalate_append none (List.cons_ne_nil _ _), String.intercalate_singleton]
        simp only [String.append_assoc]
    -- Up to its last slash the path has the components of the directory.
    have around : components (dirs ++ "/") = front := by
      have whole := spells.components_eq
      have single := components_ofComponents false isPart fun mem => spells.dot (List.mem_append_right _ mem)
      rw [ofComponents_singleton (isPart last (List.mem_singleton_self _))] at single
      rw [split, components_append, single] at whole
      rw [← @String.append_empty (dirs ++ "/"), components_append]
      exact (List.append_nil _).trans (List.append_cancel_right whole)
    have rooted : isAbsolute (dirs ++ "/") = true := by
      have head := spells.isAbsolute_eq
      rw [isAbsolute, split, String.toList_append,
        List.head?_append_of_ne_nil _ (by simp [String.toList_append])] at head
      exact head
    have kept : String.ofList (full.toList.reverse.dropWhile (· ≠ '/')).reverse = dirs ++ "/" := by
      rw [split, ← String.toList_inj]
      simp only [String.toList_append, List.reverse_append, String.toList_ofList]
      rw [List.dropWhile_append_of_pos plain]
      simp
    have dots : ".." ∉ front := fun mem => spells.dots (List.mem_append_left _ mem)
    rw [dir, kept, clean, rooted, cleanComponents, rooted, around, resolveDots_of_not_mem true [] dots,
      List.dropLast_concat]
    rfl

/-- The directory around a path is spelled by a beginning of its parts. -/
lemma Spells.dir (spells : Spells full parts) : Spells (dir full) parts.dropLast := by
  rw [spells.dir_eq]
  exact spells.of_prefix parts.dropLast_prefix

/-- Seen from a directory around it, a path is spelled by the rest of its parts. -/
lemma Spells.relative?_eq {root front names} (around : Spells root front) (spells : Spells full (front ++ names)) :
    relative? root full = some (ofComponents false names) := by
  rw [relative?, around.isAbsolute_eq, spells.isAbsolute_eq, bne_self_eq_false, if_neg Bool.false_ne_true,
    around.cleanComponents_eq, spells.cleanComponents_eq, dropCommon_append]
  rfl

end Path

/-- The names of a path are its components; without any, the path asks for a directory. -/
lemma FileSystem.names_ofComponents (rooted : Bool) {parts} (all : ∀ part ∈ parts, Path.IsPart part) :
    names (Path.ofComponents rooted parts) = if parts = [] then ["."] else parts := by
  split
  case isTrue none =>
    subst none
    cases rooted <;> decide
  case isFalse ne =>
    obtain ⟨lead, pieces, blank⟩ : ∃ lead, Text.splitAt '/' (Path.ofComponents rooted parts) = lead ++ parts ∧
        lead.filter (· ≠ "") = [] := by
      have split := Text.splitAt_intercalate (fun part mem => (all part mem).2) ne
      cases rooted with
      | true => exact ⟨[""], by rw [Path.ofComponents_true, Text.splitAt_append, split]; rfl, rfl⟩
      | false => exact ⟨[], by rw [Path.ofComponents_false_of_ne_nil all ne, split]; rfl, rfl⟩
    have used : (Text.splitAt '/' (Path.ofComponents rooted parts)).filter (· ≠ "") = parts := by
      rw [pieces, List.filter_append, blank, List.nil_append]
      exact List.filter_eq_self.mpr fun part mem => decide_eq_true (all part mem).1
    have unended : Text.endsWith (Path.ofComponents rooted parts) "/" = false := by
      rw [← Bool.not_eq_true]
      intro ends
      -- What stands behind the last slash is the last component, and that is not empty.
      obtain ⟨front, last⟩ := Text.exists_splitAt_of_endsWith ends
      have eq := congrArg List.getLast? (pieces.symm.trans last)
      rw [List.getLast?_append_of_ne_nil _ ne, List.getLast?_concat] at eq
      exact (all "" (List.mem_of_getLast? eq)).1 rfl
    rw [names, unended]
    exact used

/-- A path from the root is found in its shortest spelling, if the working directory is given from there. -/
lemma FileSystem.spells_absolute (fs : FileSystem) (rooted : Path.isAbsolute fs.workingDir = true) (path : String) :
    ∃ parts, Path.Spells (fs.absolute path) parts := by
  rw [absolute]
  split
  case isTrue absolute => exact ⟨_, Path.spells_clean absolute⟩
  case isFalse =>
    obtain ⟨c, cs, chars⟩ : ∃ c cs, fs.workingDir.toList = c :: cs := by
      refine List.exists_cons_of_ne_nil fun nil => ?_
      rw [Path.isAbsolute, nil] at rooted
      cases rooted
    have some : fs.workingDir ≠ "" := fun eq => List.cons_ne_nil c cs (chars.symm.trans (by rw [eq]; rfl))
    have joined : ∃ rest, Path.join [fs.workingDir, path] = Path.clean (fs.workingDir ++ rest) := by
      by_cases none : path = ""
      · exact ⟨"", by simp [Path.join, some, none]⟩
      · exact ⟨"/" ++ path, by simp [Path.join, some, none, String.append_assoc]⟩
    obtain ⟨rest, eq⟩ := joined
    refine ⟨_, eq ▸ Path.spells_clean ?_⟩
    rw [Path.isAbsolute, chars] at rooted
    rw [Path.isAbsolute, String.toList_append, chars]
    exact rooted

/-- A clean absolute path is left as it is. -/
lemma FileSystem.absolute_eq_self (fs : FileSystem) {full parts} (spells : Path.Spells full parts) :
    fs.absolute full = full := by
  rw [absolute, if_pos spells.isAbsolute_eq, spells.clean_eq]

end Sift
