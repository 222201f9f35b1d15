import Mathlib.Data.List.Nodup
import Sift.Proofs.FileSystem.Growth
import Sift.Proofs.Sorting
import Sift.RuleSet.Directory

/-!
# Which rule files there are

The rule files of a directory are told by the names that lead to them (`RuleSet.mem_ruleFiles`), and they
ascend strictly (`RuleSet.ruleFiles_pairwise`). In a tree that grows, a rule file stays one, and no other
becomes one, unless something new is met on the way to it (`RuleSet.mem_ruleFiles_iff_of_untouched`).
-/

namespace Sift

namespace RuleSet

open Sift.FileSystem (pathBelow)
open Sift.Path (IsName ofComponents)

lemma under_ofComponents {ns} (all : ∀ name ∈ ns, IsName name) {name} (isName : IsName name) :
    under (ofComponents false ns) name = ofComponents false (ns ++ [name]) := by
  have all' : ∀ part ∈ ns ++ [name], IsName part :=
    Path.isName_concat all isName
  rw [Path.ofComponents_false_of_ne_nil (fun part mem => (all' part mem).isPart) (by simp)]
  by_cases none : ns = []
  · subst none
    rw [under, if_pos (by decide), List.nil_append, String.intercalate_singleton]
  · have ne : ofComponents false ns ≠ "." := fun eq =>
      none (Path.ofComponents_inj all (List.forall_mem_nil _) (eq.trans (by decide)))
    rw [under, if_neg ne, Path.ofComponents_false_of_ne_nil (fun part mem => (all part mem).isPart) none,
      Path.intercalate_append none (List.cons_ne_nil _ _), String.intercalate_singleton]

/-- The directory that the names lead to lists the entry. -/
def Lists (fs : FileSystem) (root : String) (ns : List String) (name : String) (entry : Entry) : Prop :=
  ∃ entries, fs.readDir (pathBelow root ns) = .ok entries ∧ (name, entry) ∈ entries

/-- From the directory that `ns` leads to, more names lead to a directory, through directories. -/
def Descends (fs : FileSystem) (root : String) (ns : List String) : List String → Prop
  | [] => ∃ entries, fs.readDir (pathBelow root ns) = .ok entries
  | name :: rest =>
    (∃ entry, Lists fs root ns name entry ∧ entryIsDir fs (pathBelow root (ns ++ [name])) entry = true) ∧
      Descends fs root (ns ++ [name]) rest

/-- The directory that the names lead to lists a rule file. -/
def Selects (fs : FileSystem) (root : String) (ns : List String) (name : String) : Prop :=
  ∃ entry, Lists fs root ns name entry ∧ isRuleFileName name = true ∧
    entryIsDir fs (pathBelow root (ns ++ [name])) entry = false

/-- The names lead to a directory that is searched for rule files. -/
def Searches (fs : FileSystem) (root : String) (recursive : Bool) (ns : List String) : Prop :=
  if recursive then ns.length < FileSystem.depthLimit ∧ Descends fs root [] ns else ns = []

section Sound

variable {fs : FileSystem} {root : String} (sound : fs.root.Sound)
include sound

lemma sound_of_readDir {path entries} (read : fs.readDir path = .ok entries) :
    (entries.map (·.1)).Nodup ∧ ∀ name ∈ entries.map (·.1), IsName name := by
  obtain ⟨trail, found⟩ := FileSystem.readDir_eq_ok_iff.mp read
  obtain ⟨_, _, place, -⟩ := FileSystem.exists_steps_of_locate found
  exact (sound _ _ place).imp_left (·.imp ne_of_lt)

lemma Lists.isName {ns name entry} (lists : Lists fs root ns name entry) : IsName name := by
  obtain ⟨entries, read, mem⟩ := lists
  exact (sound_of_readDir sound read).2 name (List.mem_map.mpr ⟨_, mem, rfl⟩)

lemma Descends.isName {ns ms} (descends : Descends fs root ns ms) :
    ∀ name ∈ ms, IsName name := by
  induction ms generalizing ns with
  | nil => exact List.forall_mem_nil _
  | cons name rest ih =>
    obtain ⟨⟨entry, lists, _⟩, descends⟩ := descends
    exact List.forall_mem_cons.mpr ⟨lists.isName sound, ih descends⟩

lemma Searches.isName {recursive ns} (searches : Searches fs root recursive ns) :
    ∀ name ∈ ns, IsName name := by
  unfold Searches at searches
  split at searches
  · exact searches.2.isName sound
  · subst searches
    exact List.forall_mem_nil _

/-- The directories below one, by the names that lead to them. -/
lemma mem_directoriesBelow {fuel ns} (all : ∀ name ∈ ns, IsName name) {path} :
    path ∈ directoriesBelow fs root fuel (ofComponents false ns) ↔
      ∃ ms, path = ofComponents false (ns ++ ms) ∧ ms.length < fuel ∧ Descends fs root ns ms := by
  induction fuel generalizing ns with
  | zero =>
    constructor
    · intro mem
      cases mem
    · rintro ⟨_, _, lt, _⟩
      exact absurd lt (Nat.not_lt_zero _)
  | succ fuel ih =>
    unfold directoriesBelow
    split
    case h_1 error failed =>
      constructor
      · intro mem
        cases mem
      · rintro ⟨ms, _, _, descends⟩
        cases ms with
        | nil =>
          obtain ⟨entries, read⟩ := descends
          cases failed.symm.trans read
        | cons name rest =>
          obtain ⟨⟨_, ⟨entries, read, _⟩, _⟩, _⟩ := descends
          cases failed.symm.trans read
    case h_2 entries read =>
      have step : ∀ {name : String}, IsName name →
          (path ∈ directoriesBelow fs root fuel (under (ofComponents false ns) name) ↔
            ∃ ms, path = ofComponents false (ns ++ [name] ++ ms) ∧ ms.length < fuel ∧
              Descends fs root (ns ++ [name]) ms) := by
        intro name isName
        rw [under_ofComponents all isName]
        exact ih (Path.isName_concat all isName)
      rw [List.mem_cons, List.mem_flatMap]
      constructor
      · rintro (rfl | ⟨⟨name, entry⟩, listed, mem⟩)
        · exact ⟨[], by rw [List.append_nil], Nat.succ_pos _, entries, read⟩
        · have lists : Lists fs root ns name entry := ⟨entries, read, listed⟩
          have isName := lists.isName sound
          dsimp only at mem
          split at mem
          case isTrue isDir =>
            obtain ⟨ms, rfl, lt, descends⟩ := (step isName).mp mem
            refine ⟨name :: ms, by rw [List.append_assoc]; rfl, Nat.succ_lt_succ lt, ⟨entry, lists, ?_⟩,
              descends⟩
            rwa [under_ofComponents all isName] at isDir
          case isFalse => cases mem
      · rintro ⟨ms, rfl, lt, descends⟩
        cases ms with
        | nil => exact .inl (by rw [List.append_nil])
        | cons name rest =>
          obtain ⟨⟨entry, lists, isDir⟩, descends⟩ := descends
          have isName := lists.isName sound
          obtain ⟨entries', read', listed⟩ := lists
          cases read.symm.trans read'
          refine .inr ⟨(name, entry), listed, ?_⟩
          dsimp only
          rw [if_pos (by rwa [under_ofComponents all isName])]
          exact (step isName).mpr
            ⟨rest, by rw [List.append_assoc]; rfl, Nat.lt_of_succ_lt_succ lt, descends⟩

/-- The rule files that a directory selects. -/
lemma mem_ruleFilesIn {ns} (all : ∀ name ∈ ns, IsName name) {path} :
    path ∈ ruleFilesIn fs root (ofComponents false ns) ↔
      ∃ name, path = ofComponents false (ns ++ [name]) ∧ Selects fs root ns name := by
  unfold ruleFilesIn
  split
  case h_1 error failed =>
    constructor
    · intro mem
      cases mem
    · rintro ⟨_, _, _, ⟨entries, read, _⟩, _⟩
      cases failed.symm.trans read
  case h_2 entries read =>
    rw [List.mem_filterMap]
    constructor
    · rintro ⟨⟨name, entry⟩, listed, eq⟩
      have lists : Lists fs root ns name entry := ⟨entries, read, listed⟩
      dsimp only at eq
      split at eq
      case isTrue chosen =>
        rw [under_ofComponents all (lists.isName sound), Bool.and_eq_true, Bool.not_eq_true'] at chosen
        rw [under_ofComponents all (lists.isName sound)] at eq
        exact ⟨name, (Option.some.inj eq).symm, entry, lists, chosen⟩
      case isFalse => cases eq
    · rintro ⟨name, rfl, entry, lists, named, other⟩
      have isName := lists.isName sound
      obtain ⟨entries', read', listed⟩ := lists
      cases read.symm.trans read'
      refine ⟨(name, entry), listed, ?_⟩
      dsimp only
      rw [under_ofComponents all isName, if_pos]
      rw [Bool.and_eq_true, Bool.not_eq_true']
      exact ⟨named, other⟩

/-- The rule files of a directory, by the names that lead to them. -/
lemma mem_ruleFiles {recursive path} : path ∈ ruleFiles fs root recursive ↔
    ∃ ns name, path = ofComponents false (ns ++ [name]) ∧ Searches fs root recursive ns ∧
      Selects fs root ns name := by
  have top : "." = ofComponents false [] := by decide
  have dirs : ∀ dir,
      (dir ∈ if recursive then directoriesBelow fs root FileSystem.depthLimit "." else ["."]) ↔
      ∃ ns, dir = ofComponents false ns ∧ Searches fs root recursive ns := by
    intro dir
    cases recursive with
    | true =>
      rw [if_pos rfl, top, mem_directoriesBelow sound (List.forall_mem_nil _)]
      rfl
    | false => simp [Searches, top]
  unfold ruleFiles
  dsimp only
  rw [List.mem_mergeSort, List.mem_flatMap]
  constructor
  · rintro ⟨dir, mem, mem'⟩
    obtain ⟨ns, rfl, searches⟩ := (dirs dir).mp mem
    obtain ⟨name, eq, selects⟩ := (mem_ruleFilesIn sound (searches.isName sound)).mp mem'
    exact ⟨ns, name, eq, searches, selects⟩
  · rintro ⟨ns, name, eq, searches, selects⟩
    refine ⟨ofComponents false ns, (dirs _).mpr ⟨ns, rfl, searches⟩, ?_⟩
    exact (mem_ruleFilesIn sound (searches.isName sound)).mpr ⟨name, eq, selects⟩

/-- None is listed twice. -/
lemma nodup_ruleFilesIn {ns} (all : ∀ name ∈ ns, IsName name) :
    (ruleFilesIn fs root (ofComponents false ns)).Nodup := by
  unfold ruleFilesIn
  split
  case h_1 => exact List.nodup_nil
  case h_2 entries read =>
    obtain ⟨nodup, isName⟩ := sound_of_readDir sound read
    have path : ∀ {entry : String × Entry} {path : String}, entry ∈ entries →
        (if isRuleFileName entry.1 &&
            !entryIsDir fs (Path.join [root, under (ofComponents false ns) entry.1]) entry.2
          then some (under (ofComponents false ns) entry.1) else none) = some path →
        path = ofComponents false (ns ++ [entry.1]) := by
      intro entry path mem eq
      rw [← under_ofComponents all (isName _ (List.mem_map_of_mem mem))]
      split at eq
      · exact (Option.some.inj eq).symm
      · cases eq
    refine List.pairwise_filterMap.mpr ((List.pairwise_map.mp nodup).imp_of_mem ?_)
    intro first second mem mem' ne p eq p' eq' same
    rw [path mem eq, path mem' eq'] at same
    have names : ∀ {entry : String × Entry}, entry ∈ entries → ∀ name ∈ ns ++ [entry.1], IsName name :=
      fun mem => Path.isName_concat all (isName _ (List.mem_map_of_mem mem))
    have last := Path.ofComponents_inj (names mem) (names mem') same
    exact ne (List.singleton_inj.mp (List.append_cancel_left last))

/-- No directory is searched twice. -/
lemma nodup_directoriesBelow {fuel ns} (all : ∀ name ∈ ns, IsName name) :
    (directoriesBelow fs root fuel (ofComponents false ns)).Nodup := by
  induction fuel generalizing ns with
  | zero => exact List.nodup_nil
  | succ fuel ih =>
    unfold directoriesBelow
    split
    case h_1 => exact List.nodup_nil
    case h_2 entries read =>
      obtain ⟨nodup, isName⟩ := sound_of_readDir sound read
      have names : ∀ {entry : String × Entry}, entry ∈ entries → ∀ name ∈ ns ++ [entry.1], IsName name :=
        fun mem => Path.isName_concat all (isName _ (List.mem_map_of_mem mem))
      -- What is found below an entry has the entry's name next.
      have next : ∀ {entry : String × Entry} {path : String}, entry ∈ entries →
          path ∈ (if entryIsDir fs (Path.join [root, under (ofComponents false ns) entry.1]) entry.2
            then directoriesBelow fs root fuel (under (ofComponents false ns) entry.1) else []) →
          ∃ ms, path = ofComponents false (ns ++ entry.1 :: ms) ∧
            ∀ name ∈ ns ++ entry.1 :: ms, IsName name := by
        intro entry path mem below
        rw [under_ofComponents all (isName _ (List.mem_map_of_mem mem))] at below
        split at below
        · obtain ⟨ms, rfl, _, descends⟩ := (mem_directoriesBelow sound (names mem)).mp below
          have all' := List.forall_mem_append.mpr ⟨names mem, descends.isName sound⟩
          rw [List.append_assoc] at all' ⊢
          exact ⟨ms, rfl, all'⟩
        · cases below
      refine List.nodup_cons.mpr ⟨?_, List.nodup_flatMap.mpr ⟨?_, ?_⟩⟩
      · intro mem
        obtain ⟨entry, listed, below⟩ := List.mem_flatMap.mp mem
        obtain ⟨ms, eq, all'⟩ := next listed below
        have same := Path.ofComponents_inj all all' eq
        exact List.cons_ne_nil _ _ (List.self_eq_append_right.mp same)
      · intro entry listed
        dsimp only
        rw [under_ofComponents all (isName _ (List.mem_map_of_mem listed))]
        split
        · exact ih (names listed)
        · exact List.nodup_nil
      · refine (List.pairwise_map.mp nodup).imp_of_mem ?_
        intro first second mem mem' ne path below below'
        obtain ⟨ms, eq, all'⟩ := next mem below
        obtain ⟨ms', eq', all''⟩ := next mem' below'
        have same := Path.ofComponents_inj all' all'' (eq.symm.trans eq')
        exact ne (List.cons.inj (List.append_cancel_left same)).1

/-- The rule files are loaded by strictly ascending path. -/
lemma ruleFiles_pairwise (recursive : Bool) : (ruleFiles fs root recursive).Pairwise (· < ·) := by
  have top : "." = ofComponents false [] := by decide
  have dirs : (if recursive then directoriesBelow fs root FileSystem.depthLimit "." else ["."]).Nodup ∧
      ∀ dir ∈ (if recursive then directoriesBelow fs root FileSystem.depthLimit "." else ["."]),
        ∃ ns, dir = ofComponents false ns ∧ ∀ name ∈ ns, IsName name := by
    cases recursive with
    | true =>
      rw [if_pos rfl, top]
      refine ⟨nodup_directoriesBelow sound (List.forall_mem_nil _), ?_⟩
      intro dir mem
      obtain ⟨ms, eq, _, descends⟩ := (mem_directoriesBelow sound (List.forall_mem_nil _)).mp mem
      exact ⟨ms, eq, descends.isName sound⟩
    | false =>
      refine ⟨List.nodup_singleton _, ?_⟩
      intro dir mem
      exact ⟨[], (List.mem_singleton.mp mem).trans top, List.forall_mem_nil _⟩
  obtain ⟨nodup, named⟩ := dirs
  have files : (List.flatMap (ruleFilesIn fs root)
      (if recursive then directoriesBelow fs root FileSystem.depthLimit "." else ["."])).Nodup := by
    refine List.nodup_flatMap.mpr ⟨?_, nodup.imp_of_mem ?_⟩
    · intro dir mem
      obtain ⟨ns, rfl, all⟩ := named dir mem
      exact nodup_ruleFilesIn sound all
    · intro first second mem mem' ne path inFirst inSecond
      obtain ⟨ns, rfl, all⟩ := named first mem
      obtain ⟨ns', rfl, all'⟩ := named second mem'
      obtain ⟨name, eq, _, lists, _⟩ := (mem_ruleFilesIn sound all).mp inFirst
      obtain ⟨name', eq', _, lists', _⟩ := (mem_ruleFilesIn sound all').mp inSecond
      have same := Path.ofComponents_inj
        (Path.isName_concat all (lists.isName sound))
        (Path.isName_concat all' (lists'.isName sound))
        (eq.symm.trans eq')
      exact ne (congrArg _ (List.append_inj_left' same rfl))
  exact pairwise_mergeSort_of_nodup id (by rwa [List.map_id])

end Sound

section Growth

variable {fs fs' : FileSystem} {root : String} (grows : fs.root.Grows fs'.root)
  (dir : fs'.workingDir = fs.workingDir) (sound : fs.root.Sound) (sound' : fs'.root.Sound)

include grows dir in
lemma readDir_grows {path entries} (read : fs.readDir path = .ok entries) :
    ∃ (trail : List String) (entries' : List (String × Entry)), fs'.readDir path = .ok entries' ∧
      fs.root.below? trail.reverse = some (.dir entries) ∧
      fs'.root.below? trail.reverse = some (.dir entries') := by
  obtain ⟨trail, found⟩ := FileSystem.readDir_eq_ok_iff.mp read
  obtain ⟨entry', found', alike⟩ := FileSystem.locate_grows grows dir found
  obtain ⟨_, _, place, -⟩ := FileSystem.exists_steps_of_locate found
  obtain ⟨_, _, place', -⟩ := FileSystem.exists_steps_of_locate found'
  cases alike with
  | same _ => exact ⟨trail, _, FileSystem.readDir_eq_ok_iff.mpr ⟨trail, found'⟩, place, place'⟩
  | dirs _ _ => exact ⟨trail, _, FileSystem.readDir_eq_ok_iff.mpr ⟨trail, found'⟩, place, place'⟩

include grows dir in
lemma readDir_of_untouched {path entries'} (read : fs'.readDir path = .ok entries')
    (untouched : ¬ fs'.Touches fs path) :
    ∃ trail entries, fs.readDir path = .ok entries ∧ fs.root.below? trail.reverse = some (.dir entries) ∧
      fs'.locate true path = .ok ⟨trail, some (.dir entries')⟩ := by
  obtain ⟨trail, found⟩ := FileSystem.readDir_eq_ok_iff.mp read
  have same := FileSystem.locate_same grows dir untouched
  rw [found] at same
  generalize old : fs.locate true path = result at same
  cases same with
  | found alike =>
    obtain ⟨_, _, place, -⟩ := FileSystem.exists_steps_of_locate old
    cases alike with
    | same _ => exact ⟨trail, _, FileSystem.readDir_eq_ok_iff.mpr ⟨trail, old⟩, place, found⟩
    | dirs _ _ => exact ⟨trail, _, FileSystem.readDir_eq_ok_iff.mpr ⟨trail, old⟩, place, found⟩

include grows dir sound sound' in
lemma Lists.of_grows {ns name entry} (lists : Lists fs root ns name entry) :
    ∃ entry', Lists fs' root ns name entry' ∧ entry.Alike entry' := by
  obtain ⟨entries, read, mem⟩ := lists
  obtain ⟨trail, entries', read', place, place'⟩ := readDir_grows grows dir read
  obtain ⟨entry', listed, alike⟩ := FileSystem.exists_lookup_of_grows grows place place'
    ((Entry.mem_iff_lookup (sound_of_readDir sound read).1).mp mem)
  exact ⟨entry', ⟨entries', read', (Entry.mem_iff_lookup (sound_of_readDir sound' read').1).mpr listed⟩, alike⟩

include grows dir sound sound' in
/-- What no new path touches was listed before. -/
lemma Lists.of_untouched {ns} (all : ∀ name ∈ ns, IsName name) {name entry'} (lists : Lists fs' root ns name entry')
    (untouched : ¬ fs'.Touches fs (pathBelow root (ns ++ [name]))) :
    ∃ entry, Lists fs root ns name entry ∧ entry.Alike entry' := by
  have isName := lists.isName sound'
  obtain ⟨entries', read', mem⟩ := lists
  have before : ¬ fs'.Touches fs (pathBelow root ns) :=
    fun touches => untouched (touches.append all (List.forall_mem_singleton.mpr isName))
  obtain ⟨trail, entries, read, place, found'⟩ := readDir_of_untouched grows dir read' before
  obtain ⟨_, _, place', -⟩ := FileSystem.exists_steps_of_locate found'
  have listed' := (Entry.mem_iff_lookup (sound_of_readDir sound' read').1).mp mem
  cases listed : entries.lookup name with
  | none =>
    -- An entry that was not listed before is met by whoever asks for it.
    refine absurd (FileSystem.touches_of_listed all found' isName listed' ?_) untouched
    rw [Entry.below?_cons place, listed]
  | some entry =>
    obtain ⟨entry'', again, alike⟩ := FileSystem.exists_lookup_of_grows grows place place' listed
    cases listed'.symm.trans again
    exact ⟨entry, ⟨entries, read, (Entry.mem_iff_lookup (sound_of_readDir sound read).1).mpr listed⟩, alike⟩

include grows dir in
lemma entryIsDir_grows {path entry entry'} (alike : entry.Alike entry') (isDir : entryIsDir fs path entry = true) :
    entryIsDir fs' path entry' = true := by
  cases alike with
  | dirs _ _ => rfl
  | same _ =>
    cases entry with
    | file _ => cases isDir
    | device => cases isDir
    | dir _ => rfl
    | link target =>
      rw [entryIsDir, FileSystem.isDir, FileSystem.stat, FileSystem.entryAt] at isDir ⊢
      generalize old : fs.locate true path = result at isDir
      rcases result with errno | ⟨trail, _ | entry⟩
      · cases isDir
      · cases isDir
      · obtain ⟨entry', found, alike⟩ := FileSystem.locate_grows grows dir old
        rw [found]
        cases alike with
        | same _ => exact isDir
        | dirs _ _ => rfl

include grows dir in
lemma entryIsDir_of_untouched {path entry entry'} (alike : entry.Alike entry') (untouched : ¬ fs'.Touches fs path) :
    entryIsDir fs' path entry' = entryIsDir fs path entry := by
  cases alike with
  | dirs _ _ => rfl
  | same _ =>
    cases entry with
    | link target => exact (FileSystem.locate_same grows dir untouched).isDir_eq
    | file _ => rfl
    | device => rfl
    | dir _ => rfl

include grows dir sound sound' in
/-- Ways down stay. -/
lemma Descends.of_grows {ns ms} (descends : Descends fs root ns ms) :
    Descends fs' root ns ms := by
  induction ms generalizing ns with
  | nil =>
    obtain ⟨entries, read⟩ := descends
    obtain ⟨_, entries', read', -⟩ := readDir_grows grows dir read
    exact ⟨entries', read'⟩
  | cons name rest ih =>
    obtain ⟨⟨entry, lists, isDir⟩, descends⟩ := descends
    obtain ⟨entry', lists', alike⟩ := lists.of_grows grows dir sound sound'
    exact ⟨⟨entry', lists', entryIsDir_grows grows dir alike isDir⟩, ih descends⟩

include grows dir sound sound' in
/-- What no new path touches was searched before. -/
lemma Descends.of_untouched {ns ms} (all : ∀ name ∈ ns, IsName name) (descends : Descends fs' root ns ms)
    (untouched : ¬ fs'.Touches fs (pathBelow root (ns ++ ms))) :
    Descends fs root ns ms := by
  induction ms generalizing ns with
  | nil =>
    obtain ⟨entries', read'⟩ := descends
    rw [List.append_nil] at untouched
    obtain ⟨_, entries, read, -⟩ := readDir_of_untouched grows dir read' untouched
    exact ⟨entries, read⟩
  | cons name rest ih =>
    obtain ⟨⟨entry', lists', isDir⟩, descends⟩ := descends
    have isName := lists'.isName sound'
    have all' : ∀ part ∈ ns ++ [name], IsName part :=
      Path.isName_concat all isName
    rw [List.append_cons] at untouched
    have before : ¬ fs'.Touches fs (pathBelow root (ns ++ [name])) :=
      fun touches => untouched (touches.append all' (descends.isName sound'))
    obtain ⟨entry, lists, alike⟩ := lists'.of_untouched grows dir sound sound' all before
    rw [entryIsDir_of_untouched grows dir alike before] at isDir
    exact ⟨⟨entry, lists, isDir⟩, ih all' descends untouched⟩

include grows dir sound sound' in
/-- A rule file that is found without meeting anything new was one before, and still is one. -/
lemma mem_ruleFiles_iff_of_untouched {recursive path} (untouched : ¬ fs'.Touches fs (Path.join [root, path])) :
    path ∈ ruleFiles fs' root recursive ↔ path ∈ ruleFiles fs root recursive := by
  rw [mem_ruleFiles sound', mem_ruleFiles sound]
  constructor
  · rintro ⟨ns, name, rfl, searches, entry', lists', named, other⟩
    have all := searches.isName sound'
    have before : ¬ fs'.Touches fs (pathBelow root ns) := fun touches =>
      untouched (touches.append all (List.forall_mem_singleton.mpr (lists'.isName sound')))
    obtain ⟨entry, lists, alike⟩ := lists'.of_untouched grows dir sound sound' all untouched
    refine ⟨ns, name, rfl, ?_, entry, lists, named, ?_⟩
    · unfold Searches at searches ⊢
      split at searches
      · rw [if_pos ‹_›]
        exact ⟨searches.1, searches.2.of_untouched grows dir sound sound' (List.forall_mem_nil _) before⟩
      · rwa [if_neg ‹_›]
    · exact (entryIsDir_of_untouched grows dir alike untouched).symm.trans other
  · rintro ⟨ns, name, rfl, searches, entry, lists, named, other⟩
    obtain ⟨entry', lists', alike⟩ := lists.of_grows grows dir sound sound'
    refine ⟨ns, name, rfl, ?_, entry', lists', named, ?_⟩
    · unfold Searches at searches ⊢
      split at searches
      · rw [if_pos ‹_›]
        exact ⟨searches.1, searches.2.of_grows grows dir sound sound'⟩
      · rwa [if_neg ‹_›]
    · exact (entryIsDir_of_untouched grows dir alike untouched).trans other

end Growth

/-- Without links below a directory, its rule files are where their names say. -/
lemma exists_place_of_mem_ruleFiles {fs root base entries recursive path} (sound : fs.root.Sound)
    (found : fs.locate true (pathBelow root []) = .ok ⟨base, some (.dir entries)⟩)
    (unlinked : ∀ names target, fs.root.below? (base.reverse ++ names) ≠ some (.link target))
    (mem : path ∈ ruleFiles fs root recursive) :
    ∃ ns entry, path = ofComponents false ns ∧ (∀ name ∈ ns, IsName name) ∧
      fs.root.below? (base.reverse ++ ns) = some entry ∧ entry.isDir = false := by
  obtain ⟨ns, name, rfl, searches, entry, lists, _, other⟩ := (mem_ruleFiles sound).mp mem
  have all := searches.isName sound
  have isName := lists.isName sound
  obtain ⟨entries', read, listed⟩ := lists
  obtain ⟨trail, found'⟩ := FileSystem.readDir_eq_ok_iff.mp read
  obtain ⟨_, _, dir, -⟩ := FileSystem.exists_steps_of_locate found'
  have place : fs.root.below? (base.reverse ++ (ns ++ [name])) = some entry := by
    rw [← List.append_assoc, ← FileSystem.trail_eq_of_unlinked all found unlinked found',
      ← List.reverse_cons, Entry.below?_cons dir]
    exact (Entry.mem_iff_lookup (sound_of_readDir sound read).1).mp listed
  refine ⟨ns ++ [name], entry, rfl,
    Path.isName_concat all isName, place, ?_⟩
  cases entry with
  | dir _ => cases other
  | link target => exact absurd place (unlinked _ target)
  | file _ | device => rfl

section Place

variable {fs : FileSystem} {root : String} {base : List String} {entries : List (String × Entry)}
  (sound : fs.root.Sound)
  (found : fs.locate true (pathBelow root []) = .ok ⟨base, some (.dir entries)⟩)
include sound found

/-- What the directory holds at some names is listed by the directory before the last of them. -/
lemma lists_of_below? {ns name entry} (place : (Entry.dir entries).below? (ns ++ [name]) = some entry) :
    Lists fs root ns name entry := by
  obtain ⟨_, _, top, -⟩ := FileSystem.exists_steps_of_locate found
  have sound' := sound.of_below? top
  have all := (List.forall_mem_append.mp (sound'.isName place)).1
  rw [Entry.below?_append] at place
  obtain ⟨parent, here, below⟩ := Option.bind_eq_some_iff.mp place
  obtain ⟨listing, rfl⟩ := Entry.exists_dir_of_below? below
  refine ⟨listing, FileSystem.readDir_eq_ok_iff.mpr
    ⟨_, FileSystem.locate_pathBelow all found here (by rintro target ⟨⟩)⟩, ?_⟩
  have listed := @Entry.below?_cons (.dir listing) [] listing rfl name
  exact (Entry.mem_iff_lookup (sound'.of_below? here).nodup).mpr (listed.symm.trans below)

/-- Names lead through the directories that the directory holds. -/
lemma descends_of_below? {ms ns inner} (place : (Entry.dir entries).below? (ms ++ ns) = some (.dir inner)) :
    Descends fs root ms ns := by
  obtain ⟨_, _, top, -⟩ := FileSystem.exists_steps_of_locate found
  induction ns generalizing ms with
  | nil =>
    rw [List.append_nil] at place
    have all := (sound.of_below? top).isName place
    exact ⟨inner, FileSystem.readDir_eq_ok_iff.mpr
      ⟨_, FileSystem.locate_pathBelow all found place (by rintro target ⟨⟩)⟩⟩
  | cons name rest ih =>
    rw [List.append_cons] at place
    have below := ih place
    rw [Entry.below?_append] at place
    obtain ⟨child, here, inside⟩ := Option.bind_eq_some_iff.mp place
    refine ⟨⟨child, lists_of_below? sound found here, ?_⟩, below⟩
    cases rest with
    | nil =>
      cases inside
      rfl
    | cons next others =>
      obtain ⟨_, rfl⟩ := Entry.exists_dir_of_below? inside
      rfl

/-- A file that the directory holds is a rule file if its name says so. -/
lemma mem_ruleFiles_of_below? {ns name content} (short : ns.length < FileSystem.depthLimit)
    (named : isRuleFileName name = true) (place : (Entry.dir entries).below? (ns ++ [name]) = some (.file content)) :
    ofComponents false (ns ++ [name]) ∈ ruleFiles fs root true := by
  have parent := place
  rw [Entry.below?_append] at parent
  obtain ⟨_, here, below⟩ := Option.bind_eq_some_iff.mp parent
  obtain ⟨listing, rfl⟩ := Entry.exists_dir_of_below? below
  exact (mem_ruleFiles sound).mpr ⟨ns, name, rfl, ⟨short, descends_of_below? sound found here⟩,
    _, lists_of_below? sound found place, named, rfl⟩

end Place

end RuleSet

end Sift
