import Sift.Proofs.FileSystem.Unlinked
import Sift.Proofs.RuleSet.BrokenFile
import Sift.Proofs.RuleSet.Origin
import Sift.Watch

/-!
# Which rule files are watched

The directories that a watcher looks at are told by the names that lead to them
(`Watcher.mem_trails_add_iff`): of those at and below the given one, all that lie behind no hidden name.
Rule files are loaded from hidden directories as well, so that in a tree without links a rule file lies
in a directory that is looked at if and only if no directory on the way to it is hidden
(`Watcher.covers_loaded_iff`).
-/

namespace Sift

namespace RuleSet

section Loading

variable {fs : FileSystem} {root shown label : String} {precedence : Precedence} {set : RuleSet}
  {source : RuleSource}

/-- Loading a file adds only a source that is called after the file. -/
lemma name_of_mem_loadFile {name} (mem : source ∈ (loadFile fs root shown label precedence set name).1.sources) :
    source ∈ set.sources ∨ source.name = label ++ ":" ++ name := by
  unfold loadFile at mem
  split at mem
  · exact .inl mem
  · rename_i content _
    have added : source ∈ (set.add content (label ++ ":" ++ name) precedence).1.sources := mem
    unfold add at added
    split at added
    · exact .inl added
    · rcases mem_putSource added with rfl | old
      · exact .inr rfl
      · exact .inl old

/-- Loading files adds only sources that are called after the files. -/
lemma name_of_mem_loaded {names} (mem : source ∈ (loaded fs root shown label precedence set names).sources) :
    source ∈ set.sources ∨ ∃ name ∈ names, source.name = label ++ ":" ++ name := by
  induction names generalizing set with
  | nil => exact .inl mem
  | cons name rest ih =>
    rcases ih mem with here | ⟨other, mem', eq⟩
    · exact (name_of_mem_loadFile here).imp_right fun eq => ⟨name, List.mem_cons_self, eq⟩
    · exact .inr ⟨other, List.mem_cons_of_mem _ mem', eq⟩

end Loading

end RuleSet

namespace Watcher

open Sift.FileSystem (pathBelow)
open Sift.Path (IsName ofComponents)

/-! ## The directories that are looked at -/

lemma directoriesOf_eq (trail : List String) (shown : String) (entries : List (String × Entry)) :
    directoriesOf trail shown entries = entries.flatMap fun listed =>
      if isHidden listed.1 then [] else directories (listed.1 :: trail) (Path.join [shown, listed.1]) listed.2 := by
  induction entries with
  | nil => rfl
  | cons first rest ih => rw [directoriesOf, ih, List.flatMap_cons]

/-- The directories at and below an entry are those that lie behind no hidden name. -/
lemma mem_trails_directories {entry} (sound : entry.Sound) {trail trail' shown} :
    trail' ∈ (directories trail shown entry).map (·.trail) ↔
      ∃ ns inner, trail' = ns.reverse ++ trail ∧ entry.below? ns = some (.dir inner) ∧
        ∀ name ∈ ns, isHidden name = false := by
  induction entry using Entry.inductionOn generalizing trail shown with
  | file _ | link _ | device =>
    rw [directories]
    · constructor
      · intro mem
        cases mem
      · rintro ⟨ns, inner, -, found, -⟩
        cases (Entry.eq_of_below?_leaf rfl found).2
    · rintro children ⟨⟩
  | dir entries ih =>
    rw [directories, List.map_cons, List.mem_cons, directoriesOf_eq, List.map_flatMap, List.mem_flatMap]
    constructor
    · rintro (rfl | ⟨⟨name, child⟩, mem, inside⟩)
      · exact ⟨[], entries, rfl, rfl, List.forall_mem_nil _⟩
      · dsimp only at inside
        split at inside
        case isTrue => cases inside
        case isFalse seen =>
          obtain ⟨ns, inner, rfl, found, all⟩ := (ih name child mem (sound.listed mem).2).mp inside
          refine ⟨name :: ns, inner, by simp, ?_, List.forall_mem_cons.mpr ⟨by simpa using seen, all⟩⟩
          rwa [sound.below?_of_mem mem]
    · rintro ⟨ns, inner, rfl, found, all⟩
      cases ns with
      | nil => exact .inl rfl
      | cons name rest =>
        obtain ⟨seen, all⟩ := List.forall_mem_cons.mp all
        rw [Entry.below?, Entry.children] at found
        split at found
        case h_2 => cases found
        case h_1 child listed =>
          have mem := (Entry.mem_iff_lookup sound.nodup).mpr listed
          refine .inr ⟨(name, child), mem, ?_⟩
          dsimp only
          rw [if_neg (by simp [seen])]
          exact (ih name child mem (sound.listed mem).2).mpr ⟨rest, inner, by simp, found, all⟩

lemma mem_trails_insert {watches watch trail} :
    trail ∈ (insert watches watch).map (·.trail) ↔ trail ∈ watches.map (·.trail) ∨ trail = watch.trail := by
  rw [insert]
  split
  case isTrue known =>
    obtain ⟨other, mem, eq⟩ := List.any_eq_true.mp known
    refine ⟨.inl, fun mem' => mem'.elim id ?_⟩
    rintro rfl
    exact List.mem_map.mpr ⟨other, mem, of_decide_eq_true eq⟩
  case isFalse => simp

lemma mem_trails_foldl_insert {watches more : List Watch} {trail} :
    trail ∈ (more.foldl insert watches).map (·.trail) ↔
      trail ∈ watches.map (·.trail) ∨ trail ∈ more.map (·.trail) := by
  induction more generalizing watches with
  | nil => simp
  | cons watch rest ih =>
    rw [List.foldl_cons, ih, mem_trails_insert, or_assoc, List.map_cons, List.mem_cons]

/-- What a watcher looks at after a directory was added. -/
lemma mem_trails_add_iff {fs dir base entries} (sound : fs.root.Sound) {recursive}
    (found : fs.locate (!recursive) dir = .ok ⟨base, some (.dir entries)⟩)
    (place : fs.root.below? base.reverse = some (.dir entries)) {trail} :
    trail ∈ (({ recursive } : Watcher).add fs dir).watches.map (·.trail) ↔
      ∃ ns inner, trail = ns.reverse ++ base ∧ (Entry.dir entries).below? ns = some (.dir inner) ∧
        (∀ name ∈ ns, isHidden name = false) ∧ (recursive = false → ns = []) := by
  have all := @mem_trails_directories _ (sound.of_below? place) base trail (Path.clean dir)
  rw [add, mem_trails_foldl_insert, Watcher.found]
  simp only [found]
  cases recursive with
  | true => simpa using all
  | false =>
    rw [directories]
    constructor
    · rintro (mem | mem)
      · cases mem
      · exact ⟨[], entries, List.mem_singleton.mp mem, rfl, List.forall_mem_nil _, fun _ => rfl⟩
    · rintro ⟨ns, inner, rfl, -, -, top⟩
      obtain rfl := top rfl
      exact .inr (List.mem_singleton.mpr rfl)

/-! ## The rule files in them -/

/-- What the path leads to lies directly in a directory that is looked at. -/
def Covers (watcher : Watcher) (fs : FileSystem) (path : String) : Prop :=
  ∃ watch ∈ watcher.watches, ∃ name entry,
    fs.locate true path = .ok ⟨name :: watch.trail, some entry⟩

section Unlinked

variable {fs : FileSystem} {dir : String} {base : List String} {entries : List (String × Entry)}
  (sound : fs.root.Sound) (unlinked : fs.root.Unlinked)
  (found : fs.locate true dir = .ok ⟨base, some (.dir entries)⟩)
include sound unlinked found

/-- What is not hidden is watched. -/
lemma covers_iff {recursive ns name entry} (place : (Entry.dir entries).below? (ns ++ [name]) = some entry)
    (top : recursive = false → ns = []) :
    (({ recursive } : Watcher).add fs dir).Covers fs (pathBelow dir (ns ++ [name])) ↔
      ∀ part ∈ ns, isHidden part = false := by
  have clean := FileSystem.locate_clean_of_unlinked unlinked found
  rw [← FileSystem.pathBelow_nil] at clean
  obtain ⟨_, _, dir_place, -⟩ := FileSystem.exists_steps_of_locate found
  have names := (sound.of_below? dir_place).isName place
  have real : ∀ target, entry ≠ .link target := by
    rintro target rfl
    refine unlinked (base.reverse ++ (ns ++ [name])) target ?_
    rw [Entry.below?_append, dir_place, Option.bind_some, place]
  have located := FileSystem.locate_pathBelow names clean place real
  have found' : fs.locate (!recursive) dir = .ok ⟨base, some (.dir entries)⟩ := by
    cases recursive with
    | true => rwa [Bool.not_true, FileSystem.locate_false_of_unlinked unlinked]
    | false => exact found
  have looked := fun trail => @mem_trails_add_iff fs dir base entries sound recursive found' dir_place trail
  constructor
  · rintro ⟨watch, mem, last, entry', eq⟩
    rw [located, List.reverse_append] at eq
    obtain ⟨-, trail⟩ := List.cons.inj (congrArg FileSystem.Place.trail (Except.ok.inj eq))
    obtain ⟨ms, inner, eq', -, all, -⟩ := (looked watch.trail).mp (List.mem_map.mpr ⟨watch, mem, rfl⟩)
    rw [← trail] at eq'
    rwa [List.reverse_injective (List.append_cancel_right eq')]
  · intro seen
    rw [Entry.below?_append] at place
    obtain ⟨parent, here, below⟩ := Option.bind_eq_some_iff.mp place
    obtain ⟨inner, rfl⟩ := Entry.exists_dir_of_below? below
    obtain ⟨watch, mem, eq⟩ :=
      List.mem_map.mp ((looked (ns.reverse ++ base)).mpr ⟨ns, inner, rfl, here, seen, top⟩)
    refine ⟨watch, mem, name, entry, ?_⟩
    rw [located, List.reverse_append, eq]
    rfl

end Unlinked

/-- A watcher of a directory looks at the directory of a rule file if and only if none of the directories
on the way to the file is hidden. -/
theorem covers_loaded_iff (set : RuleSet) (label : String) {fs : FileSystem} {dir : String}
    {entries : List (String × Entry)} (sound : fs.root.Sound) (unlinked : fs.root.Unlinked)
    (isDir : fs.stat dir = .ok (.dir entries)) :
    ∃ watcher, Watcher.start fs dir set.recursive = .ok watcher ∧
      (∀ path ∈ RuleSet.ruleFiles fs dir set.recursive,
        (watcher.Covers fs (Path.join [dir, path]) ↔
          ∀ name ∈ (Path.components path).dropLast, isHidden name = false)) ∧
      ∀ source ∈ (set.addDirectory fs dir label).1.sources, source ∈ set.sources ∨
        ∃ path ∈ RuleSet.ruleFiles fs dir set.recursive, source.name = label ++ ":" ++ path := by
  obtain ⟨base, found⟩ := FileSystem.stat_eq_ok_iff.mp isDir
  obtain ⟨_, _, place, ne, -⟩ := FileSystem.exists_steps_of_locate found
  have clean := FileSystem.locate_clean_of_unlinked unlinked found
  rw [← FileSystem.pathBelow_nil] at clean
  refine ⟨({ recursive := set.recursive } : Watcher).add fs dir, ?_, fun path mem => ?_, fun source mem => ?_⟩
  · rw [start, if_neg ne, isDir]
    rfl
  · obtain ⟨ns, entry, rfl, all, below, -⟩ :=
      RuleSet.exists_place_of_mem_ruleFiles sound clean (fun _ => unlinked _) mem
    obtain ⟨front, name, eq, searches, selects⟩ := (RuleSet.mem_ruleFiles sound).mp mem
    have all' := Path.isName_concat (searches.isName sound) (selects.elim fun _ lists => lists.1.isName sound)
    obtain rfl := Path.ofComponents_inj all all' eq
    rw [Entry.below?_append, place, Option.bind_some] at below
    rw [Path.components_ofNames all, List.dropLast_concat]
    refine covers_iff sound unlinked found below fun flat => ?_
    rwa [RuleSet.Searches, flat, if_neg Bool.false_ne_true] at searches
  · rw [RuleSet.addDirectory, if_neg ne, isDir] at mem
    have loaded : source ∈ (set.reportBelow fs dir "." label).1.sources := mem
    rw [RuleSet.reportBelow_fst] at loaded
    exact RuleSet.name_of_mem_loaded loaded

/-- A directory of rules with a hidden directory in it. -/
def hiddenRules : FileSystem :=
  ((⟨.dir [], "/"⟩ : FileSystem).put ["x.json", ".h", "rules"] (.file [])).put ["y.json", "sub", "rules"]
    (.file [])

lemma hiddenRules_sound : hiddenRules.root.Sound :=
  FileSystem.sound_put (FileSystem.sound_put (Entry.sound_of_children rfl) (by decide)) (by decide)

lemma hiddenRules_unlinked : hiddenRules.root.Unlinked := by
  intro names target
  exact @FileSystem.unlinked_put _ _ _ (by decide) []
    (@FileSystem.unlinked_put _ _ _ (by decide) []
      (fun names target link => by cases (Entry.eq_of_below?_leaf rfl link).2)) names target

lemma locate_hiddenRules : ∃ entries, hiddenRules.locate true "/rules" = .ok ⟨["rules"], some (.dir entries)⟩ ∧
    (Entry.dir entries).below? [".h", "x.json"] = some (.file []) ∧
    (Entry.dir entries).below? ["sub", "y.json"] = some (.file []) := by
  have look := @FileSystem.locate_of_below? hiddenRules "/rules" [] (List.forall_mem_nil _) ["rules"] _ (by decide)
    (by decide) (by decide) (by decide) rfl (by rintro target ⟨⟩)
  have clean : pathBelow "/rules" [] = "/rules" := by decide
  exact ⟨_, clean ▸ look, rfl, rfl⟩

lemma mem_ruleFiles_hiddenRules : ".h/x.json" ∈ RuleSet.ruleFiles hiddenRules "/rules" true ∧
    "sub/y.json" ∈ RuleSet.ruleFiles hiddenRules "/rules" true := by
  obtain ⟨entries, found, hidden, visible⟩ := locate_hiddenRules
  have clean : pathBelow "/rules" [] = "/rules" := by decide
  have selected : ∀ {dir name : String}, RuleSet.isRuleFileName name = true →
      (Entry.dir entries).below? ([dir] ++ [name]) = some (.file []) →
        ofComponents false ([dir] ++ [name]) ∈ RuleSet.ruleFiles hiddenRules "/rules" true :=
    fun named => RuleSet.mem_ruleFiles_of_below? hiddenRules_sound (clean ▸ found)
      (show 1 < FileSystem.depthLimit by decide) named
  exact ⟨selected (by decide) hidden, selected (by decide) visible⟩

/-- Of two files that are loaded, one in a hidden directory, a watcher looks at the directory of the other. -/
theorem covers_loaded_beside_hidden :
    hiddenRules.root.Sound ∧ hiddenRules.root.Unlinked ∧ hiddenRules.isDir "/rules" = true ∧
      ∃ watcher, Watcher.start hiddenRules "/rules" true = .ok watcher ∧
        watcher.Covers hiddenRules "/rules/sub/y.json" ∧ ¬ watcher.Covers hiddenRules "/rules/.h/x.json" := by
  obtain ⟨entries, found, -⟩ := locate_hiddenRules
  have isDir := FileSystem.stat_eq_ok_iff.mpr ⟨_, found⟩
  obtain ⟨watcher, started, covers, -⟩ :=
    covers_loaded_iff { recursive := true } "custom" hiddenRules_sound hiddenRules_unlinked isDir
  refine ⟨hiddenRules_sound, hiddenRules_unlinked, by rw [FileSystem.isDir, isDir]; rfl, watcher, started, ?_, ?_⟩
  · exact (covers _ mem_ruleFiles_hiddenRules.2).mpr (by decide)
  · exact fun seen => absurd ((covers _ mem_ruleFiles_hiddenRules.1).mp seen) (by decide)

/-- A rule file is loaded from a hidden directory, which is not looked at. -/
theorem loaded_not_covered : ".h/x.json" ∈ RuleSet.ruleFiles hiddenRules "/rules" true ∧
    ¬ (({ recursive := true } : Watcher).add hiddenRules "/rules").Covers hiddenRules "/rules/.h/x.json" := by
  obtain ⟨entries, found, place, -⟩ := locate_hiddenRules
  refine ⟨mem_ruleFiles_hiddenRules.1, fun seen => ?_⟩
  have hidden := @covers_iff _ _ _ _ hiddenRules_sound hiddenRules_unlinked found true [".h"] _ _ place
    (by rintro ⟨⟩)
  exact absurd (hidden.mp seen) (by decide)

end Watcher

end Sift
