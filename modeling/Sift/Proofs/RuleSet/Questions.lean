import Mathlib.Data.Multiset.ZeroCons
import Sift.Proofs.Path
import Sift.Proofs.RuleSet.Candidates
import Sift.Proofs.Utf8

/-!
# Questions about files

The languages of a file are the one that its name tells and some that are the same for all files. The name
of the former has no comma (`Language.comma_not_mem_ofFileName`). So the parts of the joined names between
the commas tell it from the others, and the keys of questions about files tell their languages
(`RuleSet.normalize_resolve_eq`).
-/

namespace Sift

namespace Language

/-- The characters of a name are ASCII, and no comma is among them. -/
def IsPlain (name : String) : Prop := ∀ c ∈ name.toList, c.toNat < 128 ∧ c ≠ ','

/-- Whether all bytes of a name are ASCII and none is a comma. It takes less to look at the bytes of a name in
a table than at its characters. -/
def hasPlainBytes (name : String) : Bool := name.toUTF8.data.toList.all fun b => Nat.blt b.toNat 128 && b.toNat != 44

lemma isPlain_of_hasPlainBytes {name} (plain : hasPlainBytes name = true) : IsPlain name := by
  intro c mem
  rw [hasPlainBytes, Utf8.toList_toUTF8, List.all_eq_true] at plain
  obtain ⟨b, rest, bytes⟩ := List.exists_cons_of_ne_nil (Utf8.utf8EncodeChar_ne_nil c)
  have first : b ∈ String.utf8EncodeChar c := bytes ▸ List.mem_cons_self
  have plain := plain b (List.mem_flatMap.mpr ⟨c, mem, first⟩)
  rw [Bool.and_eq_true, Nat.blt_eq, bne_iff_ne] at plain
  have code : b.toNat = c.toNat := ((Utf8.sequence_encode c).byte_cases first).resolve_right (by omega)
  rw [code] at plain
  refine ⟨plain.1, ?_⟩
  rintro rfl
  exact plain.2 rfl

lemma isPlain_lowerChar {c} (ascii : c.toNat < 128) (ne : c ≠ ',') :
    (Unicode.lowerChar c).toNat < 128 ∧ Unicode.lowerChar c ≠ ',' := by
  have all : ∀ n < 128, Char.ofNat n ≠ ',' →
      (Unicode.lowerChar (Char.ofNat n)).toNat < 128 ∧ Unicode.lowerChar (Char.ofNat n) ≠ ',' := by decide
  have this := all c.toNat ascii
  rw [Char.ofNat_toNat] at this
  exact this ne

lemma IsPlain.map {name} (plain : IsPlain name) {f}
    (kept : ∀ c : Char, c.toNat < 128 → c ≠ ',' → (f c).toNat < 128 ∧ f c ≠ ',') : IsPlain (name.map f) := by
  intro c mem
  rw [String.toList_map, List.mem_map] at mem
  obtain ⟨d, mem, rfl⟩ := mem
  exact kept d (plain d mem).1 (plain d mem).2

lemma IsPlain.lowerString {name} (plain : IsPlain name) : IsPlain (Unicode.lowerString name) :=
  plain.map fun _ => isPlain_lowerChar

/-- A plain name stays plain. -/
lemma IsPlain.normalize {name} (plain : IsPlain name) : IsPlain (Text.normalize name) := by
  have trimmed : IsPlain (Text.trim name) := by
    intro c mem
    rw [Text.trim, String.toList_ofList, Text.trimChars, List.mem_reverse] at mem
    have mem := (List.dropWhile_sublist _).subset mem
    exact plain c ((List.dropWhile_sublist _).subset (List.mem_reverse.mp mem))
  exact trimmed.lowerString

lemma mem_of_lookup {β : Type} {key value} {entries : List (String × β)} (found : entries.lookup key = some value) :
    (key, value) ∈ entries := by
  obtain ⟨front, back, rfl, -⟩ := List.lookup_eq_some_iff.mp found
  exact List.mem_append_right _ List.mem_cons_self

lemma IsPlain.ofRegistryName {name : String} (plain : IsPlain name) : IsPlain (ofRegistryName name) := by
  have known : ∀ entry ∈ aliases, hasPlainBytes entry.2 = true := by decide +kernel
  unfold Language.ofRegistryName
  dsimp only
  cases found : aliases.lookup (Unicode.lowerString name) with
  | none =>
    refine plain.lowerString.map fun c ascii ne => ?_
    split
    · decide
    · exact ⟨ascii, ne⟩
  | some other => exact isPlain_of_hasPlainBytes (known _ (mem_of_lookup found))

lemma isPlain_of_registeredExtension? {cs name} (found : registeredExtension? cs = some (some name)) :
    IsPlain name := by
  have known : ∀ row ∈ extensionRows, hasPlainBytes row.1 = true := by decide +kernel
  fun_induction registeredExtension? cs with
  | case1 => cases found
  | case2 rest entry listed =>
    obtain rfl := Option.some.inj found
    have mem := mem_of_lookup listed
    rw [extensionEntries, List.mem_append] at mem
    rcases mem with shared | single
    · obtain ⟨_, _, eq⟩ := List.mem_map.mp shared
      cases eq
    · obtain ⟨row, isRow, listed⟩ := List.mem_flatMap.mp single
      obtain ⟨_, _, eq⟩ := List.mem_map.mp listed
      cases eq
      exact isPlain_of_hasPlainBytes (known row isRow)
  | case3 rest _ ih => exact ih found
  | case4 c rest _ ih => exact ih found

lemma IsPlain.registered? {name found} (plain : ∀ name' ∈ name, IsPlain name') (eq : registered? name = some found) :
    IsPlain found := by
  cases name with
  | none => cases eq
  | some name =>
    unfold Language.registered? at eq
    dsimp only at eq
    split at eq
    · cases eq
    · obtain rfl := Option.some.inj eq
      exact (plain name rfl).ofRegistryName

/-- The language that a file's name tells is plain. -/
lemma isPlain_ofFileName (fileName : String) : IsPlain (ofFileName fileName) := by
  have names : ∀ entry ∈ knownFileNames, hasPlainBytes entry.2 = true := by decide +kernel
  have extensions : ∀ row ∈ knownExtensions, hasPlainBytes row.1 = true := by decide +kernel
  have rows : ∀ row ∈ fileNameRows, hasPlainBytes row.1 = true := by decide +kernel
  have unknown : IsPlain unknown := isPlain_of_hasPlainBytes (by decide +kernel)
  unfold ofFileName
  dsimp only
  split
  case isTrue => exact unknown
  case isFalse =>
    generalize Unicode.lowerString (Path.base fileName) = lower
    cases found : knownFileNames.lookup lower <|> _ with
    | none => exact unknown
    | some name =>
      simp only [Option.orElse_eq_some] at found
      rcases found with named | ⟨-, extended | ⟨-, registered | ⟨-, registered⟩⟩⟩
      · exact isPlain_of_hasPlainBytes (names _ (mem_of_lookup named))
      · obtain ⟨row, first, rfl⟩ := Option.map_eq_some_iff.mp extended
        exact isPlain_of_hasPlainBytes (extensions row (List.mem_of_find?_eq_some first))
      · refine IsPlain.registered? (fun name' joined => ?_) registered
        exact isPlain_of_registeredExtension? (Option.join_eq_some_iff.mp joined)
      · refine IsPlain.registered? (fun name' listed => ?_) registered
        obtain ⟨row, isRow, listed⟩ := List.mem_flatMap.mp (mem_of_lookup listed)
        obtain ⟨_, _, eq⟩ := List.mem_map.mp listed
        cases eq
        exact isPlain_of_hasPlainBytes (rows row isRow)

lemma mem_foldl_addNew {name} {names others : List String} :
    name ∈ others.foldl Resolver.addNew names ↔ name ∈ names ∨ name ∈ others := by
  induction others generalizing names with
  | nil => simp
  | cons other rest ih =>
    have added : name ∈ Resolver.addNew names other ↔ name ∈ names ∨ name = other := by
      unfold Resolver.addNew
      split
      case isTrue known =>
        rw [List.contains_iff_mem] at known
        exact ⟨.inl, fun either => either.elim id fun eq => eq ▸ known⟩
      case isFalse => rw [List.mem_append, List.mem_singleton]
    rw [List.foldl_cons, ih, added, List.mem_cons, or_assoc]

/-- The languages that a resolver gives every file. -/
def Resolver.common (resolver : Resolver) : List String :=
  (resolver.contentTypes.lookup (Text.normalize "")).getD []

/-- A file has the language of its name and those that every file has. -/
lemma mem_normalize_resolve {resolver : Resolver} {path language : String} :
    language ∈ normalize (resolver.resolve "" path) ↔
      (language ≠ "" ∧ language = Text.normalize (ofFileName path)) ∨ language ∈ normalize resolver.common := by
  have mem : ∀ name, name ∈ resolver.resolve "" path ↔ name = ofFileName path ∨ name ∈ resolver.common := by
    intro name
    rw [Resolver.resolve, mem_foldl_addNew, List.mem_singleton]
    rfl
  simp only [mem_normalize, mem]
  constructor
  · rintro ⟨some, name, rfl | common, rfl⟩
    · exact .inl ⟨some, rfl⟩
    · exact .inr ⟨some, name, common, rfl⟩
  · rintro (⟨some, rfl⟩ | ⟨some, name, common, rfl⟩)
    · exact ⟨some, _, .inl rfl, rfl⟩
    · exact ⟨some, name, .inr common, rfl⟩

/-- The normalized languages of a file are those that every file has, or these with one more. -/
lemma normalize_resolve_cases (resolver : Resolver) (path : String) :
    normalize (resolver.resolve "" path) = normalize resolver.common ∨
      Text.normalize (ofFileName path) ≠ "" ∧
        (normalize (resolver.resolve "" path)).Perm (Text.normalize (ofFileName path) :: normalize resolver.common) := by
  by_cases new : Text.normalize (ofFileName path) = "" ∨ Text.normalize (ofFileName path) ∈ normalize resolver.common
  · left
    refine (normalize_pairwise _).eq_of_mem_iff (normalize_pairwise _) fun language => ?_
    rw [mem_normalize_resolve]
    refine ⟨fun either => either.elim ?_ id, .inr⟩
    rintro ⟨some, rfl⟩
    exact new.resolve_left some
  · right
    rw [not_or] at new
    refine ⟨new.1, (List.perm_ext_iff_of_nodup (normalize_nodup _) ?_).mpr fun language => ?_⟩
    · exact List.nodup_cons.mpr ⟨new.2, normalize_nodup _⟩
    · rw [mem_normalize_resolve, List.mem_cons]
      refine or_congr_left ⟨And.right, ?_⟩
      rintro rfl
      exact ⟨new.1, rfl⟩

end Language

namespace RuleSet

/-- What stands between the commas of a text, where anything does. -/
def commaParts (s : String) : List (List Char) := (Text.splitChars ',' s.toList).filter (! ·.isEmpty)

/-- Joined names are parted at the commas again. -/
lemma commaParts_joined (names : List String) : commaParts (",".intercalate names) = names.flatMap commaParts := by
  induction names with
  | nil => rfl
  | cons name rest ih =>
    cases rest with
    | nil => rw [String.intercalate_singleton, List.flatMap_singleton]
    | cons next rest =>
      have chars : (name ++ "," ++ ",".intercalate (next :: rest)).toList =
          name.toList ++ ',' :: (",".intercalate (next :: rest)).toList := by
        simp
      rw [String.intercalate_cons_cons, commaParts, chars, Text.splitChars_append, List.filter_append]
      exact congrArg (commaParts name ++ ·) ih

lemma commaParts_of_plain {name} (plain : ',' ∉ name.toList) (some : name ≠ "") :
    commaParts name = [name.toList] := by
  rw [commaParts, Text.splitChars_of_not_mem plain, List.filter_cons_of_pos (by simpa using some), List.filter_nil]

/-- Files whose languages have the same joined names have the same languages. -/
lemma normalize_resolve_eq {resolver : Language.Resolver} {path path'}
    (eq : joinedNames (resolver.resolve "" path) = joinedNames (resolver.resolve "" path')) :
    Language.normalize (resolver.resolve "" path) = Language.normalize (resolver.resolve "" path') := by
  have parts := congrArg commaParts eq
  rw [joinedNames, joinedNames, commaParts_joined, commaParts_joined] at parts
  -- One more language is one more part, so that both files have one or none has.
  have more : ∀ path, Text.normalize (Language.ofFileName path) ≠ "" →
      (Language.normalize (resolver.resolve "" path)).Perm
        (Text.normalize (Language.ofFileName path) :: Language.normalize resolver.common) →
      ((Language.normalize (resolver.resolve "" path)).flatMap commaParts).Perm
        ((Text.normalize (Language.ofFileName path)).toList ::
          (Language.normalize resolver.common).flatMap commaParts) := by
    intro path some perm
    have plain : ',' ∉ (Text.normalize (Language.ofFileName path)).toList := fun mem =>
      ((Language.isPlain_ofFileName path).normalize _ mem).2 rfl
    have perm := perm.flatMap_right commaParts
    rwa [List.flatMap_cons, commaParts_of_plain plain some, List.singleton_append] at perm
  rcases Language.normalize_resolve_cases resolver path with same | ⟨some, perm⟩
  · rcases Language.normalize_resolve_cases resolver path' with same' | ⟨some', perm'⟩
    · rw [same, same']
    · have length := (more path' some' perm').length_eq
      rw [← parts, same, List.length_cons] at length
      omega
  · rcases Language.normalize_resolve_cases resolver path' with same' | ⟨some', perm'⟩
    · have length := (more path some perm).length_eq
      rw [parts, same', List.length_cons] at length
      omega
    · have perms := (more path some perm).symm.trans (parts ▸ more path' some' perm')
      have head : Text.normalize (Language.ofFileName path) = Text.normalize (Language.ofFileName path') := by
        rw [← Multiset.coe_eq_coe, ← Multiset.cons_coe, ← Multiset.cons_coe, Multiset.cons_inj_left] at perms
        exact String.toList_inj.mp perms
      exact (Language.normalize_pairwise _).eq_of_mem_iff (Language.normalize_pairwise _) fun language =>
        (perm.trans (head ▸ perm'.symm)).mem_iff

end RuleSet

end Sift
