import Sift.Proofs.Language

/-!
# Content types that a host adds

Content types are added under their names in lower case and looked up trimmed and in lower case. So an
added one is not found if there is white space around its name, and where several come to the same name,
the one that is added last counts. What a content type may stand for, in whatever order the types are added,
is what it is offered (`Offers`). A type is honoured in every order just when each offer has its languages
(`resolve_honours_iff`).
-/

namespace Sift.Language.Resolver

/-- What a content type may stand for: the languages of an added type with its name, or the known ones where
there is none. -/
inductive Offers (extra : List (String × List String)) (type : String) : List String → Prop
  | added {entry : String × List String} (mem : entry ∈ extra)
    (name : Unicode.lowerString entry.1 = Text.normalize type) : Offers extra type (normalize entry.2)
  | known (none : ∀ entry ∈ extra, Unicode.lowerString entry.1 ≠ Text.normalize type) :
    Offers extra type ((knownContentTypes.lookup (Text.normalize type)).getD [])

/-- The languages that a resolver finds for a content type. -/
def ofType (resolver : Resolver) (type : String) : List String :=
  (resolver.contentTypes.lookup (Text.normalize type)).getD []

variable {extra order : List (String × List String)} {type : String} {offer : List String}

/-- What is found for a type is offered to it. -/
lemma offers_of_perm (perm : order.Perm extra) : Offers extra type ((withExtra order).ofType type) := by
  rw [ofType, withExtra, List.lookup_append]
  cases found : ((order.map fun entry => (Unicode.lowerString entry.1, normalize entry.2)).reverse).lookup
      (Text.normalize type) with
  | some languages =>
    obtain ⟨front, back, eq, _⟩ := List.lookup_eq_some_iff.mp found
    have mem : (Text.normalize type, languages) ∈
        order.map fun entry => (Unicode.lowerString entry.1, normalize entry.2) := by
      rw [← List.mem_reverse, eq]
      exact List.mem_append_right _ List.mem_cons_self
    obtain ⟨entry, listed, eq⟩ := List.mem_map.mp mem
    obtain ⟨name, rfl⟩ := Prod.mk.inj eq
    exact .added (perm.mem_iff.mp listed) name
  | none =>
    rw [Option.none_or]
    refine .known fun entry mem same => ?_
    have listed := List.mem_reverse.mpr
      (List.mem_map_of_mem (f := fun entry => (Unicode.lowerString entry.1, normalize entry.2))
        (perm.mem_iff.mpr mem))
    exact absurd same.symm (bne_iff_ne.mp (List.lookup_eq_none_iff.mp found _ listed))

/-- What is offered to a type is found for it in some order. -/
lemma Offers.exists_order (offers : Offers extra type offer) :
    ∃ order, order.Perm extra ∧ (withExtra order).ofType type = offer := by
  cases offers with
  | @added entry mem name =>
    refine ⟨extra.erase entry ++ [entry], ?_, ?_⟩
    · exact List.perm_append_comm.trans (List.perm_cons_erase mem).symm
    · rw [ofType, withExtra, List.map_append, List.reverse_append, List.map_singleton,
        List.reverse_singleton, List.singleton_append, List.cons_append, name, List.lookup_cons_self,
        Option.getD_some]
  | known none =>
    refine ⟨extra, .refl _, ?_⟩
    have absent : ((extra.map fun entry => (Unicode.lowerString entry.1, normalize entry.2)).reverse).lookup
        (Text.normalize type) = .none := by
      refine List.lookup_eq_none_iff.mpr fun row listed => ?_
      obtain ⟨entry, mem, rfl⟩ := List.mem_map.mp (List.mem_reverse.mp listed)
      exact bne_iff_ne.mpr (none entry mem).symm
    rw [ofType, withExtra, List.lookup_append, absent, Option.none_or]

lemma Offers.nodup (offers : Offers extra type offer) : offer.Nodup := by
  cases offers with
  | added => exact normalize_nodup _
  | known =>
    have all : ∀ row ∈ knownContentTypes, row.2.Nodup := by decide
    cases found : knownContentTypes.lookup (Text.normalize type) with
    | none => exact List.nodup_nil
    | some languages =>
      obtain ⟨front, back, eq, _⟩ := List.lookup_eq_some_iff.mp found
      exact all (_, languages) (eq ▸ List.mem_append_right _ List.mem_cons_self)

/-- Appending new names one by one appends those that are not there yet. -/
lemma foldl_addNew {names : List String} (nodup : names.Nodup) (start : List String) :
    names.foldl addNew start = start ++ names.filter (· ∉ start) := by
  induction names generalizing start with
  | nil => rw [List.foldl_nil, List.filter_nil, List.append_nil]
  | cons name rest ih =>
    obtain ⟨new, nodup⟩ := List.nodup_cons.mp nodup
    rw [List.foldl_cons, ih nodup, addNew]
    by_cases mem : name ∈ start
    · rw [if_pos (List.contains_iff_mem.mpr mem), List.filter_cons_of_neg (by simpa using mem)]
    · rw [if_neg (by simpa using mem), List.filter_cons_of_pos (by simpa using mem), List.append_assoc,
        List.singleton_append]
      refine congrArg (start ++ name :: ·) (List.filter_congr fun other later => ?_)
      have ne : other ≠ name := fun eq => new (eq ▸ later)
      simp [ne]

/-- The languages of a file: the one of its name, then the others of its content type. -/
lemma resolve_eq (perm : order.Perm extra) (type file : String) :
    (withExtra order).resolve type file =
      ofFileName file :: ((withExtra order).ofType type).filter (· ≠ ofFileName file) := by
  have offers : Offers extra type ((withExtra order).ofType type) := offers_of_perm perm
  have all := foldl_addNew offers.nodup [ofFileName file]
  simp only [List.mem_singleton, List.singleton_append] at all
  exact all

lemma mem_resolve (perm : order.Perm extra) {type file language} :
    language ∈ (withExtra order).resolve type file ↔
      language = ofFileName file ∨ language ∈ (withExtra order).ofType type := by
  rw [resolve_eq perm, List.mem_cons, List.mem_filter, decide_eq_true_eq]
  tauto

/-- No language is that of every file. -/
lemma exists_ofFileName_ne (language : String) : ∃ file, ofFileName file ≠ language := by
  have two : ofFileName "" = "unknown" ∧ ofFileName "a.go" = "go" := by decide +kernel
  by_cases same : language = "unknown"
  · exact ⟨"a.go", by rw [two.2, same]; decide⟩
  · exact ⟨"", by rw [two.1]; exact Ne.symm same⟩

/-- Languages are found for every file just when they are found for the type. -/
lemma forall_mem_resolve_iff (perm : order.Perm extra) {type language} :
    (∀ file, language ∈ (withExtra order).resolve type file) ↔ language ∈ (withExtra order).ofType type := by
  constructor
  · intro all
    obtain ⟨file, ne⟩ := exists_ofFileName_ne language
    exact ((mem_resolve perm).mp (all file)).resolve_left ne.symm
  · intro mem file
    exact (mem_resolve perm).mpr (.inr mem)

/-- Two offers with the same languages are the same. -/
lemma Offers.eq_of_mem_iff {offer'} (offers : Offers extra type offer) (offers' : Offers extra type offer')
    (same : ∀ language, language ∈ offer ↔ language ∈ offer') :
    offer = offer' := by
  cases offers with
  | added mem name =>
    cases offers' with
    | added => exact (normalize_pairwise _).eq_of_mem_iff (normalize_pairwise _) same
    | known none => exact absurd name (none _ mem)
  | known none =>
    cases offers' with
    | added mem name => exact absurd name (none _ mem)
    | known => rfl

lemma trimChars_sublist (cs : List Char) : (Text.trimChars cs).Sublist cs := by
  have front : (Text.trimFront cs).Sublist cs := (List.dropWhile_suffix _).sublist
  have back : (Text.trimFront (Text.trimFront cs).reverse).Sublist (Text.trimFront cs).reverse :=
    (List.dropWhile_suffix _).sublist
  rw [← List.reverse_sublist, List.reverse_reverse] at back
  exact back.trans front

/-- A name with white space around it is not looked up as it is put down. -/
lemma lowerString_ne_normalize (spaced : Text.trim type ≠ type) :
    Unicode.lowerString type ≠ Text.normalize type := by
  intro eq
  have length := congrArg (·.toList.length) eq
  simp only [Text.normalize, Unicode.lowerString, String.toList_map, List.length_map, Text.trim,
    String.toList_ofList] at length
  have whole := (trimChars_sublist type.toList).eq_of_length length.symm
  exact spaced (by rw [Text.trim, whole, String.ofList_toList])

/-- A type with white space around its name is not found under it. -/
lemma ofType_of_spaced (spaced : Text.trim type ≠ type) (languages : List String)
    (front back : List (String × List String)) :
    (withExtra (front ++ (type, languages) :: back)).ofType type =
      (withExtra (front ++ back)).ofType type := by
  have ne : (Text.normalize type == Unicode.lowerString type) = false :=
    beq_eq_false_iff_ne.mpr (lowerString_ne_normalize spaced).symm
  simp only [ofType, withExtra, List.map_append, List.map_cons, List.reverse_append, List.reverse_cons,
    List.append_assoc, List.lookup_append, List.singleton_append, List.lookup_cons, ne]

lemma nodup_resolve (perm : order.Perm extra) (type file : String) :
    ((withExtra order).resolve type file).Nodup := by
  have offers : Offers extra type ((withExtra order).ofType type) := offers_of_perm perm
  rw [resolve_eq perm]
  refine List.nodup_cons.mpr ⟨fun mem => ?_, offers.nodup.filter _⟩
  exact absurd rfl (of_decide_eq_true (List.mem_filter.mp mem).2)

/-- Languages are found in every order just when they are in each offer. -/
lemma forall_order_mem_iff (languages : List String) :
    (∀ order, order.Perm extra → ∀ file, ∀ language ∈ languages,
        language ∈ (withExtra order).resolve type file) ↔
      ∀ offer, Offers extra type offer → ∀ language ∈ languages, language ∈ offer := by
  constructor
  · intro honours offer offers language mem
    obtain ⟨order, perm, rfl⟩ := offers.exists_order
    exact (forall_mem_resolve_iff perm).mp fun file => honours order perm file language mem
  · intro all order perm file language mem
    exact (forall_mem_resolve_iff perm).mpr (all _ (offers_of_perm perm) language mem) file

/-- The order makes no difference just when there is one offer only. -/
lemma forall_order_eq_iff :
    (∀ order order', order.Perm extra → order'.Perm extra → ∀ file,
        (withExtra order).resolve type file = (withExtra order').resolve type file) ↔
      ∀ offer offer', Offers extra type offer → Offers extra type offer' → offer = offer' := by
  constructor
  · intro same offer offer' offers offers'
    obtain ⟨order, perm, rfl⟩ := offers.exists_order
    obtain ⟨order', perm', rfl⟩ := offers'.exists_order
    refine offers.eq_of_mem_iff offers' fun language => ?_
    rw [← forall_mem_resolve_iff perm, ← forall_mem_resolve_iff perm']
    exact forall_congr' fun file => by rw [same order order' perm perm' file]
  · intro one order order' perm perm' file
    rw [resolve_eq perm, resolve_eq perm', one _ _ (offers_of_perm perm) (offers_of_perm perm')]

/-- A type with no white space around its name is offered its own languages alone, if these are the
languages of all types with its name but for case. -/
lemma offers_iff_of_alike {languages} (mem : (type, languages) ∈ extra) (trimmed : Text.trim type = type)
    (alike : ∀ entry ∈ extra, Unicode.lowerString entry.1 = Unicode.lowerString type →
      normalize entry.2 = normalize languages) :
    Offers extra type offer ↔ offer = normalize languages := by
  have name : Text.normalize type = Unicode.lowerString type := by rw [Text.normalize, trimmed]
  constructor
  · rintro (⟨mem', name'⟩ | none)
    · exact alike _ mem' (name'.trans name)
    · exact absurd name.symm (none _ mem)
  · rintro rfl
    exact .added mem name.symm

/-- The languages of a file begin with that of its name, and none of them is there twice. Those of a content
type are among them, in whatever order types are added, just when they are in each offer to the type; and
the order makes no difference just when there is one offer only. A type is offered its own languages alone if
there is no white space around its name and all types that have its name but for case have the same
languages. With white space around its name it makes no difference that it is added. -/
theorem resolve_honours_iff (extra : List (String × List String)) (type : String)
    (languages : List String) :
    (∀ order, order.Perm extra → ∀ file,
      ((withExtra order).resolve type file).head? = some (ofFileName file) ∧
        ((withExtra order).resolve type file).Nodup) ∧
    ((∀ order, order.Perm extra → ∀ file, ∀ language ∈ normalize languages,
        language ∈ (withExtra order).resolve type file) ↔
      ∀ offer, Offers extra type offer → ∀ language ∈ normalize languages, language ∈ offer) ∧
    ((∀ order order', order.Perm extra → order'.Perm extra → ∀ file,
        (withExtra order).resolve type file = (withExtra order').resolve type file) ↔
      ∀ offer offer', Offers extra type offer → Offers extra type offer' → offer = offer') ∧
    ((type, languages) ∈ extra → Text.trim type = type →
      (∀ entry ∈ extra, Unicode.lowerString entry.1 = Unicode.lowerString type →
        normalize entry.2 = normalize languages) →
      ∀ offer, Offers extra type offer ↔ offer = normalize languages) ∧
    (Text.trim type ≠ type → ∀ front back file,
      (withExtra (front ++ (type, languages) :: back)).resolve type file =
        (withExtra (front ++ back)).resolve type file) := by
  refine ⟨?_, forall_order_mem_iff _, forall_order_eq_iff, ?_, ?_⟩
  · intro order perm file
    exact ⟨by rw [resolve_eq perm, List.head?_cons], nodup_resolve perm type file⟩
  · intro mem trimmed alike offer
    exact offers_iff_of_alike mem trimmed alike
  · intro spaced front back file
    rw [resolve_eq (.refl _), resolve_eq (.refl _), ofType_of_spaced spaced]

/-- A type with white space around its name does not get its languages, and of two types with the same name
but for case only the one that is added last does. -/
theorem resolve_of_spaced_and_doubled :
    (withExtra [(" jinja ", ["html"])]).resolve " jinja " "a.go" = ["go"] ∧ "html" ∈ normalize ["html"] ∧
      (withExtra [("Jinja", ["html"]), ("jinja", ["python"])]).resolve "jinja" "a.go" = ["go", "python"] ∧
      (withExtra [("jinja", ["python"]), ("Jinja", ["html"])]).resolve "jinja" "a.go" = ["go", "html"] := by
  have names : Text.normalize " jinja " = "jinja" ∧ Text.normalize "jinja" = "jinja" ∧
      Unicode.lowerString " jinja " = " jinja " ∧ Unicode.lowerString "Jinja" = "jinja" ∧
      Unicode.lowerString "jinja" = "jinja" := by decide +kernel
  have lists : normalize ["html"] = ["html"] ∧ normalize ["python"] = ["python"] := by decide +kernel
  have go : ofFileName "a.go" = "go" := by decide +kernel
  simp only [resolve, withExtra, List.map_cons, List.map_nil, names, lists, go]
  decide +kernel

end Sift.Language.Resolver
