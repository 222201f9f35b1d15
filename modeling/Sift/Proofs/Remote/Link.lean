import Mathlib.Data.List.Flatten
import Sift.Proofs.Json.Scalars
import Sift.Proofs.Remote.Spelling
import Sift.Proofs.Url.Reference

/-!
# Links to lines of a file

A link is put together from the host, a lead that names repository and revision, the path of the file, and on
some hosts a query (`Remote.fileLink_eq`). Main statements: a link leads to the file and the lines it was
made for exactly if no character of the file's path has a meaning of its own in links; and a link to a
Bitbucket host is read as a remote of the repository it was made for.
-/

namespace Sift

namespace Text

/-- All characters of a string are of a kind. -/
def MadeOf (kind : Char → Bool) (s : String) : Prop := s.toList.all kind = true

instance (kind : Char → Bool) (s : String) : Decidable (MadeOf kind s) := inferInstanceAs (Decidable (_ = _))

section MadeOf

variable {kind kind' : Char → Bool} {s t : String}

lemma madeOf_iff : MadeOf kind s ↔ ∀ c ∈ s.toList, kind c = true := List.all_eq_true

/-- What is made of a kind is so in both halves. -/
lemma madeOf_append : MadeOf kind (s ++ t) ↔ MadeOf kind s ∧ MadeOf kind t := by
  rw [madeOf_iff, madeOf_iff, madeOf_iff, String.toList_append, List.forall_mem_append]

lemma MadeOf.mono (made : MadeOf kind s) (le : ∀ c, kind c = true → kind' c = true) : MadeOf kind' s :=
  madeOf_iff.mpr fun c mem => le c (madeOf_iff.mp made c mem)

/-- A character of another kind is not there. -/
lemma MadeOf.not_mem (made : MadeOf kind s) {c} (other : kind c = false) : c ∉ s.toList := fun mem =>
  absurd (madeOf_iff.mp made c mem) (by rw [other]; exact Bool.false_ne_true)

/-- Nor is its byte. -/
lemma MadeOf.byte_not_mem (made : MadeOf kind s) {c b} (other : kind c = false) (code : c.toNat = b.toNat)
    (ascii : b.toNat < 0x80) : b ∉ Utf8.ofString s := by
  intro mem
  obtain ⟨d, mem, eq⟩ := Utf8.exists_of_mem_ofString mem ascii
  obtain rfl : d = c := Char.toNat_inj.mp (eq.trans code.symm)
  exact made.not_mem other mem

/-- Dropping a lead keeps the kind. -/
lemma MadeOf.dropLead (made : MadeOf kind s) (lead : String) : MadeOf kind (dropLead s lead) := by
  unfold Text.dropLead
  split
  · rw [madeOf_iff, String.toList_ofList]
    exact fun c mem => madeOf_iff.mp made c (List.mem_of_mem_drop mem)
  · exact made

end MadeOf

end Text

namespace Remote

open Sift.Text (MadeOf madeOf_iff madeOf_append)

open Sift.Url (isAlnum isPlain IsClear InHost Decodes Reference)

/-- Whether a character can stand in a path of names. -/
def isPathChar (c : Char) : Bool := isNameChar c || c = '/'

/-- Whether a character can stand in what is put around the path of a file. -/
def isLinkChar (c : Char) : Bool := isPathChar c || c = ':' || c = '?' || c = '='

/-- A remote and a revision that links can be made for: none is missing, and all are made of characters of
names. -/
structure Linkable (remote : Remote) (ref : String) : Prop where
  host_ne : remote.host ≠ ""
  owner_ne : remote.owner ≠ ""
  repository_ne : remote.repository ≠ ""
  ref_ne : ref ≠ ""
  host : MadeOf isNameChar remote.host
  owner : MadeOf isPathChar remote.owner
  repository : MadeOf isNameChar remote.repository
  ref : MadeOf isNameChar ref

/-- What stands between the host and the path of the file. -/
def linkLead (remote : Remote) (ref : String) : String :=
  match remote.forge with
  | .gitlab => remote.owner ++ "/" ++ remote.repository ++ "/-/blob/" ++ ref
  | .bitbucket => bitbucketOwner remote.owner ++ "/repos/" ++ remote.repository ++ "/browse"
  | _ => remote.owner ++ "/" ++ remote.repository ++ "/blob/" ++ ref

/-- What stands behind the path of the file. -/
def linkQuery (remote : Remote) (ref : String) : String :=
  if remote.forge = .bitbucket then "?at=" ++ ref else ""

/-- The lines that a link points at, as its host writes them. -/
def lineRange (forge : Forge) (first last : Int) : String :=
  match forge with
  | .gitlab => if last ≤ first then "L" ++ toString first else "L" ++ toString first ++ "-" ++ toString last
  | .bitbucket => if last ≤ first then toString first else toString first ++ "-" ++ toString last
  | _ => if last ≤ first then "L" ++ toString first else "L" ++ toString first ++ "-L" ++ toString last

/-- A link leads to a file and to lines of it. -/
def Addresses (link file lines : String) : Prop :=
  ∃ reference, Reference.parse link = .ok reference ∧ Utf8.ofString ("/" ++ file) <:+ reference.path ∧
    reference.fragment = Utf8.ofString lines

section Parts

variable {remote : Remote} {ref : String}

/-- The parts of a link to a file. -/
lemma fileLink_eq (remote : Remote) (ref file : String) : remote.fileLink ref file =
    "https://" ++ remote.host ++ "/" ++ remote.linkLead ref ++ "/" ++ file ++ remote.linkQuery ref := by
  unfold fileLink linkLead linkQuery
  cases remote.forge <;> simp [String.append_assoc]

/-- The characters of a link to a file. -/
lemma toList_fileLink (remote : Remote) (ref file : String) : (remote.fileLink ref file).toList =
    "https".toList ++ ':' :: '/' :: '/' :: (remote.host.toList ++
      '/' :: ((remote.linkLead ref).toList ++ '/' :: (file.toList ++ (remote.linkQuery ref).toList))) := by
  simp [fileLink_eq]

/-- From the first line on, an anchor names a range. -/
lemma lineAnchor_eq (forge : Forge) {first} (positive : 1 ≤ first) (last : Int) :
    lineAnchor forge first last = "#" ++ lineRange forge first last := by
  have some : ¬ first ≤ 0 := by omega
  unfold lineAnchor lineRange
  rw [if_neg some, ← String.toList_inj]
  cases forge <;> split <;> simp

/-- A number is made of characters of names. -/
lemma madeOf_toString (n : Int) : MadeOf isNameChar (toString n) := by
  have digit : ∀ n : Nat, ∀ c ∈ Nat.toDigits 10 n, isNameChar c = true := by
    intro n c mem
    have digit : c.isDigit = true := Nat.isDigit_of_mem_toDigits (by decide) (by decide) mem
    have letter : isLetterOrDigit c = true := isLetterOrDigit_of_isAlnum (by rw [isAlnum, digit, Bool.or_true])
    simp [isNameChar, letter]
  rw [madeOf_iff]
  cases n with
  | ofNat n =>
    rw [Json.toList_toString_ofNat]
    exact digit n
  | negSucc n =>
    rw [Json.toList_toString_negSucc, List.forall_mem_cons]
    exact ⟨by decide, digit (n + 1)⟩

/-- So is a range of lines. -/
lemma madeOf_lineRange (forge : Forge) (first last : Int) : MadeOf isNameChar (lineRange forge first last) := by
  have mark : ∀ mark ∈ ["L", "-", "-L"], MadeOf isNameChar mark := by decide
  unfold lineRange
  cases forge <;> dsimp only <;> split <;>
    simp only [madeOf_append, madeOf_toString, mark, List.mem_cons, true_or, or_true, and_self]

/-- Paths may have what names may. -/
lemma isPathChar_of_isNameChar (c : Char) (name : isNameChar c = true) : isPathChar c = true := by
  rw [isPathChar, name, Bool.true_or]

/-- Links may have what paths may. -/
lemma isLinkChar_of_isPathChar (c : Char) (path : isPathChar c = true) : isLinkChar c = true := by
  rw [isLinkChar, path, Bool.true_or, Bool.true_or, Bool.true_or]

/-- Characters of paths need no escape. -/
lemma isPlain_of_isPathChar {c} (path : isPathChar c = true) : isPlain c = true := by
  simp only [isPathChar, Bool.or_eq_true, decide_eq_true_eq] at path
  rcases path with name | rfl
  · exact (isFree_of_isNameChar name).isPlain
  · decide

lemma isClear_of_isLinkChar {c} (link : isLinkChar c = true) : IsClear c := by
  simp only [isLinkChar, Bool.or_eq_true, decide_eq_true_eq] at link
  rcases link with ((path | rfl) | rfl) | rfl
  · exact (Url.isPlain_iff.mp (isPlain_of_isPathChar path)).1
  all_goals decide

/-- An owner's name keeps its kind. -/
lemma madeOf_bitbucketOwner {owner} (made : MadeOf isPathChar owner) :
    MadeOf isPathChar (bitbucketOwner owner) := by
  unfold bitbucketOwner
  split
  · exact madeOf_append.mpr ⟨by decide, made.dropLead "~"⟩
  · exact madeOf_append.mpr ⟨by decide, made⟩

/-- What leads a link is made as paths are. -/
lemma Linkable.lead (linkable : Linkable remote ref) : MadeOf isPathChar (remote.linkLead ref) := by
  have mark : ∀ mark ∈ ["/", "/-/blob/", "/repos/", "/browse", "/blob/"], MadeOf isPathChar mark := by decide
  have owner := madeOf_bitbucketOwner linkable.owner
  have repository := linkable.repository.mono isPathChar_of_isNameChar
  have ref := linkable.ref.mono isPathChar_of_isNameChar
  unfold linkLead
  cases remote.forge <;>
    simp only [madeOf_append, owner, linkable.owner, repository, ref, mark, List.mem_cons, true_or, or_true, and_self]

end Parts

section File

variable {file : String} {lead : String} {out : Bytes}

/-- How a byte of a file's path stands in a link. -/
def slashed (b : UInt8) : UInt8 := if b = 92 then 47 else b

/-- Backslashes are replaced byte by byte. -/
lemma ofString_slashed (cs : List Char) :
    Utf8.ofString (String.ofList (cs.map fun c => if c = '\\' then '/' else c)) =
      (Utf8.ofString (String.ofList cs)).map slashed := by
  have single : ∀ c : Char, String.utf8EncodeChar (if c = '\\' then '/' else c) =
      (String.utf8EncodeChar c).map slashed := by
    intro c
    split
    case isTrue eq =>
      rw [eq]
      decide
    case isFalse ne =>
      refine (List.map_id _).symm.trans (List.map_congr_left fun b mem => ?_)
      have other : b ≠ 92 := by
        rintro rfl
        rcases (Utf8.sequence_encode c).byte_cases mem with eq | high
        · exact ne (Char.toNat_inj.mp eq.symm)
        · exact absurd high (by decide)
      rw [slashed, if_neg other, id]
  rw [Utf8.ofString_eq, Utf8.ofString_eq, String.toList_ofList, String.toList_ofList, List.flatMap_map, List.map_flatMap]
  exact List.flatMap_congr fun c _ => single c

/-- No backslash is left in the path of a link. -/
lemma backslash_not_mem_linkPath (file : String) : '\\' ∉ (linkPath file).toList := by
  intro mem
  rw [linkPath, String.toList_ofList] at mem
  obtain ⟨c, _, eq⟩ := List.mem_map.mp (List.dropWhile_subset _ mem)
  split at eq
  · cases eq
  · rename_i ne
    exact ne eq

/-- In front of a relative path there is nothing to drop. -/
lemma linkPath_eq (relative : file.toList.head? ≠ some '/') (plain : file.toList.head? ≠ some '\\') :
    linkPath file = String.ofList (file.toList.map fun c => if c = '\\' then '/' else c) := by
  rw [linkPath]
  cases chars : file.toList with
  | nil => rfl
  | cons c rest =>
    rw [chars, List.head?_cons] at relative plain
    have slash : c ≠ '/' := fun eq => relative (by rw [eq])
    have backslash : c ≠ '\\' := fun eq => plain (by rw [eq])
    rw [List.map_cons, if_neg backslash, List.dropWhile_cons_of_neg (by simpa using slash)]

/-- A relative path without backslashes is left as it is. -/
lemma linkPath_eq_self (relative : file.toList.head? ≠ some '/') (plain : '\\' ∉ file.toList) :
    linkPath file = file := by
  have head : file.toList.head? ≠ some '\\' := fun eq => plain (List.mem_of_mem_head? eq)
  have same : (file.toList.map fun c => if c = '\\' then '/' else c) = file.toList := by
    refine (List.map_congr_left fun c mem => ?_).trans (List.map_id _)
    have other : c ≠ '\\' := fun eq => plain (eq ▸ mem)
    rw [if_neg other, id]
  rw [linkPath_eq relative head, same, String.ofList_toList]

/-- The path of a link is no longer than that of the file. -/
lemma length_linkPath_le (file : String) : (Utf8.ofString (linkPath file)).length ≤ (Utf8.ofString file).length := by
  have dropped := (List.dropWhile_sublist (l := file.toList.map fun c => if c = '\\' then '/' else c)
    (· = '/')).flatMap String.utf8EncodeChar
  have slashed := congrArg List.length (ofString_slashed file.toList)
  rw [Utf8.ofString_eq, String.toList_ofList, List.length_map, String.ofList_toList] at slashed
  rw [Utf8.ofString_eq, linkPath, String.toList_ofList, ← slashed]
  exact dropped.length_le

/-- What the path of a file stands for in a link does not come out behind a piece of names and slashes. -/
lemma ofString_ne_append (relative : file.toList.head? ≠ some '/') {piece} (some : piece ≠ [])
    (plain : ∀ b ∈ piece, b ≠ 37 ∧ b ≠ 63 ∧ b ≠ 92)
    (decodes : Decodes (Utf8.ofString (String.ofList ((linkPath file).toList.takeWhile (· ≠ '?')))) out) :
    Utf8.ofString file ≠ piece ++ out := by
  intro eq
  have backslash : file.toList.head? ≠ Option.some '\\' := by
    intro head
    obtain ⟨rest, chars⟩ := List.head?_eq_some_iff.mp head
    obtain ⟨b, piece, rfl⟩ := List.exists_cons_of_ne_nil some
    rw [Utf8.ofString_eq, chars, List.flatMap_cons] at eq
    have first : (92 : UInt8) = b := (List.cons.inj eq).1
    exact (plain b List.mem_cons_self).2.2 first.symm
  have path : Utf8.ofString (linkPath file) = piece ++ out.map slashed := by
    have kept : piece.map slashed = piece := by
      refine (List.map_congr_left fun b mem => ?_).trans (List.map_id _)
      rw [slashed, if_neg (plain b mem).2.2, id]
    rw [linkPath_eq relative backslash, ofString_slashed, String.ofList_toList, eq, List.map_append, kept]
  have divided : Utf8.ofString (linkPath file) =
      Utf8.ofString (String.ofList ((linkPath file).toList.takeWhile (· ≠ '?'))) ++
        Utf8.ofString (String.ofList ((linkPath file).toList.dropWhile (· ≠ '?'))) := by
    rw [← Utf8.ofString_append, ← String.ofList_append, List.takeWhile_append_dropWhile, String.ofList_toList]
  have stop : ∀ b ∈ (Utf8.ofString (String.ofList ((linkPath file).toList.dropWhile (· ≠ '?')))).head?, b ∉ piece := by
    cases behind : (linkPath file).toList.dropWhile (· ≠ '?') with
    | nil =>
      rw [Utf8.ofString_eq, String.toList_ofList]
      rintro b ⟨⟩
    | cons c rest =>
      have mark : c = '?' := by
        have head := List.head?_dropWhile_not (· ≠ '?') (linkPath file).toList
        rw [behind] at head
        simpa using head
      rw [Utf8.ofString_eq, String.toList_ofList, mark]
      rintro b ⟨⟩ mem
      exact (plain _ mem).2.1 rfl
  refine decodes.ne_append some (fun b mem => ⟨(plain b mem).1, ?_⟩) stop (divided.symm.trans path)
  rw [slashed, if_neg (plain b mem).2.2]

/-- If what the path of a file stands for in a link ends in that path, then nothing of it was cut off, turned
or decoded. -/
lemma eq_of_suffix (relative : file.toList.head? ≠ some '/') (made : MadeOf isPathChar lead)
    (decodes : Decodes (Utf8.ofString (String.ofList ((linkPath file).toList.takeWhile (· ≠ '?')))) out)
    (ends : Utf8.ofString ("/" ++ file) <:+ Utf8.ofString (lead ++ "/") ++ out) :
    (linkPath file).toList.takeWhile (· ≠ '?') = file.toList ∧ '%' ∉ file.toList := by
  have cut : (Utf8.ofString (String.ofList ((linkPath file).toList.takeWhile (· ≠ '?')))).length ≤
      (Utf8.ofString file).length := by
    have taken := (List.takeWhile_sublist (l := (linkPath file).toList) (· ≠ '?')).flatMap String.utf8EncodeChar
    rw [Utf8.ofString_eq, String.toList_ofList]
    refine taken.length_le.trans ?_
    rw [← Utf8.ofString_eq]
    exact length_linkPath_le file
  have within : Utf8.ofString file <:+ out := by
    obtain ⟨front, eq⟩ := ends
    rw [Utf8.ofString_append, ← List.append_assoc] at eq
    rcases List.append_eq_append_iff.mp eq with ⟨piece, around, divides⟩ | ⟨more, _, divides⟩
    · have around' : MadeOf isPathChar (lead ++ "/") := madeOf_append.mpr ⟨made, by decide⟩
      have plain : ∀ b ∈ piece, b ≠ 37 ∧ b ≠ 63 ∧ b ≠ 92 := by
        intro b mem
        have mem : b ∈ Utf8.ofString (lead ++ "/") := around ▸ List.mem_append_right _ mem
        refine ⟨?_, ?_, ?_⟩
        · rintro rfl
          exact around'.byte_not_mem (c := '%') (by decide) (by decide) (by decide) mem
        · rintro rfl
          exact around'.byte_not_mem (c := '?') (by decide) (by decide) (by decide) mem
        · rintro rfl
          exact around'.byte_not_mem (c := '\\') (by decide) (by decide) (by decide) mem
      by_cases none : piece = []
      · have whole : Utf8.ofString file = out := by rw [divides, none, List.nil_append]
        exact whole ▸ List.suffix_rfl
      · exact absurd divides (ofString_ne_append relative none plain decodes)
    · exact ⟨more, divides.symm⟩
  obtain ⟨free, same⟩ := decodes.eq_of_length_le (cut.trans within.length_le)
  rw [same] at within
  have same := Utf8.ofString_inj.mp (within.eq_of_length (Nat.le_antisymm within.length_le cut))
  refine ⟨?_, fun mem => free ?_⟩
  · conv_rhs => rw [same, String.toList_ofList]
  · rw [← same, Utf8.ofString_eq]
    exact List.mem_flatMap.mpr ⟨'%', mem, by decide⟩

end File

section Addresses

variable {remote : Remote} {ref file : String} (linkable : Linkable remote ref)
include linkable

/-- A permalink is a link to the file with an anchor, unless the path is empty. -/
lemma Linkable.permalink_eq_ok_iff {first last link} :
    remote.permalink ref file first last = .ok link ↔
      linkPath file ≠ "" ∧ link = remote.fileLink ref (linkPath file) ++ lineAnchor remote.forge first last := by
  unfold permalink
  simp only [linkable.host_ne, linkable.owner_ne, linkable.repository_ne, linkable.ref_ne, decide_false,
    Bool.or_self, Bool.false_eq_true, if_false]
  split
  case isTrue none => simp [none]
  case isFalse some => simp [some, eq_comm]

/-- The characters of a link, divided as an address is. -/
lemma Linkable.divided {main rest}
    (chars : main = "https".toList ++ ':' :: '/' :: '/' :: (remote.host.toList ++ '/' :: rest)) :
    Url.Divided main "https" remote.host remote.host.toList rest where
  known := by decide
  chars := chars
  whole := linkable.host.not_mem (by decide)
  noQuery := linkable.host.not_mem (by decide)
  read := by
    have inHost : ∀ c ∈ remote.host.toList, InHost c := fun c mem =>
      inHost_of_isNameChar (madeOf_iff.mp linkable.host c mem)
    rw [Url.readAuthority_host inHost, String.ofList_toList]

lemma Linkable.query : MadeOf isLinkChar (remote.linkQuery ref) := by
  have ref := linkable.ref.mono fun c name => isLinkChar_of_isPathChar c (isPathChar_of_isNameChar c name)
  unfold linkQuery
  split
  · exact madeOf_append.mpr ⟨by decide, ref⟩
  · decide

/-- What stands before the path of the file. -/
lemma Linkable.front : MadeOf isLinkChar ("https://" ++ remote.host ++ "/" ++ remote.linkLead ref ++ "/") := by
  have host := linkable.host.mono fun c name => isLinkChar_of_isPathChar c (isPathChar_of_isNameChar c name)
  have lead := linkable.lead.mono isLinkChar_of_isPathChar
  simp only [madeOf_append, host, lead, and_true]
  decide

omit linkable in
/-- What stands before a query does not depend on the one added. -/
lemma takeWhile_linkQuery (remote : Remote) (ref : String) (cs : List Char) :
    (cs ++ (remote.linkQuery ref).toList).takeWhile (· ≠ '?') = cs.takeWhile (· ≠ '?') := by
  have query : (remote.linkQuery ref).toList.takeWhile (· ≠ '?') = [] := by
    unfold linkQuery
    split
    · rw [String.toList_append]
      rfl
    · rfl
  rw [List.takeWhile_append]
  split
  case isTrue whole => rw [query, List.append_nil, (List.takeWhile_prefix _).eq_of_length whole]
  case isFalse => rfl

/-- Before the path of the file there are no control characters. -/
lemma Linkable.isClear {behind} (clear : ∀ c ∈ behind, IsClear c) :
    ∀ c ∈ remote.host.toList ++ '/' :: ((remote.linkLead ref).toList ++ '/' :: behind), IsClear c := by
  have made : ∀ {s : String}, MadeOf isPathChar s → ∀ c ∈ s.toList, IsClear c := fun made c mem =>
    (Url.isPlain_iff.mp (isPlain_of_isPathChar (madeOf_iff.mp made c mem))).1
  simp only [List.forall_mem_append, List.forall_mem_cons]
  exact ⟨made (linkable.host.mono isPathChar_of_isNameChar), by decide, made linkable.lead, by decide, clear⟩

/-- A link leads to what the lead and the path of the file, up to a question mark, stand for. -/
lemma Linkable.readMain_eq_ok_iff {reference} (clear : ∀ c ∈ file.toList, IsClear c) :
    Reference.readMain (remote.fileLink ref file).toList = .ok reference ↔
      ∃ out, Decodes (Utf8.ofString (String.ofList (file.toList.takeWhile (· ≠ '?')))) out ∧
        reference = { scheme := "https", authority := remote.host
                      path := Utf8.ofString ("/" ++ remote.linkLead ref ++ "/") ++ out } := by
  have lead : MadeOf isPathChar ("/" ++ remote.linkLead ref ++ "/") := by
    simp only [madeOf_append, linkable.lead, and_true]
    decide
  have plain : 37 ∉ Utf8.ofString ("/" ++ remote.linkLead ref ++ "/") :=
    lead.byte_not_mem (c := '%') (by decide) (by decide) (by decide)
  have noQuery : '?' ∉ (remote.linkLead ref).toList := linkable.lead.not_mem (by decide)
  have behind : ∀ c ∈ file.toList ++ (remote.linkQuery ref).toList, IsClear c :=
    List.forall_mem_append.mpr ⟨clear, fun c mem => isClear_of_isLinkChar (madeOf_iff.mp linkable.query c mem)⟩
  have bytes : Utf8.ofString (String.ofList ('/' :: ((remote.linkLead ref).toList ++
      '/' :: file.toList.takeWhile (· ≠ '?')))) = Utf8.ofString ("/" ++ remote.linkLead ref ++ "/") ++
        Utf8.ofString (String.ofList (file.toList.takeWhile (· ≠ '?'))) := by
    rw [← Utf8.ofString_append, Utf8.ofString_inj, ← String.toList_inj]
    simp
  rw [Reference.readMain_append (linkable.divided (toList_fileLink remote ref file)) (linkable.isClear behind),
    Url.takeWhile_append_cons noQuery (by decide), takeWhile_linkQuery]
  constructor
  · intro read
    cases decoded : Reference.decode ('/' :: ((remote.linkLead ref).toList ++
      '/' :: file.toList.takeWhile (· ≠ '?'))) with
    | error fault =>
      rw [decoded] at read
      cases read
    | ok path =>
      rw [decoded] at read
      cases read
      obtain ⟨out, rfl, decodes⟩ := (bytes ▸ Reference.decode_eq_ok_iff.mp decoded).exists_of_append plain
      exact ⟨out, decodes, rfl⟩
  · rintro ⟨out, decodes, rfl⟩
    have decoded := Reference.decode_eq_ok_iff.mpr (bytes ▸ decodes.append plain)
    rw [decoded]
    rfl

/-- Behind a second `#` the fragment is not what it should be. -/
lemma Linkable.hash_not_mem {lines reference} (made : MadeOf isNameChar lines)
    (read : Reference.parse (remote.fileLink ref file ++ ("#" ++ lines)) = .ok reference)
    (fragment : reference.fragment = Utf8.ofString lines) : '#' ∉ file.toList := by
  intro mem
  obtain ⟨before, after, chars, first⟩ := List.eq_append_cons_of_mem mem
  have front := linkable.front.not_mem (c := '#') (by decide)
  have cut : (remote.fileLink ref file ++ ("#" ++ lines)).toList =
      (("https://" ++ remote.host ++ "/" ++ remote.linkLead ref ++ "/").toList ++ before) ++
        '#' :: (after ++ (remote.linkQuery ref).toList ++ '#' :: lines.toList) := by
    rw [fileLink_eq]
    simp [chars]
  have unmarked : '#' ∉ ("https://" ++ remote.host ++ "/" ++ remote.linkLead ref ++ "/").toList ++ before := by
    rw [List.mem_append, not_or]
    exact ⟨front, first⟩
  obtain ⟨_, bytes, _, decodes, rfl⟩ := (Reference.parse_eq_ok_iff cut unmarked).mp read
  have kept : (35 : UInt8) ∈ bytes := by
    refine decodes.mem_of_mem (by decide) (by decide) ?_
    rw [Utf8.ofString_eq, String.toList_ofList]
    exact List.mem_flatMap.mpr ⟨'#', by simp, by decide⟩
  have kept : (35 : UInt8) ∈ Utf8.ofString lines := fragment ▸ kept
  exact made.byte_not_mem (c := '#') (by decide) (by decide) (by decide) kept

/-- With its lines, a link is read as it is without them. -/
lemma Linkable.parse_eq_ok_iff {lines reference} (made : MadeOf isNameChar lines) (unmarked : '#' ∉ file.toList) :
    Reference.parse (remote.fileLink ref file ++ ("#" ++ lines)) = .ok reference ↔ ∃ front,
      Reference.readMain (remote.fileLink ref file).toList = .ok front ∧
        reference = { front with fragment := Utf8.ofString lines } := by
  have cut : (remote.fileLink ref file ++ ("#" ++ lines)).toList =
      (remote.fileLink ref file).toList ++ '#' :: lines.toList := by
    simp
  have whole : '#' ∉ (remote.fileLink ref file).toList := by
    rw [fileLink_eq, String.toList_append, String.toList_append, List.mem_append, List.mem_append, not_or, not_or]
    exact ⟨⟨linkable.front.not_mem (by decide), unmarked⟩, linkable.query.not_mem (by decide)⟩
  have plain : 37 ∉ Utf8.ofString lines := made.byte_not_mem (c := '%') (by decide) (by decide) (by decide)
  rw [Reference.parse_eq_ok_iff cut whole, String.ofList_toList]
  constructor
  · rintro ⟨front, bytes, read, decodes, rfl⟩
    exact ⟨front, read, by rw [decodes.eq_of_not_mem plain]⟩
  · rintro ⟨front, read, rfl⟩
    exact ⟨front, _, read, .self plain, rfl⟩

end Addresses

/-- A link leads to the file and the lines it is made for exactly if no character of the file's path is a
control character, ends a part of a link, begins an escape or is turned into a slash. -/
theorem permalink_addresses_iff {remote : Remote} {ref file : String} (linkable : Linkable remote ref)
    (some : file ≠ "") (relative : Path.isAbsolute file = false) {first : Int} (positive : 1 ≤ first) (last : Int) :
    (∃ link, remote.permalink ref file first last = .ok link ∧
        Addresses link file (lineRange remote.forge first last)) ↔
      ∀ c ∈ file.toList, IsClear c ∧ c ∉ ['#', '?', '%', '\\'] := by
  have head : file.toList.head? ≠ Option.some '/' := by
    rwa [Path.isAbsolute, beq_eq_false_iff_ne] at relative
  have made := madeOf_lineRange remote.forge first last
  constructor
  · rintro ⟨link, made_link, reference, read, ends, fragment⟩
    obtain ⟨_, rfl⟩ := linkable.permalink_eq_ok_iff.mp made_link
    rw [lineAnchor_eq _ positive] at read
    have unmarked := linkable.hash_not_mem made read fragment
    obtain ⟨front, main, rfl⟩ := (linkable.parse_eq_ok_iff made unmarked).mp read
    have clear : ∀ c ∈ (linkPath file).toList, IsClear c := fun c mem => by
      refine Reference.isClear_of_readMain main c ?_
      rw [fileLink_eq]
      simp [mem]
    obtain ⟨out, decodes, rfl⟩ := (linkable.readMain_eq_ok_iff clear).mp main
    have lead : MadeOf isPathChar ("/" ++ remote.linkLead ref) := madeOf_append.mpr ⟨by decide, linkable.lead⟩
    obtain ⟨same, percent⟩ := eq_of_suffix head lead decodes ends
    intro c mem
    have taken : c ∈ (linkPath file).toList.takeWhile (· ≠ '?') := same ▸ mem
    have within : c ∈ (linkPath file).toList := List.takeWhile_subset _ taken
    have question : c ≠ '?' := by simpa using List.mem_takeWhile_imp taken
    have backslash : c ≠ '\\' := fun eq => backslash_not_mem_linkPath file (eq ▸ within)
    have hash : c ≠ '#' := fun eq => unmarked (eq ▸ within)
    have escape : c ≠ '%' := fun eq => percent (eq ▸ mem)
    exact ⟨clear c within, by simp [hash, question, escape, backslash]⟩
  · intro good
    have free : ∀ c ∈ ['#', '?', '%', '\\'], c ∉ file.toList := fun c special mem => (good c mem).2 special
    have path : linkPath file = file := linkPath_eq_self head (free _ (by simp))
    have whole : file.toList.takeWhile (· ≠ '?') = file.toList := by
      refine List.takeWhile_eq_self_iff.mpr fun c mem => decide_eq_true ?_
      rintro rfl
      exact free _ (by simp) mem
    have plain : 37 ∉ Utf8.ofString file := by
      intro mem
      obtain ⟨c, mem, eq⟩ := Utf8.exists_of_mem_ofString mem (by decide)
      obtain rfl : c = '%' := Char.toNat_inj.mp eq
      exact free _ (by simp) mem
    have read := (linkable.readMain_eq_ok_iff fun c mem => (good c mem).1).mpr
      ⟨Utf8.ofString file, by rw [whole, String.ofList_toList]; exact .self plain, rfl⟩
    refine ⟨_, linkable.permalink_eq_ok_iff.mpr ⟨path.symm ▸ some, rfl⟩, ?_⟩
    rw [path, lineAnchor_eq _ positive]
    refine ⟨_, (linkable.parse_eq_ok_iff made (free _ (by simp))).mpr ⟨_, read, rfl⟩, ?_, rfl⟩
    refine ⟨Utf8.ofString ("/" ++ remote.linkLead ref), ?_⟩
    simp only [Utf8.ofString_append, List.append_assoc]

/-- A path with a blank in a nested group. -/
theorem permalink_addresses_spaced :
    let remote : Remote := ⟨.gitlab, "gitlab.example.com", "group/sub", "repo", "", ""⟩
    Linkable remote "0a1b2c" ∧ ∃ link, remote.permalink "0a1b2c" "src/ä b+c.go" 3 4 = .ok link ∧
      Addresses link "src/ä b+c.go" "L3-4" := by
  intro remote
  have linkable : Linkable remote "0a1b2c" :=
    ⟨by decide, by decide, by decide, by decide, by decide, by decide, by decide, by decide⟩
  have good : "src/ä b+c.go".toList.all (fun c => IsClear c ∧ c ∉ ['#', '?', '%', '\\']) = true := by decide
  refine ⟨linkable, (permalink_addresses_iff linkable (by decide) (by decide) (by decide) 4).mpr fun c mem => ?_⟩
  exact of_decide_eq_true (List.all_eq_true.mp good c mem)

/-- A `#` in the path of a file begins the fragment. -/
theorem permalink_of_hash :
    let remote : Remote := ⟨.github, "github.com", "org", "repo", "", ""⟩
    let link := "https://github.com/org/repo/blob/abc123/src/a#b.go#L5"
    remote.permalink "abc123" "src/a#b.go" 5 0 = .ok link ∧ ¬ Addresses link "src/a#b.go" "L5" := by
  intro remote link
  have linkable : Linkable remote "abc123" :=
    ⟨by decide, by decide, by decide, by decide, by decide, by decide, by decide, by decide⟩
  have whole : link = remote.fileLink "abc123" "src/a#b.go" ++ ("#" ++ "L5") := by decide
  refine ⟨by decide, ?_⟩
  rintro ⟨reference, read, _, fragment⟩
  exact linkable.hash_not_mem (by decide) (whole ▸ read) fragment (by decide)

end Remote

end Sift
