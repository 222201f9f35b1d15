import Sift.Proofs.Remote.Link

/-!
# Links read as remotes

A link to a file on a Bitbucket host is itself a way to write the remote: its path names the project or the
user, then the repository, and what follows is not looked at. Main statement: such a link is read as a remote of
the repository it was made for, whatever file, revision and lines it points at.
-/

namespace Sift.Remote

open Sift.Text (MadeOf madeOf_iff madeOf_append)
open Sift.Url (IsClear InHost isPlain)

/-- Whether a character can stand in a link to lines of a file. -/
def isMarkedChar (c : Char) : Bool := isLinkChar c || c = '#'

lemma isMarkedChar_of_isLinkChar (c : Char) (link : isLinkChar c = true) : isMarkedChar c = true := by
  rw [isMarkedChar, link, Bool.true_or]

lemma isClear_of_isMarkedChar {c} (marked : isMarkedChar c = true) : IsClear c := by
  simp only [isMarkedChar, Bool.or_eq_true, decide_eq_true_eq] at marked
  rcases marked with link | rfl
  · exact isClear_of_isLinkChar link
  · decide

lemma notBlank_of_isMarkedChar {c} (marked : isMarkedChar c = true) : Text.isBlank c = false := by
  simp only [isMarkedChar, isLinkChar, isPathChar, Bool.or_eq_true, decide_eq_true_eq] at marked
  rcases marked with ((((name | rfl) | rfl) | rfl) | rfl) | rfl
  · exact (isFree_of_isNameChar name).notBlank
  all_goals decide

/-- The segments of a link name the owner and the repository. -/
lemma bitbucketNames?_segments {owner} (owner_ne : owner ≠ "") (named : owner ≠ "~") (segment : '/' ∉ owner.toList)
    (repository : String) (rest : List String) :
    bitbucketNames? (segments (bitbucketOwner owner) ++ "repos" :: repository :: "browse" :: rest) =
      some (owner, repository) := by
  unfold bitbucketOwner
  split
  case isTrue personal =>
    obtain ⟨user, chars⟩ := List.isPrefixOf_iff_prefix.mp personal
    have lead : Text.dropLead owner "~" = String.ofList user := by
      rw [Text.dropLead, if_pos personal, ← chars]
      rfl
    have whole : "~" ++ String.ofList user = owner := by
      rw [← String.toList_inj]
      simpa using chars
    have ne : String.ofList user ≠ "" := fun eq => named (by rw [← whole, eq]; rfl)
    have slash : '/' ∉ (String.ofList user).toList := fun mem =>
      segment (by rw [← whole, String.toList_append]; exact List.mem_append_right _ mem)
    have split : segments ("users/" ++ String.ofList user) = ["users", String.ofList user] := by
      rw [show "users/" = "users" ++ "/" by decide, segments_append, segments_single (by decide) (by decide),
        segments_single ne slash]
      rfl
    rw [lead, split, List.cons_append, List.cons_append, List.nil_append, bitbucketNames?, whole]
  case isFalse =>
    have split : segments ("projects/" ++ owner) = ["projects", owner] := by
      rw [show "projects/" = "projects" ++ "/" by decide, segments_append, segments_single (by decide) (by decide),
        segments_single owner_ne segment]
      rfl
    rw [split, List.cons_append, List.cons_append, List.nil_append, bitbucketNames?]

section Read

variable {remote : Remote} {ref file : String} (linkable : Linkable remote ref)
include linkable

/-- The path of a link ends at the query, and the lines are cut off with it. -/
lemma Linkable.parse_link (made : MadeOf isPathChar file) {url query}
    (chars : url.toList = "https".toList ++ ':' :: '/' :: '/' :: (remote.host.toList ++
      '/' :: ((remote.linkLead ref).toList ++ '/' :: (file.toList ++ '?' :: query))))
    (clear : ∀ c ∈ query, IsClear c) :
    Url.parse url = .ok ⟨"https", remote.host, "/" ++ remote.linkLead ref ++ "/" ++ file⟩ := by
  have path : MadeOf isPathChar ("/" ++ remote.linkLead ref ++ "/" ++ file) := by
    simp only [madeOf_append, linkable.lead, made, and_true]
    decide
  have spelled : ("/" ++ remote.linkLead ref ++ "/" ++ file).toList =
      '/' :: ((remote.linkLead ref).toList ++ '/' :: file.toList) := by
    simp
  have plain : ∀ c ∈ '/' :: ((remote.linkLead ref).toList ++ '/' :: file.toList), isPlain c = true := by
    rw [← spelled]
    exact fun c mem => isPlain_of_isPathChar (madeOf_iff.mp path c mem)
  have cut : ((remote.linkLead ref).toList ++ '/' :: (file.toList ++ '?' :: query)).takeWhile (· ≠ '?') =
      (remote.linkLead ref).toList ++ '/' :: file.toList := by
    have noQuery : ∀ c ∈ file.toList, decide (c ≠ '?') = true := fun c mem =>
      decide_eq_true fun eq => made.not_mem (by decide) (eq ▸ mem)
    rw [Url.takeWhile_append_cons (linkable.lead.not_mem (by decide)) (by decide), List.takeWhile_append_of_pos noQuery,
      List.takeWhile_cons_of_neg (by decide), List.append_nil]
  have behind : ∀ c ∈ file.toList ++ '?' :: query, IsClear c := by
    refine List.forall_mem_append.mpr ⟨fun c mem => ?_, List.forall_mem_cons.mpr ⟨by decide, clear⟩⟩
    exact (Url.isPlain_iff.mp (isPlain_of_isPathChar (madeOf_iff.mp made c mem))).1
  have unescaped : Url.unescapeChars .path ('/' :: ((remote.linkLead ref).toList ++ '/' :: file.toList)) =
      .ok ("/" ++ remote.linkLead ref ++ "/" ++ file) := by
    rw [Url.unescapeChars_eq_self plain fun inHost => absurd inHost (by decide), ← spelled, String.ofList_toList]
  rw [Url.parse_append (linkable.divided chars) (linkable.isClear behind), cut, unescaped]
  rfl

lemma Linkable.segments_link (forge : remote.forge = .bitbucket) (file : String) :
    segments ("/" ++ remote.linkLead ref ++ "/" ++ file) =
      segments (bitbucketOwner remote.owner) ++ "repos" :: remote.repository :: "browse" :: segments file := by
  have lead : "/" ++ remote.linkLead ref ++ "/" ++ file = "" ++ "/" ++ bitbucketOwner remote.owner ++ "/" ++ "repos" ++
      "/" ++ remote.repository ++ "/" ++ "browse" ++ "/" ++ file := by
    rw [linkLead, forge, ← String.toList_inj]
    simp
  have fixed : segments "" = [] ∧ segments "repos" = ["repos"] ∧ segments "browse" = ["browse"] := by decide
  have whole : '/' ∉ remote.repository.toList := linkable.repository.not_mem (by decide)
  rw [lead]
  simp only [segments_append, fixed, segments_single linkable.repository_ne whole, List.nil_append, List.append_assoc,
    List.cons_append]

/-- What the path of a link names on its host. -/
lemma Linkable.placeAt?_link (forge : remote.forge = .bitbucket) (segment : '/' ∉ remote.owner.toList)
    (named : remote.owner ≠ "~") (file : String) :
    placeAt? (some .bitbucket) remote.host ("/" ++ remote.linkLead ref ++ "/" ++ file) = some remote.place := by
  have names := bitbucketNames?_segments linkable.owner_ne named segment remote.repository (segments file)
  rw [placeAt?]
  simp only [Option.getD_some, if_true, linkable.segments_link forge, names, Option.map_some, place, forge]

lemma Linkable.link (made : MadeOf isPathChar file) (first last : Int) :
    MadeOf isMarkedChar (remote.fileLink ref file ++ lineAnchor remote.forge first last) := by
  have link : MadeOf isLinkChar (remote.fileLink ref file) := by
    rw [fileLink_eq, madeOf_append, madeOf_append]
    exact ⟨⟨linkable.front, made.mono isLinkChar_of_isPathChar⟩, linkable.query⟩
  have anchor : MadeOf isMarkedChar (lineAnchor remote.forge first last) := by
    by_cases none : first ≤ 0
    · rw [lineAnchor, if_pos none]
      decide
    · rw [lineAnchor_eq _ (by omega), madeOf_append]
      refine ⟨by decide, (madeOf_lineRange _ _ _).mono fun c name => ?_⟩
      exact isMarkedChar_of_isLinkChar c (isLinkChar_of_isPathChar c (isPathChar_of_isNameChar c name))
  exact madeOf_append.mpr ⟨link.mono isMarkedChar_of_isLinkChar, anchor⟩

/-- At the end of a link, `.git` belongs to the revision, and the path stays. -/
lemma Linkable.parse_toUrl (forge : remote.forge = .bitbucket) (made : MadeOf isPathChar file) (first last : Int) :
    Url.parse (toUrl (remote.fileLink ref file ++ lineAnchor remote.forge first last)) =
      .ok ⟨"https", remote.host, "/" ++ remote.linkLead ref ++ "/" ++ file⟩ := by
  have query : (remote.linkQuery ref).toList = '?' :: ("at=" ++ ref).toList := by
    rw [linkQuery, if_pos forge]
    simp
  have chars : (remote.fileLink ref file ++ lineAnchor remote.forge first last).toList =
      ("https".toList ++ ':' :: '/' :: '/' :: (remote.host.toList ++
        '/' :: ((remote.linkLead ref).toList ++ '/' :: file.toList))) ++
        '?' :: ("at=" ++ ref ++ lineAnchor remote.forge first last).toList := by
    rw [String.toList_append, toList_fileLink, query]
    simp
  have all := madeOf_iff.mp (linkable.link made first last)
  have url := toUrl_of_mark (chars.trans (List.append_assoc _ _ _)) fun c mem => notBlank_of_isMarkedChar (all c mem)
  have plain : '?' ∉ ".git".toList := by decide
  have short := Text.dropTail_append plain chars
  simp only [List.append_assoc, List.cons_append] at short
  rw [url]
  refine linkable.parse_link made short fun c mem => isClear_of_isMarkedChar (all c ?_)
  have mem := Text.mem_of_mem_dropTail mem
  rw [String.toList_ofList] at mem
  rw [chars]
  exact List.mem_append_right _ (List.mem_cons_of_mem _ mem)

end Read

/-- A link to a file on a Bitbucket host is read as a remote of the repository it was made for. -/
theorem parse_permalink_bitbucket {remote : Remote} {ref file : String} (linkable : Linkable remote ref)
    (forge : remote.forge = .bitbucket) (segment : '/' ∉ remote.owner.toList) (named : remote.owner ≠ "~")
    (some : file ≠ "") (relative : Path.isAbsolute file = false) (made : MadeOf isPathChar file) (first last : Int) :
    ∃ link found, remote.permalink ref file first last = .ok link ∧ parse link (Option.some .bitbucket) = .ok found ∧
      found.host = remote.host ∧ found.owner = remote.owner ∧ found.repository = remote.repository := by
  have head : file.toList.head? ≠ Option.some '/' := by
    rwa [Path.isAbsolute, beq_eq_false_iff_ne] at relative
  have path : linkPath file = file := linkPath_eq_self head (made.not_mem (by decide))
  have made_link : remote.permalink ref file first last =
      .ok (remote.fileLink ref file ++ lineAnchor remote.forge first last) :=
    linkable.permalink_eq_ok_iff.mpr ⟨path.symm ▸ some, by rw [path]⟩
  have host : Url.host ⟨"https", remote.host, "/" ++ remote.linkLead ref ++ "/" ++ file⟩ = remote.host := by
    have inHost : ∀ c ∈ remote.host.toList, InHost c := fun c mem =>
      inHost_of_isNameChar (madeOf_iff.mp linkable.host c mem)
    have plain := Url.host_plain inHost "https" ("/" ++ remote.linkLead ref ++ "/" ++ file)
    rwa [String.ofList_toList] at plain
  have known : "https" ∈ schemes := by decide
  have place := place_of_parse (linkable.parse_toUrl forge made first last) known (Option.some .bitbucket)
  rw [host, linkable.placeAt?_link forge segment named file] at place
  cases found : parse (remote.fileLink ref file ++ lineAnchor remote.forge first last) (Option.some .bitbucket) with
  | error fault =>
    rw [found] at place
    cases place
  | ok found' =>
    rw [found] at place
    simp only [Except.toOption, Option.map_some, Option.some.injEq, Remote.place, Prod.mk.injEq] at place
    exact ⟨_, found', made_link, found, place.2⟩

/-- The repository of a person. -/
theorem parse_permalink_personal :
    let remote : Remote := ⟨.bitbucket, "bb.example.com", "~j-doe", "repo_1", "", ""⟩
    Linkable remote "v1.git" ∧ ∃ link found, remote.permalink "v1.git" "src/repos/x.go" 0 0 = .ok link ∧
      parse link (some .bitbucket) = .ok found ∧
        found.host = "bb.example.com" ∧ found.owner = "~j-doe" ∧ found.repository = "repo_1" := by
  intro remote
  have linkable : Linkable remote "v1.git" :=
    ⟨by decide, by decide, by decide, by decide, by decide, by decide, by decide, by decide⟩
  exact ⟨linkable, parse_permalink_bitbucket linkable rfl (by decide) (by decide) (by decide) (by decide) (by decide)
    0 0⟩

end Sift.Remote
