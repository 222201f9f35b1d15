import Sift.Remote
import Sift.Proofs.Path
import Sift.Proofs.Url

/-!
# Spellings of a remote

A remote is spelled in a short form, as a URL for `ssh` or as a URL for the web. Main statement: the
three spellings of an address are read alike, whatever the user, the host and the names of the path.
-/

namespace Sift

namespace Text

/-- Nothing is trimmed where nothing is blank. -/
lemma trimFront_eq_self {cs} (none : ∀ c ∈ cs, isBlank c = false) : trimFront cs = cs := by
  cases cs with
  | nil => rfl
  | cons c rest =>
    rw [trimFront, List.dropWhile_cons_of_neg]
    simp [none c List.mem_cons_self]

/-- A string without blanks is left as it is. -/
lemma trim_eq_self {s} (none : ∀ c ∈ s.toList, isBlank c = false) : trim s = s := by
  rw [trim, trimChars, trimFront_eq_self none, trimFront_eq_self fun c mem => none c (List.mem_reverse.mp mem),
    List.reverse_reverse, String.ofList_toList]

/-- What lacks the first character lacks the whole. -/
lemma containsChars_of_not_mem {c part cs} (free : c ∉ cs) :
    containsChars (c :: part) cs = false := by
  induction cs with
  | nil => rfl
  | cons d rest ih =>
    rw [List.mem_cons, not_or] at free
    simp [containsChars, ih free.2, List.isPrefixOf, free.1]

/-- A mark of a colon and slashes is missing where the only colon has no slash behind it. -/
lemma containsChars_single {front back} (before : ':' ∉ front) (after : ':' ∉ back) (head : back.head? ≠ some '/') :
    containsChars [':', '/', '/'] (front ++ ':' :: back) = false := by
  induction front with
  | nil =>
    have rest : containsChars [':', '/', '/'] back = false := containsChars_of_not_mem after
    cases back with
    | nil => rfl
    | cons c back =>
      have ne : '/' ≠ c := fun eq => head (by rw [← eq, List.head?_cons])
      rw [List.nil_append, containsChars, rest]
      simp [List.isPrefixOf, ne]
  | cons c front ih =>
    rw [List.mem_cons, not_or] at before
    rw [List.cons_append, containsChars, ih before.2]
    simp [List.isPrefixOf, before.1]

/-- A part is contained where it stands. -/
lemma containsChars_append (front part back : List Char) : containsChars part (front ++ (part ++ back)) = true := by
  induction front with
  | nil =>
    cases part with
    | nil => cases back <;> simp [containsChars]
    | cons c part => simp [containsChars, List.isPrefixOf_iff_prefix]
  | cons c front ih => rw [List.cons_append, containsChars, ih, Bool.or_true]

/-- A tail without the character `c` is taken from what stands behind it. -/
lemma dropTail_append {s tail front back c} (plain : c ∉ tail.toList) (chars : s.toList = front ++ c :: back) :
    (dropTail s tail).toList = front ++ c :: (dropTail (String.ofList back) tail).toList := by
  have reversed : s.toList.reverse = back.reverse ++ c :: front.reverse := by simp [chars]
  have ends : endsWith s tail = endsWith (String.ofList back) tail := by
    rw [endsWith, reversed, isPrefixOf_append_cons fun mem => plain (List.mem_reverse.mp mem), endsWith,
      String.toList_ofList]
  unfold dropTail
  rw [ends]
  split
  case isFalse => rw [chars, String.toList_ofList]
  case isTrue found =>
    have within : tail.toList.length ≤ back.length := by
      rw [endsWith, String.toList_ofList] at found
      simpa using (List.isPrefixOf_iff_prefix.mp found).length_le
    have length : s.toList.length - tail.toList.length =
        front.length + (back.length - tail.toList.length + 1) := by
      rw [chars, List.length_append, List.length_cons]
      omega
    rw [String.toList_ofList, String.toList_ofList, length, chars, List.take_length_add_append,
      List.take_succ_cons, String.toList_ofList]

/-- Dropping a tail adds no characters. -/
lemma mem_of_mem_dropTail {s tail c} (mem : c ∈ (dropTail s tail).toList) : c ∈ s.toList := by
  unfold dropTail at mem
  split at mem
  · rw [String.toList_ofList] at mem
    exact List.mem_of_mem_take mem
  · exact mem

end Text

namespace Remote

open Sift.Url (isAlnum isPlain InHost)

/-- Letters and digits of any script. Of the characters beyond ASCII all are admitted that are not
blank. -/
def isLetterOrDigit (c : Char) : Bool := isAlnum c || (0x80 ≤ c.toNat && !Text.isBlank c)

def isWordChar (c : Char) : Bool := isAlnum c || c = '_'

def isHostChar (c : Char) : Bool := isLetterOrDigit c || c = '.' || c = '-'

def isNameChar (c : Char) : Bool := isLetterOrDigit c || c = '.' || c = '_' || c = '~' || c = '-'

/-- What a remote is spelled from: a user, a host and the names of a path. -/
structure Address where
  user : String
  host : String
  names : List String
  isUser : ∀ c ∈ user.toList, isWordChar c = true
  isHost : ∀ c ∈ host.toList, isHostChar c = true
  isName : ∀ name ∈ names, name ≠ "" ∧ ∀ c ∈ name.toList, isNameChar c = true
  names_ne_nil : names ≠ []

namespace Address

def path (address : Address) : String := "/".intercalate address.names

def shortForm (address : Address) : String := address.user ++ "@" ++ address.host ++ ":" ++ address.path

def sshUrl (address : Address) : String := "ssh://" ++ address.user ++ "@" ++ address.host ++ "/" ++ address.path

def webUrl (address : Address) : String := "https://" ++ address.host ++ "/" ++ address.path

end Address

/-- What a remote names, apart from how it is written. -/
def place (remote : Remote) : Forge × String × String × String :=
  (remote.forge, remote.host, remote.owner, remote.repository)

/-- What a path on a host names. -/
def placeAt? (forge : Option Forge) (host path : String) : Option (Forge × String × String × String) :=
  let forge := forge.getD (Forge.ofHost host)
  let names := if forge = .bitbucket then bitbucketNames? (segments path) else plainNames? (segments path)
  names.map fun names => (forge, host, names.1, names.2)

/-- A repository is where its address leads. -/
lemma place_of_parse {raw url} (read : Url.parse (toUrl raw) = .ok url) (known : url.scheme ∈ schemes)
    (forge : Option Forge) :
    (parse raw forge).toOption.map place = placeAt? forge url.host url.path := by
  have known : schemes.contains url.scheme = true := by rwa [List.contains_iff_mem]
  unfold parse placeAt?
  simp only [read, known, Bool.not_true, Bool.false_eq_true, if_false]
  cases (if forge.getD (Forge.ofHost url.host) = .bitbucket then bitbucketNames? (segments url.path)
    else plainNames? (segments url.path)) with
  | none => rfl
  | some names => rfl

/-- A slash in front adds no segment. -/
lemma segments_slash (cs : List Char) : segments (String.ofList ('/' :: cs)) = segments (String.ofList cs) := by
  have chars : Text.splitChars '/' ('/' :: cs) = [] :: Text.splitChars '/' cs := Text.splitChars_append [] cs
  rw [segments, segments, Text.splitAt, Text.splitAt, String.toList_ofList, String.toList_ofList, chars,
    List.map_cons, List.filter_cons_of_neg (by decide)]

/-- A slash parts the segments. -/
lemma segments_append (front back : String) : segments (front ++ "/" ++ back) = segments front ++ segments back := by
  rw [segments, Text.splitAt_append, List.filter_append]
  rfl

/-- What has no slash is one segment. -/
lemma segments_single {s} (ne : s ≠ "") (whole : '/' ∉ s.toList) : segments s = [s] := by
  rw [segments, Text.splitAt_of_not_mem whole, List.filter_singleton]
  simp [ne]

/-- A URL is not rewritten. -/
lemma toUrl_of_mark {url front back} (chars : url.toList = front ++ ':' :: '/' :: '/' :: back)
    (notBlank : ∀ c ∈ url.toList, Text.isBlank c = false) :
    toUrl url = Text.dropTail url ".git" := by
  have marked : Text.contains url "://" = true := by
    rw [Text.contains, chars]
    exact Text.containsChars_append front [':', '/', '/'] back
  rw [toUrl, Text.trim_eq_self notBlank, if_pos marked]

/-! ### Characters of an address -/

/-- Letters and digits of ASCII lie between these codes. -/
lemma toNat_of_isAlnum {c} (alnum : isAlnum c = true) : 48 ≤ c.toNat ∧ c.toNat ≤ 122 := by
  change ((decide ('A'.val ≤ c.val ∧ c.val ≤ 'Z'.val) || ('a'.val ≤ c.val && c.val ≤ 'z'.val)) ||
    ('0'.val ≤ c.val && c.val ≤ '9'.val)) = true at alnum
  simp only [Bool.or_eq_true, Bool.and_eq_true, decide_eq_true_eq, UInt32.le_iff_toNat_le] at alnum
  change 48 ≤ c.val.toNat ∧ c.val.toNat ≤ 122
  rcases alnum with (upper | lower) | digit
  · exact ⟨Nat.le_trans (by decide) upper.1, Nat.le_trans upper.2 (by decide)⟩
  · exact ⟨Nat.le_trans (by decide) lower.1, Nat.le_trans lower.2 (by decide)⟩
  · exact ⟨Nat.le_trans (by decide) digit.1, Nat.le_trans digit.2 (by decide)⟩

/-- A character that is neither blank nor special in a remote. -/
structure IsFree (c : Char) : Prop where
  isPlain : isPlain c = true
  notBlank : Text.isBlank c = false
  ne_colon : c ≠ ':'
  ne_at : c ≠ '@'

/-- Characters of different classes differ. -/
lemma ne_of_class {p : Char → Bool} {c d} (isIn : p c = true) (isOut : p d = false) : c ≠ d := by
  rintro rfl
  rw [isIn] at isOut
  exact absurd isOut (by decide)

/-- Letters and digits stand for themselves. -/
lemma isFree_of_isLetterOrDigit {c : Char} (letter : isLetterOrDigit c = true) : IsFree c := by
  have ne : ∀ d, isLetterOrDigit d = false → c ≠ d := fun d => ne_of_class letter
  have range : 32 ≤ c.toNat ∧ c.toNat ≠ 127 ∧ Text.isBlank c = false := by
    simp only [isLetterOrDigit, Bool.or_eq_true, Bool.and_eq_true, decide_eq_true_eq, Bool.not_eq_true'] at letter
    rcases letter with alnum | ⟨beyond, notBlank⟩
    · have range := toNat_of_isAlnum alnum
      refine ⟨by omega, by omega, ?_⟩
      simp only [Text.isBlank, Unicode.isSpace, Bool.or_eq_false_iff, Bool.and_eq_false_iff,
        decide_eq_false_iff_not, beq_eq_false_iff_ne]
      omega
    · exact ⟨by omega, by omega, notBlank⟩
  refine ⟨?_, range.2.2, ne _ (by decide), ne _ (by decide)⟩
  exact Url.isPlain_iff.mpr ⟨⟨range.1, range.2.1⟩, ne _ (by decide), ne _ (by decide)⟩

lemma isLetterOrDigit_of_isAlnum {c} (alnum : isAlnum c = true) : isLetterOrDigit c = true := by
  rw [isLetterOrDigit, alnum, Bool.true_or]

/-- Characters of names stand for themselves. -/
lemma isFree_of_isNameChar {c} (name : isNameChar c = true) : IsFree c := by
  simp only [isNameChar, Bool.or_eq_true, decide_eq_true_eq] at name
  rcases name with (((letter | rfl) | rfl) | rfl) | rfl
  · exact isFree_of_isLetterOrDigit letter
  all_goals exact ⟨by decide, by decide, by decide, by decide⟩

lemma isNameChar_of_isHostChar {c} (host : isHostChar c = true) : isNameChar c = true := by
  simp only [isHostChar, Bool.or_eq_true] at host
  simp only [isNameChar, Bool.or_eq_true]
  rcases host with (letter | dot) | hyphen
  · exact .inl (.inl (.inl (.inl letter)))
  · exact .inl (.inl (.inl (.inr dot)))
  · exact .inr hyphen

lemma isFree_of_isHostChar {c} (host : isHostChar c = true) : IsFree c :=
  isFree_of_isNameChar (isNameChar_of_isHostChar host)

/-- Characters of words stand for themselves. -/
lemma isFree_of_isWordChar {c} (word : isWordChar c = true) : IsFree c := by
  refine isFree_of_isNameChar ?_
  simp only [isWordChar, Bool.or_eq_true] at word
  simp only [isNameChar, Bool.or_eq_true]
  rcases word with alnum | underscore
  · exact .inl (.inl (.inl (.inl (isLetterOrDigit_of_isAlnum alnum))))
  · exact .inl (.inl (.inr underscore))

lemma inHost_of_isNameChar {c} (name : isNameChar c = true) : InHost c where
  isPlain := (isFree_of_isNameChar name).isPlain
  ne_bracket := ne_of_class name (by decide)
  ne_colon := (isFree_of_isNameChar name).ne_colon
  ne_at := (isFree_of_isNameChar name).ne_at
  allowed ascii := by
    have same : Char.ofNat (UInt8.ofNat c.toNat).toNat = c := by
      rw [UInt8.toNat_ofNat', Nat.mod_eq_of_lt (by omega), Char.ofNat_toNat]
    simp only [isNameChar, isLetterOrDigit, Bool.or_eq_true, Bool.and_eq_true, decide_eq_true_eq] at name
    unfold Url.plainInHost
    rw [same, Bool.or_eq_true]
    rcases name with ((((alnum | beyond) | rfl) | rfl) | rfl) | rfl
    · exact .inl alnum
    · omega
    all_goals exact .inr (by decide)

lemma inHost_of_isHostChar {c} (host : isHostChar c = true) : InHost c :=
  inHost_of_isNameChar (isNameChar_of_isHostChar host)

/-! ### The three spellings -/

/-- The short form is cut at its first colon. -/
lemma hostAndPath?_append {host path} (ne : host ≠ []) (plain : ∀ c ∈ host, c ≠ ':' ∧ c ≠ '/') (line : '\n' ∉ path) :
    hostAndPath? (host ++ ':' :: path) = some (host, path) := by
  have inHost : ∀ c ∈ host, (c ≠ ':' && c ≠ '/') = true := fun c mem => by simp [plain c mem]
  have before : (host ++ ':' :: path).takeWhile (fun c => c ≠ ':' && c ≠ '/') = host := by
    rw [List.takeWhile_append_of_pos inHost, List.takeWhile_cons_of_neg (by decide), List.append_nil]
  have line : path.contains '\n' = false := by rw [List.contains_eq_mem, decide_eq_false line]
  obtain ⟨c, rest, rfl⟩ := List.exists_cons_of_ne_nil ne
  unfold hostAndPath?
  simp only [before, List.drop_left, line]
  rfl

namespace Address

variable (address : Address)

lemma isFree_host {c} (mem : c ∈ address.host.toList) : IsFree c :=
  isFree_of_isHostChar (address.isHost c mem)

lemma isFree_user {c} (mem : c ∈ address.user.toList) : IsFree c :=
  isFree_of_isWordChar (address.isUser c mem)

/-- A path has slashes and characters that stand for themselves. -/
lemma isFree_path {c} (mem : c ∈ address.path.toList) : c = '/' ∨ IsFree c := by
  by_cases slash : c = '/'
  · exact .inl slash
  · obtain ⟨name, isName, mem⟩ := (Path.mem_intercalate slash).mp mem
    exact .inr (isFree_of_isNameChar ((address.isName name isName).2 c mem))

/-- A path begins with no slash. -/
lemma head_path : address.path.toList.head? ≠ some '/' := by
  obtain ⟨first, rest, names⟩ := List.exists_cons_of_ne_nil address.names_ne_nil
  obtain ⟨ne, isName⟩ := address.isName first (names ▸ List.mem_cons_self)
  obtain ⟨c, cs, chars⟩ := List.exists_cons_of_ne_nil fun none => ne (String.toList_eq_nil_iff.mp none)
  have isName : isNameChar c = true := isName c (chars ▸ List.mem_cons_self)
  have head : address.path.toList.head? = some c := by
    rw [path, names]
    cases rest with
    | nil => rw [String.intercalate_singleton, chars, List.head?_cons]
    | cons next rest =>
      rw [String.intercalate_cons_cons, String.toList_append, String.toList_append, chars]
      rfl
  rw [head]
  exact fun eq => ne_of_class isName (by decide) (Option.some.inj eq)

/-- What may stand between the two slashes and the path of a URL: the host, with or without the user. -/
def IsAuthority (authority : List Char) : Prop :=
  authority = address.host.toList ∨ authority = address.user.toList ++ '@' :: address.host.toList

variable {address} {authority : List Char}

/-- An authority has at signs and characters that stand for themselves. -/
lemma IsAuthority.isFree (isAuthority : address.IsAuthority authority) {c} (mem : c ∈ authority) :
    c = '@' ∨ IsFree c := by
  rcases isAuthority with rfl | rfl
  · exact .inr (address.isFree_host mem)
  · rcases List.mem_append.mp mem with user | host
    · exact .inr (address.isFree_user user)
    · exact (List.mem_cons.mp host).imp_right address.isFree_host

lemma IsAuthority.slash_not_mem (isAuthority : address.IsAuthority authority) : '/' ∉ authority := by
  have host : '/' ∉ address.host.toList := fun mem => absurd (address.isHost _ mem) (by decide)
  have user : '/' ∉ address.user.toList := fun mem => absurd (address.isUser _ mem) (by decide)
  rcases isAuthority with rfl | rfl
  · exact host
  · simp [host, user]

/-- An authority is read as its host. -/
lemma IsAuthority.read (isAuthority : address.IsAuthority authority) :
    Url.readAuthority authority = .ok address.host := by
  have inHost : ∀ c ∈ address.host.toList, InHost c := fun c mem => inHost_of_isHostChar (address.isHost c mem)
  rw [← String.ofList_toList (s := address.host)]
  rcases isAuthority with rfl | rfl
  · exact Url.readAuthority_host inHost
  · refine Url.readAuthority_user inHost (fun c mem => ?_) fun c mem => (address.isFree_user mem).isPlain
    have word := address.isUser c mem
    simp only [isWordChar, Bool.or_eq_true, decide_eq_true_eq] at word
    rcases word with alnum | rfl
    · rw [Url.isUserChar, alnum, Bool.true_or]
    · decide

/-- What a URL of the address names. The end of its path is dropped before it is read. -/
lemma place_of_url {raw url scheme} (isUrl : toUrl raw = Text.dropTail url ".git") (known : scheme ∈ schemes)
    (isAuthority : address.IsAuthority authority)
    (chars : url.toList = scheme.toList ++ ':' :: '/' :: '/' :: (authority ++ '/' :: address.path.toList))
    (forge : Option Forge) :
    (parse raw forge).toOption.map place = placeAt? forge address.host (Text.dropTail address.path ".git") := by
  have inHost : ∀ c ∈ address.host.toList, InHost c := fun c mem => inHost_of_isHostChar (address.isHost c mem)
  have short : (Text.dropTail url ".git").toList = scheme.toList ++ ':' :: '/' :: '/' ::
      (authority ++ '/' :: (Text.dropTail address.path ".git").toList) := by
    have front : url.toList = (scheme.toList ++ ':' :: '/' :: '/' :: authority) ++ '/' :: address.path.toList := by
      simp [chars]
    rw [Text.dropTail_append (by decide) front, String.ofList_toList]
    simp
  have plain : ∀ c ∈ authority ++ '/' :: (Text.dropTail address.path ".git").toList, isPlain c = true := by
    refine List.forall_mem_append.mpr ⟨fun c mem => ?_, List.forall_mem_cons.mpr ⟨by decide, fun c mem => ?_⟩⟩
    · rcases isAuthority.isFree mem with rfl | free
      · decide
      · exact free.isPlain
    · rcases address.isFree_path (Text.mem_of_mem_dropTail mem) with rfl | free
      · decide
      · exact free.isPlain
  have noQuery : '?' ∉ authority := fun mem =>
    absurd (plain _ (List.mem_append_left _ mem)) (by decide)
  have divided : Url.Divided (Text.dropTail url ".git").toList scheme address.host authority
      (Text.dropTail address.path ".git").toList :=
    ⟨known, short, isAuthority.slash_not_mem, noQuery, isAuthority.read⟩
  have read := Url.parse_plain divided plain
  have host : Url.host ⟨scheme, address.host, String.ofList ('/' :: (Text.dropTail address.path ".git").toList)⟩ =
      address.host := by
    have host := Url.host_plain inHost scheme (String.ofList ('/' :: (Text.dropTail address.path ".git").toList))
    rwa [String.ofList_toList] at host
  rw [place_of_parse (isUrl ▸ read) known, host, placeAt?, placeAt?, segments_slash, String.ofList_toList]

/-- An address with a scheme is left as it is, without its ending. -/
lemma toUrl_url {url scheme} (known : scheme ∈ schemes) (isAuthority : address.IsAuthority authority)
    (chars : url.toList = scheme.toList ++ ':' :: '/' :: '/' :: (authority ++ '/' :: address.path.toList)) :
    toUrl url = Text.dropTail url ".git" := by
  have inScheme : ∀ scheme ∈ schemes, scheme.toList.any Text.isBlank = false := by decide
  have notBlank : ∀ c ∈ url.toList, Text.isBlank c = false := by
    intro c mem
    simp only [chars, List.mem_append, List.mem_cons] at mem
    rcases mem with mem | rfl | rfl | rfl | mem | rfl | mem
    · exact Bool.eq_false_iff.mpr (List.any_eq_false.mp (inScheme scheme known) c mem)
    · decide
    · decide
    · decide
    · rcases isAuthority.isFree mem with rfl | free
      · decide
      · exact free.notBlank
    · decide
    · rcases address.isFree_path mem with rfl | free
      · decide
      · exact free.notBlank
  exact toUrl_of_mark chars notBlank

variable (address)

/-- The characters of the short form. -/
lemma toList_shortForm : address.shortForm.toList =
    address.user.toList ++ '@' :: (address.host.toList ++ ':' :: address.path.toList) := by
  simp [shortForm]

/-- The short form has a colon, but no slashes behind it. -/
lemma contains_shortForm : Text.contains address.shortForm "://" = false := by
  have front : ':' ∉ address.user.toList ++ '@' :: address.host.toList := by
    have host : ':' ∉ address.host.toList := fun mem => (address.isFree_host mem).ne_colon rfl
    have user : ':' ∉ address.user.toList := fun mem => (address.isFree_user mem).ne_colon rfl
    simp [host, user]
  have back : ':' ∉ address.path.toList := by
    intro mem
    rcases address.isFree_path mem with slash | free
    · exact absurd slash (by decide)
    · exact free.ne_colon rfl
  have chars : address.shortForm.toList =
      (address.user.toList ++ '@' :: address.host.toList) ++ ':' :: address.path.toList := by
    simp [toList_shortForm]
  rw [Text.contains, chars]
  exact Text.containsChars_single front back address.head_path

/-- The user is left out, unless there is none or the host is missing. -/
lemma shortForm?_shortForm : ∃ authority, address.IsAuthority authority ∧
    shortForm? address.shortForm.toList = some (authority, address.path.toList) := by
  have inUser : ∀ c ∈ address.user.toList, (isAlnum c || c = '_' || c = '.' || c = '-') = true := by
    intro c mem
    have word := address.isUser c mem
    rw [isWordChar] at word
    rw [word, Bool.true_or, Bool.true_or]
  have line : '\n' ∉ address.path.toList := by
    intro mem
    rcases address.isFree_path mem with slash | free
    · exact absurd slash (by decide)
    · exact absurd free.notBlank (by decide)
  have plainHost : ∀ c ∈ address.host.toList, c ≠ ':' ∧ c ≠ '/' := fun c mem =>
    ⟨(address.isFree_host mem).ne_colon, ne_of_class (address.isHost c mem) (by decide)⟩
  have plainUser : ∀ c ∈ address.user.toList, c ≠ ':' ∧ c ≠ '/' := fun c mem =>
    ⟨(address.isFree_user mem).ne_colon, ne_of_class (address.isUser c mem) (by decide)⟩
  have whole : hostAndPath? (address.user.toList ++ '@' :: (address.host.toList ++ ':' :: address.path.toList)) =
      some (address.user.toList ++ '@' :: address.host.toList, address.path.toList) := by
    have plain : ∀ c ∈ address.user.toList ++ '@' :: address.host.toList, c ≠ ':' ∧ c ≠ '/' :=
      List.forall_mem_append.mpr ⟨plainUser, List.forall_mem_cons.mpr ⟨by decide, plainHost⟩⟩
    have read := hostAndPath?_append (by simp) plain line
    rwa [List.append_assoc] at read
  rw [toList_shortForm, shortForm?]
  simp only [List.takeWhile_append_of_pos inUser, List.dropWhile_append_of_pos inUser]
  cases user : address.user.toList with
  | nil =>
    rw [user] at whole
    exact ⟨_, .inr (by rw [user]), whole⟩
  | cons c cs =>
    rw [user] at whole
    cases host : address.host.toList with
    | nil =>
      rw [host] at whole
      exact ⟨_, .inr (by rw [user, host]), whole⟩
    | cons d ds =>
      have read := hostAndPath?_append (List.cons_ne_nil d ds) (host ▸ plainHost) line
      refine ⟨_, .inl host.symm, ?_⟩
      change (hostAndPath? (d :: ds ++ ':' :: address.path.toList) <|> _) = _
      rw [read]
      rfl

/-- The short form is rewritten with a scheme. -/
lemma toUrl_shortForm : ∃ authority, address.IsAuthority authority ∧ toUrl address.shortForm =
    Text.dropTail ("ssh://" ++ String.ofList authority ++ "/" ++ address.path) ".git" := by
  obtain ⟨authority, isAuthority, read⟩ := address.shortForm?_shortForm
  have notBlank : ∀ c ∈ address.shortForm.toList, Text.isBlank c = false := by
    intro c mem
    simp only [toList_shortForm, List.mem_append, List.mem_cons] at mem
    rcases mem with mem | rfl | mem | rfl | mem
    · exact (address.isFree_user mem).notBlank
    · decide
    · exact (address.isFree_host mem).notBlank
    · decide
    · rcases address.isFree_path mem with rfl | free
      · decide
      · exact free.notBlank
  refine ⟨authority, isAuthority, ?_⟩
  simp only [toUrl, Text.trim_eq_self notBlank, contains_shortForm, Bool.false_eq_true, if_false, read,
    String.ofList_toList]

/-- The three spellings of an address name what its path, without `.git` at its end, names on its host. -/
theorem place_of_spelling (forge : Option Forge) :
    ∀ raw ∈ [address.shortForm, address.sshUrl, address.webUrl],
      (parse raw forge).toOption.map place = placeAt? forge address.host (Text.dropTail address.path ".git") := by
  intro raw mem
  simp only [List.mem_cons, List.not_mem_nil, or_false] at mem
  rcases mem with rfl | rfl | rfl
  case inl =>
    obtain ⟨authority, isAuthority, isUrl⟩ := address.toUrl_shortForm
    have chars : ("ssh://" ++ String.ofList authority ++ "/" ++ address.path).toList = "ssh".toList ++
        ':' :: '/' :: '/' :: (authority ++ '/' :: address.path.toList) := by
      simp
    exact place_of_url isUrl (by decide) isAuthority chars forge
  case inr.inl =>
    have isAuthority : address.IsAuthority (address.user.toList ++ '@' :: address.host.toList) := .inr rfl
    have chars : address.sshUrl.toList = "ssh".toList ++ ':' :: '/' :: '/' ::
        ((address.user.toList ++ '@' :: address.host.toList) ++ '/' :: address.path.toList) := by
      simp [sshUrl]
    exact place_of_url (toUrl_url (by decide) isAuthority chars) (by decide) isAuthority chars forge
  case inr.inr =>
    have isAuthority : address.IsAuthority address.host.toList := .inl rfl
    have chars : address.webUrl.toList = "https".toList ++ ':' :: '/' :: '/' ::
        (address.host.toList ++ '/' :: address.path.toList) := by
      simp [webUrl]
    exact place_of_url (toUrl_url (by decide) isAuthority chars) (by decide) isAuthority chars forge

/-- A project in nested groups has one place in all three spellings. -/
theorem place_of_spelling_nested :
    let found := some (Forge.generic, "code.example.org", "team/~ann", "tool")
    (parse "git@code.example.org:team/~ann/tool.git" none).toOption.map place = found ∧
      (parse "ssh://git@code.example.org/team/~ann/tool.git" none).toOption.map place = found ∧
      (parse "https://code.example.org/team/~ann/tool.git" none).toOption.map place = found := by
  intro found
  have isName : ∀ name ∈ ["team", "~ann", "tool.git"], name ≠ "" ∧ name.toList.all isNameChar = true := by decide
  have answer : placeAt? none "code.example.org" (Text.dropTail "team/~ann/tool.git" ".git") = found := by decide
  have named : ∀ raw ∈ ["git@code.example.org:team/~ann/tool.git", "ssh://git@code.example.org/team/~ann/tool.git",
      "https://code.example.org/team/~ann/tool.git"], (parse raw none).toOption.map place = _ :=
    place_of_spelling ⟨"git", "code.example.org", ["team", "~ann", "tool.git"], List.all_eq_true.mp (by decide),
      List.all_eq_true.mp (by decide), fun name mem => ⟨(isName name mem).1, List.all_eq_true.mp (isName name mem).2⟩,
      by decide⟩ none
  rw [← answer]
  exact ⟨named _ (by simp), named _ (by simp), named _ (by simp)⟩

end Address

end Remote

end Sift
