import Mathlib.Data.List.TakeWhile
import Sift.Proofs.Utf8
import Sift.Url

/-!
# Reading plain URLs

A URL is divided behind its scheme, at the slash behind its authority and at its question mark
(`Url.parse_append`). A path without escapes is read as it stands (`Url.parse_plain`). The authority may begin
with a user, who is left out (`Url.readAuthority_user`).
-/

namespace Sift

namespace Text

variable {c : Char} {front back : List Char}

lemma cutChars_of_not_mem {cs} (free : c ∉ cs) : cutChars c cs = none := by
  induction cs with
  | nil => rfl
  | cons d rest ih =>
    rw [List.mem_cons, not_or] at free
    rw [cutChars, if_neg (Ne.symm free.1), ih free.2]
    rfl

/-- A cut is at the first separator. -/
lemma cutChars_append (free : c ∉ front) : cutChars c (front ++ c :: back) = some (front, back) := by
  induction front with
  | nil => rw [List.nil_append, cutChars, if_pos rfl]
  | cons d rest ih =>
    rw [List.mem_cons, not_or] at free
    rw [List.cons_append, cutChars, if_neg (Ne.symm free.1), ih free.2]
    rfl

lemma cutLastChars_of_not_mem {cs} (free : c ∉ cs) : cutLastChars c cs = none := by
  rw [cutLastChars, cutChars_of_not_mem fun mem => free (List.mem_reverse.mp mem)]
  rfl

/-- A last cut is at the last separator. -/
lemma cutLastChars_append (free : c ∉ back) : cutLastChars c (front ++ c :: back) = some (front, back) := by
  have reversed : (front ++ c :: back).reverse = back.reverse ++ c :: front.reverse := by simp
  rw [cutLastChars, reversed, cutChars_append fun mem => free (List.mem_reverse.mp mem)]
  simp only [Option.map_some, List.reverse_reverse]

end Text

namespace Url

/-- Whether a character stands for itself in every part of a URL: it neither escapes nor divides. -/
def isPlain (c : Char) : Bool := 32 ≤ c.toNat && c.toNat ≠ 127 && c ≠ '%' && c ≠ '?'

/-- A character that is not a control character. -/
def IsClear (c : Char) : Prop := 32 ≤ c.toNat ∧ c.toNat ≠ 127

instance (c : Char) : Decidable (IsClear c) := inferInstanceAs (Decidable (_ ∧ _))

lemma isPlain_iff {c} : isPlain c = true ↔ IsClear c ∧ c ≠ '%' ∧ c ≠ '?' := by
  simp only [isPlain, IsClear, Bool.and_eq_true, decide_eq_true_eq, and_assoc]

/-- Nothing is resolved where nothing is escaped. -/
lemma unescape_eq_self {part bytes} (plain : ∀ b ∈ bytes, b ≠ 37)
    (allowed : part = .host ∨ part = .zone → ∀ b ∈ bytes, b < 0x80 → plainInHost b = true) :
    unescape part bytes = .ok bytes := by
  induction bytes with
  | nil => rfl
  | cons b rest ih =>
    obtain ⟨first, others⟩ := List.forall_mem_cons.mp plain
    have rest_eq := ih others fun inHost b mem => allowed inHost b (List.mem_cons_of_mem _ mem)
    have kept : ((part = .host || part = .zone) && b < 0x80 && !plainInHost b) = false := by
      by_cases inHost : part = .host ∨ part = .zone
      · by_cases ascii : b < 0x80
        · rw [allowed inHost b List.mem_cons_self ascii, Bool.not_true, Bool.and_false]
        · simp [ascii]
      · simp [not_or.mp inHost]
    unfold unescape
    rw [if_neg first, kept, rest_eq]
    rfl

/-- Plain characters need no unescaping. -/
lemma unescapeChars_eq_self {part cs} (plain : ∀ c ∈ cs, isPlain c = true)
    (allowed : part = .host ∨ part = .zone → ∀ c ∈ cs, c.toNat < 0x80 →
      plainInHost (UInt8.ofNat c.toNat) = true) :
    unescapeChars part cs = .ok (String.ofList cs) := by
  have known : ∀ b ∈ Utf8.ofString (String.ofList cs), b.toNat < 0x80 → ∃ c ∈ cs, c.toNat = b.toNat := by
    intro b mem ascii
    have found := Utf8.exists_of_mem_ofString mem ascii
    rwa [String.toList_ofList] at found
  have same : unescape part (Utf8.ofString (String.ofList cs)) = .ok (Utf8.ofString (String.ofList cs)) := by
    refine unescape_eq_self ?_ ?_
    · rintro b mem rfl
      obtain ⟨c, mem, eq⟩ := known 37 mem (by decide)
      obtain rfl : c = '%' := Char.toNat_inj.mp eq
      exact absurd (plain _ mem) (by decide)
    · intro inHost b mem ascii
      have ascii : b.toNat < 0x80 := UInt8.lt_iff_toNat_lt.mp ascii
      obtain ⟨c, mem, eq⟩ := known b mem ascii
      have fine := allowed inHost c mem (eq ▸ ascii)
      rwa [eq, UInt8.ofNat_toNat] at fine
  rw [unescapeChars, same]
  exact congrArg Except.ok (Utf8.toString_ofString _)

/-- A character of a host that is neither escaped nor divides host and port. -/
structure InHost (c : Char) : Prop where
  isPlain : isPlain c = true
  ne_bracket : c ≠ '['
  ne_colon : c ≠ ':'
  ne_at : c ≠ '@'
  allowed : c.toNat < 0x80 → plainInHost (UInt8.ofNat c.toNat) = true

section Host

variable {host : List Char} (inHost : ∀ c ∈ host, InHost c)
include inHost

/-- A plain host is read as it is. -/
lemma readHost_plain : readHost host = .ok (String.ofList host) := by
  have bracket : host.contains '[' = false := by
    rw [List.contains_eq_mem, decide_eq_false_iff_not]
    exact fun mem => (inHost _ mem).ne_bracket rfl
  have colon : ':' ∉ host := fun mem => (inHost _ mem).ne_colon rfl
  rw [readHost, bracket, Text.cutLastChars_of_not_mem colon]
  exact unescapeChars_eq_self (fun c mem => (inHost c mem).isPlain) fun _ c mem => (inHost c mem).allowed

/-- A host alone is read as it stands. -/
lemma readAuthority_host : readAuthority host = .ok (String.ofList host) := by
  rw [readAuthority, Text.cutLastChars_of_not_mem fun mem => (inHost _ mem).ne_at rfl]
  exact readHost_plain inHost

/-- A user before the host is left out. -/
lemma readAuthority_user {user} (isUser : ∀ c ∈ user, isUserChar c = true) (plain : ∀ c ∈ user, isPlain c = true) :
    readAuthority (user ++ '@' :: host) = .ok (String.ofList host) := by
  have all : user.all isUserChar = true := List.all_eq_true.mpr isUser
  have read : unescapeChars .user user = .ok (String.ofList user) :=
    unescapeChars_eq_self plain fun inHost => absurd inHost (by decide)
  rw [readAuthority, Text.cutLastChars_append fun mem => (inHost _ mem).ne_at rfl]
  simp only [readHost_plain inHost, all, read]
  rfl

/-- The host without a port is the host. -/
lemma host_plain (scheme path : String) : Url.host ⟨scheme, String.ofList host, path⟩ = String.ofList host := by
  have colon : ':' ∉ host := fun mem => (inHost _ mem).ne_colon rfl
  simp only [Url.host, String.toList_ofList, Text.cutLastChars_of_not_mem colon]
  split
  next bracket _ => exact absurd rfl (inHost '[' (bracket ▸ List.mem_cons_self)).ne_bracket
  next => rfl

end Host

section Scheme

variable {scheme : String} (known : scheme ∈ ["http", "https", "ssh"])
include known

/-- A scheme is split off. -/
lemma splitScheme_append (rest : List Char) :
    splitScheme (scheme.toList ++ ':' :: rest) = .ok (scheme.toList, rest) := by
  simp only [List.mem_cons, List.not_mem_nil, or_false] at known
  rcases known with rfl | rfl | rfl
  · rfl
  · rfl
  · rfl

lemma toLower_scheme : (String.ofList scheme.toList).toLower = scheme := by
  have same : ∀ scheme ∈ ["http", "https", "ssh"], scheme.toList.map Char.toLower = scheme.toList := by decide
  change (String.ofList scheme.toList).map Char.toLower = scheme
  rw [← String.toList_inj, String.toList_map, String.toList_ofList, same scheme known]

lemma isClear_scheme : ∀ c ∈ scheme.toList, IsClear c := by
  have plain : ∀ scheme ∈ ["http", "https", "ssh"], scheme.toList.all isPlain = true := by decide
  exact fun c mem => (isPlain_iff.mp (List.all_eq_true.mp (plain scheme known) c mem)).1

end Scheme

/-- Clear characters are no control characters. -/
lemma any_control_eq_false {cs : List Char} (clear : ∀ c ∈ cs, IsClear c) :
    cs.any (fun c => c.toNat < 32 || c.toNat = 127) = false := by
  rw [List.any_eq_false]
  intro c mem
  obtain ⟨least, other⟩ := clear c mem
  simp only [Bool.or_eq_true, decide_eq_true_eq]
  omega

lemma takeWhile_append_cons {cs rest} {c d : Char} (free : d ∉ cs) (ne : c ≠ d) :
    (cs ++ c :: rest).takeWhile (· ≠ d) = cs ++ c :: rest.takeWhile (· ≠ d) := by
  have front : ∀ c ∈ cs, decide (c ≠ d) = true := fun c mem => decide_eq_true fun eq => free (eq ▸ mem)
  rw [List.takeWhile_append_of_pos front, List.takeWhile_cons, if_pos (decide_eq_true ne)]

/-- What a URL with an authority is made of. -/
structure Divided (main : List Char) (scheme host : String) (authority rest : List Char) : Prop where
  known : scheme ∈ ["http", "https", "ssh"]
  chars : main = scheme.toList ++ ':' :: '/' :: '/' :: (authority ++ '/' :: rest)
  whole : '/' ∉ authority
  noQuery : '?' ∉ authority
  read : readAuthority authority = .ok host

namespace Divided

variable {main authority rest : List Char} {scheme host : String} (divided : Divided main scheme host authority rest)
include divided

/-- The scheme is split off. -/
lemma splitScheme_eq : splitScheme main = .ok (scheme.toList, '/' :: '/' :: (authority ++ '/' :: rest)) := by
  rw [divided.chars, splitScheme_append divided.known]

lemma scheme_ne : scheme ≠ "" := by
  rintro rfl
  exact absurd divided.known (by decide)

lemma ne_star : main ≠ ['*'] := by
  intro star
  have length := congrArg List.length (star.symm.trans divided.chars)
  simp at length
  omega

/-- An address is clear if what follows its scheme is. -/
lemma isClear (clear : ∀ c ∈ authority ++ '/' :: rest, IsClear c) : ∀ c ∈ main, IsClear c := by
  simp only [divided.chars, List.forall_mem_append, List.forall_mem_cons] at clear ⊢
  exact ⟨isClear_scheme divided.known, by decide, by decide, by decide, clear⟩

/-- The authority stands before any query. -/
lemma takeWhile_query : ('/' :: '/' :: (authority ++ '/' :: rest)).takeWhile (· ≠ '?') =
    '/' :: '/' :: (authority ++ '/' :: rest.takeWhile (· ≠ '?')) := by
  rw [List.takeWhile_cons_of_pos (by decide), List.takeWhile_cons_of_pos (by decide),
    takeWhile_append_cons divided.noQuery (by decide)]

/-- The authority ends at the first slash. -/
lemma takeWhile_slash (path : List Char) : (authority ++ '/' :: path).takeWhile (· ≠ '/') = authority := by
  have apart : ∀ c ∈ authority, decide (c ≠ '/') = true := fun c mem =>
    decide_eq_true fun eq => divided.whole (eq ▸ mem)
  rw [List.takeWhile_append_of_pos apart, List.takeWhile_cons_of_neg (by decide), List.append_nil]

/-- The path begins there. -/
lemma dropWhile_slash (path : List Char) : (authority ++ '/' :: path).dropWhile (· ≠ '/') = '/' :: path := by
  have apart : ∀ c ∈ authority, decide (c ≠ '/') = true := fun c mem =>
    decide_eq_true fun eq => divided.whole (eq ▸ mem)
  rw [List.dropWhile_append_of_pos apart, List.dropWhile_cons_of_neg (by decide)]

end Divided

section Parse

variable {url scheme host : String} {authority rest : List Char}
  (divided : Divided url.toList scheme host authority rest)
include divided

/-- The path of a URL ends at the first question mark. -/
lemma parse_append (clear : ∀ c ∈ authority ++ '/' :: rest, IsClear c) :
    parse url = (unescapeChars .path ('/' :: rest.takeWhile (· ≠ '?'))).map (⟨scheme, host, ·⟩) := by
  have control : url.toList.any (fun c => c.toNat < 32 || c.toNat = 127) = false :=
    any_control_eq_false (divided.isClear clear)
  have some : url.toList.isEmpty = false := by simp [divided.chars]
  have other : url ≠ "*" := fun eq => divided.ne_star (by rw [eq]; rfl)
  unfold parse
  simp only [control, some, other, if_false, Bool.false_eq_true, divided.splitScheme_eq, bind, Except.bind,
    toLower_scheme divided.known, divided.takeWhile_query, divided.takeWhile_slash, divided.dropWhile_slash,
    divided.read, divided.scheme_ne]
  rfl

/-- A path without escapes is read as it stands. -/
lemma parse_plain (plain : ∀ c ∈ authority ++ '/' :: rest, isPlain c = true) :
    parse url = .ok ⟨scheme, host, String.ofList ('/' :: rest)⟩ := by
  have path : rest.takeWhile (· ≠ '?') = rest := by
    refine List.takeWhile_eq_self_iff.mpr fun c mem => decide_eq_true ?_
    exact (isPlain_iff.mp (plain c (List.mem_append_right _ (List.mem_cons_of_mem _ mem)))).2.2
  have unescaped : unescapeChars .path ('/' :: rest) = .ok (String.ofList ('/' :: rest)) :=
    unescapeChars_eq_self (fun c mem => plain c (List.mem_append_right _ mem)) fun inHost => absurd inHost (by decide)
  rw [parse_append divided fun c mem => (isPlain_iff.mp (plain c mem)).1, path, unescaped]
  rfl

end Parse

end Url

end Sift
