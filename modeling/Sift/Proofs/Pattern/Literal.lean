import Mathlib.Data.List.Pairwise
import Sift.Pattern.Literal
import Sift.Proofs.Pattern.Search
import Sift.Proofs.Pattern.Spelling

/-!
# Literal text as a pattern

Text that is escaped is read as its own characters, one after the other (`parse_literal`), and a boundary
of words may be asked for on either side. Such a pattern matches at a place where the characters stand and
the boundaries are (`matchAt?_literal`), so that what a search finds are the leftmost of these places that
do not overlap (`leftmost_findAll`).
-/

namespace Sift.Pattern

/-! ## Reading -/

/-- A printable character, a tab or a line feed. -/
def IsLiteral (c : Char) : Prop := Unicode.isPrintable c.toNat = true ∨ c = '\t' ∨ c = '\n'

lemma mem_metaChars_of_isSpecial {c} (special : isSpecial c = true) : c ∈ metaChars := by
  rw [isSpecial, Bool.or_eq_true] at special
  rcases special with repeats | other
  · simp only [isRepeatChar, Bool.or_eq_true, decide_eq_true_eq] at repeats
    rcases repeats with ((rfl | rfl) | rfl) | rfl <;> decide
  · have listed : "$().[\\^|".toList ⊆ metaChars := by decide
    exact listed (List.contains_iff_mem.mp other)

/-- A character with a meaning of its own stands for itself behind a backslash. -/
lemma spells_metaChar {options c} (special : c ∈ metaChars) {rest nodes} (more : Spells options rest nodes) :
    Spells options ('\\' :: c :: rest) (options.charNode c.toNat :: nodes) := by
  have chars : metaChars = ['\\', '.', '+', '*', '?', '(', ')', '|', '[', ']', '{', '}', '^', '$', '#', ' '] := by
    decide
  rw [chars] at special
  simp only [List.mem_cons, List.not_mem_nil, or_false] at special
  rcases special with rfl | rfl | rfl | rfl | rfl | rfl | rfl | rfl | rfl | rfl | rfl | rfl | rfl | rfl | rfl | rfl <;>
    exact @Spells.escaped options _ rest nodes ⟨options.charNode _, true⟩ (by intros; rfl) (by intros; rfl) more

/-- An escaped character stands for itself. -/
lemma spells_escapeChar {options c} (isLiteral : IsLiteral c) {rest nodes} (more : Spells options rest nodes) :
    Spells options (escapeChar c ++ rest) (options.charNode c.toNat :: nodes) := by
  unfold escapeChar
  split
  case isTrue =>
    split
    case isTrue special => exact spells_metaChar (List.contains_iff_mem.mp special) more
    case isFalse plain =>
      refine .char (Bool.eq_false_iff.mpr fun special => plain ?_) more
      exact List.contains_iff_mem.mpr (mem_metaChars_of_isSpecial special)
  case isFalse unprintable =>
    rcases isLiteral with printable | rfl | rfl
    · exact absurd printable unprintable
    · exact @Spells.escaped options 't' rest nodes ⟨options.charNode 9, true⟩ (by intros; rfl) (by intros; rfl) more
    · exact @Spells.escaped options 'n' rest nodes ⟨options.charNode 10, true⟩ (by intros; rfl) (by intros; rfl) more

/-- Escaped characters spell themselves. -/
lemma spells_literal {options} {text : List Char} (all : ∀ c ∈ text, IsLiteral c) :
    Spells options (text.flatMap escapeChar) (text.map fun c => options.charNode c.toNat) := by
  induction text with
  | nil => exact .nil
  | cons c rest ih =>
    obtain ⟨isLiteral, all⟩ := List.forall_mem_cons.mp all
    rw [List.flatMap_cons, List.map_cons]
    exact spells_escapeChar isLiteral (ih all)

/-- A boundary of words, if one is asked for. -/
def bound (asked : Bool) : List Node := if asked then [.anchor .boundary] else []

/-- Characters, with a boundary of words before and behind them if one is asked for. -/
def literalNode (before behind : Bool) (text : List Char) : Node :=
  .ofList (bound before ++ text.map (fun c => .char {} (.char c.toNat)) ++ bound behind)

lemma eq_of_mem_bound {node asked} (mem : node ∈ bound asked) : node = .anchor .boundary := by
  cases asked with
  | false => cases mem
  | true => exact List.mem_singleton.mp mem

lemma spells_bound (options : Options) (asked : Bool) :
    Spells options (if asked then ['\\', 'b'] else []) (bound asked) := by
  cases asked with
  | false => exact .nil
  | true =>
    exact @Spells.escaped options 'b' [] [] ⟨.anchor .boundary, false⟩ (by intros; rfl) (by intros; rfl) .nil

/-- A sequence of single pieces is no choice between others. -/
lemma alternation_sequence {nodes} (ne : nodes ≠ [])
    (pieces : ∀ node ∈ nodes, node.pieces = [node] ∧ node.choices = [node]) :
    Node.alternation [Node.sequence false nodes] = .ofList nodes := by
  have flat : nodes.flatMap Node.pieces = nodes := by
    clear ne
    induction nodes with
    | nil => rfl
    | cons node rest ih =>
      obtain ⟨single, pieces⟩ := List.forall_mem_cons.mp pieces
      rw [List.flatMap_cons, single.1, ih pieces, List.singleton_append]
  have one : (Node.ofList nodes).choices = [Node.ofList nodes] := by
    cases nodes with
    | nil => exact absurd rfl ne
    | cons node rest =>
      cases rest with
      | nil => exact (pieces node (List.mem_singleton_self _)).2
      | cons _ _ => rfl
  have join : ∀ node, Node.joinChoices [node] = [node] := by
    intro node
    cases node <;> rfl
  rw [Node.alternation, Node.sequence, if_neg Bool.false_ne_true, flat, List.flatMap_singleton, one, join]
  rfl

/-- Escaped text is read as its own characters. -/
lemma parse_literal {before behind text} (ne : text ≠ []) (all : ∀ c ∈ text, IsLiteral c) :
    parse { multiline := true } (String.ofList ((if before then ['\\', 'b'] else []) ++ text.flatMap escapeChar ++
      (if behind then ['\\', 'b'] else []))) = .ok (literalNode before behind text) := by
  have spells := ((spells_bound { multiline := true } before).append (spells_literal all)).append
    (spells_bound { multiline := true } behind)
  rw [parse_of_spells rfl rfl spells, alternation_sequence]
  · rfl
  · simp [ne]
  · simp only [List.mem_append, List.mem_map]
    rintro node ((mem | ⟨c, -, rfl⟩) | mem)
    · rw [eq_of_mem_bound mem]
      exact ⟨rfl, rfl⟩
    · exact ⟨rfl, rfl⟩
    · rw [eq_of_mem_bound mem]
      exact ⟨rfl, rfl⟩

/-! ## Matching -/

section Matching

variable {codes : List Nat} {start : Nat}

/-- The characters stand at a place, and words begin or end where it is asked for. -/
structure Stands (codes : List Nat) (before behind : Bool) (text : List Char) (place : Nat) : Prop where
  chars : text.map Char.toNat <+: codes.drop place
  before : before = true → Subject.boundaryAt ⟨codes.toArray, 0⟩ place = true
  behind : behind = true → Subject.boundaryAt ⟨codes.toArray, 0⟩ (place + text.length) = true

lemma read?_char (n place : Nat) : Subject.read? ⟨codes.toArray, start⟩ {} (.char n) place =
    if codes[place]? = some n then some (place + 1) else none := by
  refine Option.ext fun after => ?_
  rw [read?_eq_some rfl, Option.ite_none_right_eq_some, Option.some_inj, List.getElem?_toArray]
  constructor
  · rintro ⟨_, get, accepted, rfl⟩
    exact ⟨eq_of_beq accepted ▸ get, rfl⟩
  · rintro ⟨get, rfl⟩
    exact ⟨n, get, beq_self_eq_true n, rfl⟩

lemma cons_prefix_drop_iff {n place rest} :
    n :: rest <+: codes.drop place ↔ codes[place]? = some n ∧ rest <+: codes.drop (place + 1) := by
  by_cases lt : place < codes.length
  · rw [List.drop_eq_getElem_cons lt, List.cons_prefix_cons, List.getElem?_eq_getElem lt, Option.some_inj, eq_comm]
  · rw [List.drop_eq_nil_of_le (by omega), List.getElem?_eq_none (by omega)]
    simp

/-- Characters are matched where they stand. -/
lemma run_chars (text : List Char) (rest : List Node) (state : State) (next : Continuation) :
    (Node.ofList (text.map (fun c => .char {} (.char c.toNat)) ++ rest)).run ⟨codes.toArray, start⟩ state next =
      if text.map Char.toNat <+: codes.drop state.place then
        (Node.ofList rest).run ⟨codes.toArray, start⟩ { state with place := state.place + text.length } next
      else none := by
  induction text generalizing state with
  | nil =>
    rw [List.map_nil, List.map_nil, if_pos List.nil_prefix]
    rfl
  | cons c text ih =>
    have size : state.place + (c :: text).length = state.place + 1 + text.length := by
      rw [List.length_cons]
      omega
    rw [List.map_cons, List.cons_append, Node.run_ofList_cons, List.map_cons, size]
    simp only [Node.run, read?_char, cons_prefix_drop_iff]
    by_cases get : codes[state.place]? = some c.toNat
    · simp only [get, if_true, ih, true_and]
    · simp only [get, if_false, false_and]

/-- A boundary is matched where it is asked for. -/
lemma run_bound (asked : Bool) (rest : List Node) (state : State) (next : Continuation) :
    (Node.ofList (bound asked ++ rest)).run ⟨codes.toArray, start⟩ state next =
      if asked = true → Subject.boundaryAt ⟨codes.toArray, 0⟩ state.place = true then
        (Node.ofList rest).run ⟨codes.toArray, start⟩ state next
      else none := by
  cases asked with
  | false => rw [bound, if_neg Bool.false_ne_true, List.nil_append, if_pos (by rintro ⟨⟩)]
  | true =>
    rw [bound, if_pos rfl, List.singleton_append, Node.run_ofList_cons]
    simp only [Node.run, true_imp_iff]
    rfl

lemma isLocal_ofList {nodes} (all : ∀ node ∈ nodes, node.isLocal = true) :
    (Node.ofList nodes).isLocal = true := by
  induction nodes with
  | nil => rfl
  | cons node rest ih =>
    obtain ⟨first, all⟩ := List.forall_mem_cons.mp all
    cases rest with
    | nil => exact first
    | cons _ _ => exact Bool.and_eq_true_iff.mpr ⟨first, ih all⟩

/-- A literal is local. -/
lemma isLocal_literalNode (before behind : Bool) (text : List Char) :
    (literalNode before behind text).isLocal = true := by
  refine isLocal_ofList fun node mem => ?_
  simp only [List.mem_append, List.mem_map] at mem
  rcases mem with (mem | ⟨c, -, rfl⟩) | mem
  · rw [eq_of_mem_bound mem]
    rfl
  · rfl
  · rw [eq_of_mem_bound mem]
    rfl

/-- Literal text matches where it stands. -/
lemma matchAt?_literal (before behind : Bool) (text : List Char) {place found} :
    matchAt? (literalNode before behind text) ⟨codes.toArray, start⟩ place = some found ↔
      Stands codes before behind text place ∧
        found = ⟨place, text.length, place + text.length, [⟨0, place, text.length⟩]⟩ := by
  have node : literalNode before behind text = .ofList (bound before ++
      (text.map (fun c => .char {} (.char c.toNat)) ++ (bound behind ++ []))) := by
    rw [literalNode, List.append_nil, List.append_assoc]
  have run : (Node.capture (some 0) none (literalNode before behind text)).run ⟨codes.toArray, start⟩
      ⟨place, [], []⟩ some = (literalNode before behind text).run ⟨codes.toArray, start⟩ ⟨place, [↑place], []⟩
        (closeGroup (some 0) none some) := rfl
  have upright := Node.isUpright_of_isLocal (isLocal_literalNode before behind text)
  rw [matchAt?_eq_map upright, run, node, run_bound, run_chars, run_bound]
  have captured : recorded (some 0) (min (place : Int) ↑(place + text.length))
      (max (place : Int) ↑(place + text.length)) [] = [⟨0, place, text.length⟩] := by
    rw [recorded_of_le (Nat.le_add_right _ _), Nat.add_sub_cancel_left]
  simp only [closeGroup_none, captured, Node.run, Node.ofList, Option.map_eq_some_iff,
    Option.ite_none_right_eq_some]
  constructor
  · rintro ⟨_, ⟨front, chars, back, ⟨⟩⟩, rfl⟩
    exact ⟨⟨chars, front, back⟩, by simp [Match.ofState]⟩
  · rintro ⟨⟨chars, front, back⟩, rfl⟩
    exact ⟨_, ⟨front, chars, back, rfl⟩, by simp [Match.ofState]⟩

lemma least_ofList_append (nodes rest : List Node) :
    (Node.ofList (nodes ++ rest)).least = (Node.ofList nodes).least + (Node.ofList rest).least := by
  have cons : ∀ (node : Node) (rest : List Node),
      (Node.ofList (node :: rest)).least = node.least + (Node.ofList rest).least := by
    intro node rest
    cases rest <;> rfl
  induction nodes with
  | nil => exact (Nat.zero_add _).symm
  | cons node nodes ih => rw [List.cons_append, cons, cons, ih, Nat.add_assoc]

/-- A literal reads something. -/
lemma least_literalNode (before behind : Bool) {text} (ne : text ≠ []) :
    0 < (literalNode before behind text).least := by
  obtain ⟨c, rest, rfl⟩ := List.exists_cons_of_ne_nil ne
  rw [literalNode, List.map_cons, List.append_assoc, List.cons_append, least_ofList_append,
    ← List.singleton_append, least_ofList_append]
  exact Nat.add_pos_right _ (Nat.add_pos_left Nat.zero_lt_one _)

end Matching

/-! ## Searching -/

/-- The starts are those of the leftmost occurrences that do not overlap: something occurs at each of them,
one ends before the next begins, and whatever occurs runs into one that begins no later. -/
structure Leftmost (occurs : Nat → Prop) (length : Nat) (starts : List Nat) : Prop where
  holds : ∀ start ∈ starts, occurs start
  disjoint : starts.Pairwise fun start later => start + length ≤ later
  covered : ∀ place, occurs place → ∃ start ∈ starts, start ≤ place ∧ place < start + length

namespace Leftmost

variable {occurs : Nat → Prop} {length : Nat} {starts starts' : List Nat}

lemma add_le_of_lt (leftmost : Leftmost occurs length starts) {start later} (mem : start ∈ starts)
    (mem' : later ∈ starts) (lt : start < later) : start + length ≤ later := by
  have forth : starts.Pairwise fun a b => a < b → a + length ≤ b :=
    leftmost.disjoint.imp fun {a b} le (_ : a < b) => le
  have back : starts.Pairwise (flip fun a b => a < b → a + length ≤ b) :=
    leftmost.disjoint.imp fun {a b} le (lt : b < a) => by omega
  exact List.Pairwise.forall_of_forall_of_flip (fun a _ lt => absurd lt (Nat.lt_irrefl a)) forth back mem mem' lt

/-- Leftmost starts are determined. -/
lemma mem_of_mem (leftmost : Leftmost occurs length starts) (leftmost' : Leftmost occurs length starts') {start}
    (mem : start ∈ starts) : start ∈ starts' := by
  -- What begins before is in both lists, so that the one that covers this start cannot begin before it.
  induction start using Nat.strongRecOn generalizing starts starts' with
  | ind start ih =>
    obtain ⟨first, mem', le, lt⟩ := leftmost'.covered start (leftmost.holds start mem)
    rcases Nat.lt_or_eq_of_le le with before | rfl
    · have apart := leftmost.add_le_of_lt (ih first before leftmost' leftmost mem') mem before
      omega
    · exact mem'

/-- There is only one such list. -/
lemma unique (pos : 0 < length) (leftmost : Leftmost occurs length starts)
    (leftmost' : Leftmost occurs length starts') : starts = starts' := by
  have ascending : ∀ {starts : List Nat}, Leftmost occurs length starts → starts.Pairwise (· < ·) :=
    fun leftmost => leftmost.disjoint.imp (by omega)
  have same : starts.Perm starts' :=
    (List.perm_ext_iff_of_nodup ((ascending leftmost).imp Nat.ne_of_lt) ((ascending leftmost').imp Nat.ne_of_lt)).mpr
      fun _ => ⟨leftmost.mem_of_mem leftmost', leftmost'.mem_of_mem leftmost⟩
  refine List.Perm.eq_of_pairwise ?_ (ascending leftmost) (ascending leftmost') same
  intro a b _ _ lt lt'
  omega

end Leftmost

section Search

variable {before behind : Bool} {text : List Char} {codes : List Nat} {place : Nat}

lemma Stands.lt_length (stands : Stands codes before behind text place) (ne : text ≠ []) :
    place < codes.length := by
  obtain ⟨c, rest, rfl⟩ := List.exists_cons_of_ne_nil ne
  obtain ⟨get, -⟩ := cons_prefix_drop_iff.mp stands.chars
  exact (List.getElem?_eq_some_iff.mp get).1

/-- Where literal text stands behind the place that a search begins at, the search finds something that
reaches beyond. -/
lemma Scan.covered {start found} (ne : text ≠ []) (scan : Scan (literalNode before behind text) codes start found)
    (le : start ≤ place) (stands : Stands codes before behind text place) :
    ∃ first ∈ found, first.place ≤ place ∧ place < first.place + text.length := by
  have matches' := (@matchAt?_literal codes 0 before behind text place _).mpr ⟨stands, rfl⟩
  have bounded := Nat.le_of_lt (stands.lt_length ne)
  induction scan with
  | done none => cases matches'.symm.trans (none place le bounded)
  | @found start here first rest _ _ none eq later ih =>
    obtain ⟨-, rfl⟩ := (matchAt?_literal before behind text).mp eq
    by_cases before' : place < here
    · cases matches'.symm.trans (none place le before')
    · by_cases within : place < here + text.length
      · exact ⟨_, List.mem_cons_self, Nat.le_of_not_lt before', within⟩
      · obtain ⟨other, mem, covers⟩ := ih (Nat.le_of_not_lt within)
        exact ⟨other, List.mem_cons_of_mem _ mem, covers⟩

/-- One match of literal text ends before the next begins. -/
lemma Scan.pairwise {start found} (scan : Scan (literalNode before behind text) codes start found) :
    found.Pairwise fun first second => first.place + text.length ≤ second.place := by
  induction scan with
  | done _ => exact .nil
  | @found _ here first rest _ _ _ eq later ih =>
    obtain ⟨-, rfl⟩ := (matchAt?_literal before behind text).mp eq
    refine .cons (fun second mem => ?_) ih
    exact (later.start_le_start (isLocal_literalNode before behind text) second mem).1

/-- What a search finds stands there. -/
lemma stands_of_mem_findAll (ne : text ≠ []) {found}
    (mem : found ∈ findAll (literalNode before behind text) codes.toArray) :
    Stands codes before behind text found.place ∧ found.start = found.place ∧ found.length = text.length := by
  have isLocal := isLocal_literalNode before behind text
  have scan := scan_findAll isLocal (least_literalNode before behind ne) codes
  obtain ⟨_, _, _, eq⟩ := scan.start_le_start isLocal found mem
  obtain ⟨stands, same⟩ := (matchAt?_literal before behind text).mp eq
  have start : found.start = (found.place : Int) := congrArg Match.start same
  exact ⟨stands, start, by rw [same]⟩

/-- A search finds the leftmost places where literal text stands. -/
lemma leftmost_findAll (before behind : Bool) {text} (ne : text ≠ []) (codes : List Nat) :
    Leftmost (Stands codes before behind text) text.length
      ((findAll (literalNode before behind text) codes.toArray).map (·.place)) := by
  have scan := scan_findAll (isLocal_literalNode before behind text) (least_literalNode before behind ne) codes
  refine ⟨?_, List.pairwise_map.mpr scan.pairwise, fun place stands => ?_⟩
  · intro start mem
    obtain ⟨found, mem', rfl⟩ := List.mem_map.mp mem
    exact (stands_of_mem_findAll ne mem').1
  · obtain ⟨first, mem, covers⟩ := scan.covered ne (Nat.zero_le place) stands
    exact ⟨first.place, List.mem_map_of_mem mem, covers⟩

end Search

end Sift.Pattern
