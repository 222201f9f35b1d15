import Sift.Proofs.Segment.Progress

/-!
# Comments byte by byte

A second reading of comments beside the scan, which jumps from marker to marker: an automaton that
takes one byte at a time (`read`, `marks`) and remembers no more than the last bytes of a block comment.
It passes over each thing that a scan finds and takes all of it for comment or none (`Passes`), one lemma
for each kind of thing. Hence the two agree at each place of a scan (`Scanner.Agrees`), and at its end
they have found the same comments, for all syntaxes with markers as usual (`Plain.holds_iff`) and so for
those that are known from the start (`holds_iff_marks`).
-/

namespace Sift.CommentSyntax

/-- What the automaton takes the next byte for. -/
inductive Mode where
  | code
  /-- Inside a literal; `escaped` right after a backslash. -/
  | literal (quote : UInt8) (escaped : Bool)
  /-- Inside a line comment. -/
  | line
  /-- Inside the opener of a block comment, with `left` of its bytes behind the next. -/
  | opener (left : Nat)
  /-- Inside a block comment. `recent` holds the last bytes behind the opener, the latest first and not
  more than the closer has. -/
  | block (recent : Bytes)
  deriving DecidableEq, Repr

/-- The mode with so many bytes of an opener to come. -/
def Mode.inOpener : Nat → Mode
  | 0 => .block []
  | left + 1 => .opener left

/-- Reads a byte in code: whether it belongs to a comment, and the mode for the next one. Quotes come
before openers of block comments, and these before markers of line comments. -/
def readCode (syn : CommentSyntax) (b : UInt8) (rest : Bytes) : Bool × Mode :=
  if b ∈ syn.quotes then (false, .literal b false)
  else if syn.Opens (b :: rest) then (true, .inOpener (syn.blockStart.length - 1))
  else if syn.Marked (b :: rest) then (true, .line)
  else (false, .code)

/-- Reads a byte in a mode. A literal ends with its quote, unless this is escaped, and a line comment
before the line break, as does a literal that may not contain one. A block comment ends as soon as the
last bytes behind its opener are the closer. -/
def read (syn : CommentSyntax) : Mode → UInt8 → Bytes → Bool × Mode
  | .code, b, rest => syn.readCode b rest
  | .literal quote true, _, _ => (false, .literal quote false)
  | .literal quote false, b, rest =>
    if b = backslash then (false, .literal quote true)
    else if b = quote then (false, .code)
    else if b = lineFeed ∧ quote ∉ syn.multiline then syn.readCode b rest
    else (false, .literal quote false)
  | .line, b, rest => if b = lineFeed then syn.readCode b rest else (true, .line)
  | .opener left, _, _ => (true, .inOpener left)
  | .block recent, b, _ =>
    let recent := (b :: recent).take syn.blockEnd.length
    (true, if recent.reverse = syn.blockEnd then .code else .block recent)

/-- Which bytes of a text belong to comments, read one at a time from a mode on. -/
def marks (syn : CommentSyntax) : Mode → Bytes → List Bool
  | _, [] => []
  | mode, b :: rest => (syn.read mode b rest).1 :: syn.marks (syn.read mode b rest).2 rest

variable {syn : CommentSyntax}

/-- From a mode on, the automaton takes the next `n` bytes all for comment or all for something else,
and reads code behind them. -/
def Passes (syn : CommentSyntax) (comment : Bool) (mode : Mode) (n : Nat) (text : Bytes) : Prop :=
  syn.marks mode text = List.replicate n comment ++ syn.marks .code (text.drop n)

lemma passes_code (comment : Bool) (text : Bytes) : syn.Passes comment .code 0 text := rfl

lemma passes_nil (comment : Bool) (mode : Mode) : syn.Passes comment mode 0 [] := rfl

/-- What ends before a byte leaves it to be read as code. -/
lemma passes_zero {comment mode b rest} (reads : syn.read mode b rest = syn.readCode b rest) :
    syn.Passes comment mode 0 (b :: rest) := by
  rw [Passes, marks, reads]
  rfl

lemma Passes.cons {comment mode next n b rest} (reads : syn.read mode b rest = (comment, next))
    (passes : syn.Passes comment next n rest) :
    syn.Passes comment mode (n + 1) (b :: rest) := by
  rw [Passes, marks, reads, passes, List.replicate_succ]
  rfl

lemma read_backslash (quote : UInt8) (rest : Bytes) :
    syn.read (.literal quote false) backslash rest = (false, .literal quote true) := by
  rw [read, if_pos rfl]

/-- A string literal is passed as code. -/
lemma passes_literal (quote : UInt8) {multiline} (multi : syn.multiline.contains quote = multiline) (text : Bytes) :
    syn.Passes false (.literal quote false) (literalLength quote multiline text) text := by
  fun_induction literalLength quote multiline text with
  | case1 => exact passes_nil _ _
  | case2 => exact .cons (read_backslash quote []) (passes_nil _ _)
  | case3 c rest ih => exact .cons (read_backslash quote _) (.cons rfl ih)
  | case4 rest noEscape =>
    refine .cons ?_ (passes_code _ _)
    rw [read, if_neg noEscape, if_pos rfl]
  | case5 b rest noEscape noQuote breaks =>
    have ends : b = lineFeed ∧ quote ∉ syn.multiline := by simpa [← multi] using breaks
    apply passes_zero
    rw [read, if_neg noEscape, if_neg noQuote, if_pos ends]
  | case6 b rest noEscape noQuote inside ih =>
    have stays : ¬ (b = lineFeed ∧ quote ∉ syn.multiline) := by simpa [← multi] using inside
    refine .cons ?_ ih
    rw [read, if_neg noEscape, if_neg noQuote, if_neg stays]

/-- A line comment is passed as comment. -/
lemma passes_line (text : Bytes) :
    syn.Passes true .line ((indexOf? [lineFeed] text).getD text.length) text := by
  induction text with
  | nil => exact passes_nil _ _
  | cons b rest ih =>
    rw [lineLength_cons]
    by_cases ends : b = lineFeed
    · rw [if_pos ends]
      exact passes_zero (if_pos ends)
    · rw [if_neg ends]
      exact .cons (if_neg ends) ih

lemma passes_inOpener {left n text} (fits : left ≤ text.length)
    (passes : syn.Passes true (.block []) n (text.drop left)) :
    syn.Passes true (.inOpener left) (n + left) text := by
  induction left generalizing text with
  | zero => exact passes
  | succ left ih =>
    cases text with
    | nil => cases fits
    | cons b rest => exact .cons rfl (ih (Nat.le_of_succ_le_succ fits) passes)

/-- The mode when `seen` has been read behind the opener of a block comment. -/
def Mode.behind (syn : CommentSyntax) (seen : Bytes) : Mode :=
  .block (seen.reverse.take syn.blockEnd.length)

lemma behind_nil (syn : CommentSyntax) : Mode.behind syn [] = .block [] := by
  rw [Mode.behind, List.reverse_nil, List.take_nil]

lemma recent_concat (seen : Bytes) (b : UInt8) (n : Nat) :
    (b :: seen.reverse.take n).take n = (seen ++ [b]).reverse.take n := by
  rw [List.reverse_append, List.reverse_singleton, List.singleton_append]
  cases n with
  | zero => rfl
  | succ n =>
    rw [List.take_succ_cons, List.take_succ_cons, List.take_take, Nat.min_eq_left (Nat.le_succ n)]

lemma recent_eq_iff (part seen : Bytes) :
    (seen.reverse.take part.length).reverse = part ↔ part <:+ seen := by
  have size : part.length = part.reverse.length := List.length_reverse.symm
  rw [List.reverse_eq_iff, size, eq_comm, ← List.prefix_iff_eq_take, List.reverse_prefix]

/-- A byte ends a block comment just when the closer stands before the next. -/
lemma read_behind (syn : CommentSyntax) (seen : Bytes) (b : UInt8) (rest : Bytes) :
    syn.read (.behind syn seen) b rest =
      (true, if syn.blockEnd <:+ seen ++ [b] then .code else .behind syn (seen ++ [b])) := by
  rw [Mode.behind, read, recent_concat]
  by_cases closed : syn.blockEnd <:+ seen ++ [b]
  · rw [if_pos closed, if_pos ((recent_eq_iff _ _).mpr closed)]
  · rw [if_neg closed, if_neg (mt (recent_eq_iff _ _).mp closed)]
    rfl

/-- The automaton stays in a block comment until the closer has been read. -/
lemma passes_behind {seen front back n}
    (open_ : ∀ part, part <+: front → part ≠ [] → ¬ syn.blockEnd <:+ seen ++ part)
    (passes : syn.Passes true (.behind syn (seen ++ front)) n back) :
    syn.Passes true (.behind syn seen) (n + front.length) (front ++ back) := by
  induction front generalizing seen with
  | nil =>
    rw [List.append_nil] at passes
    exact passes
  | cons b front ih =>
    have here := open_ [b] ⟨front, rfl⟩ (List.cons_ne_nil _ _)
    have later : ∀ part, part <+: front → part ≠ [] → ¬ syn.blockEnd <:+ seen ++ [b] ++ part := by
      intro part front _
      rw [List.append_assoc]
      exact open_ (b :: part) (List.cons_prefix_cons.mpr ⟨rfl, front⟩) (List.cons_ne_nil _ _)
    have reads := syn.read_behind seen b (front ++ back)
    rw [if_neg here] at reads
    refine .cons reads (ih later ?_)
    rw [List.append_assoc]
    exact passes

lemma suffix_take_iff {part text : Bytes} {stop} (le : stop ≤ text.length) :
    part <:+ text.take stop ↔ part.length ≤ stop ∧ part <+: text.drop (stop - part.length) := by
  rw [List.suffix_iff_eq_drop, List.length_take_of_le le, List.drop_take]
  constructor
  · intro eq
    have fits : part.length ≤ stop := by
      rw [eq, List.length_take, List.length_drop]
      omega
    rw [Nat.sub_sub_self fits] at eq
    exact ⟨fits, List.prefix_iff_eq_take.mpr eq⟩
  · rintro ⟨fits, stands⟩
    rw [Nat.sub_sub_self fits]
    exact List.prefix_iff_eq_take.mp stands

/-- Behind its opener, a block comment that is closed is passed over with its closer. -/
lemma passes_block {text : Bytes} {inside} (closer : syn.blockEnd ≠ []) (closes : FirstAt syn.blockEnd text inside) :
    syn.Passes true (.block []) (inside + syn.blockEnd.length) text := by
  have size := List.length_pos_iff.mpr closer
  have fits := closes.add_length_le
  obtain ⟨last, eq⟩ : ∃ last, inside + syn.blockEnd.length = last + 1 :=
    Nat.exists_eq_add_one.mpr (Nat.lt_add_left inside size)
  rw [eq] at fits
  have le : last ≤ text.length := Nat.le_of_succ_le fits
  have open_ : ∀ part, part <+: text.take last → part ≠ [] → ¬ syn.blockEnd <:+ [] ++ part := by
    intro part front _ ends
    -- A closer that is read earlier would stand at an earlier place.
    have short := front.length_le
    rw [List.length_take_of_le le] at short
    have take := List.prefix_iff_eq_take.mp front
    rw [List.take_take, Nat.min_eq_left short] at take
    rw [List.nil_append, take] at ends
    obtain ⟨_, stands⟩ := (suffix_take_iff (Nat.le_trans short le)).mp ends
    exact closes.first (part.length - syn.blockEnd.length) (by omega) stands
  have ends : syn.blockEnd <:+ [] ++ text.take last ++ [text[last]] := by
    rw [List.nil_append, List.take_append_getElem, suffix_take_iff fits, ← eq, Nat.add_sub_cancel]
    exact ⟨Nat.le_add_left _ _, closes.stands⟩
  have reads := syn.read_behind ([] ++ text.take last) text[last] (text.drop (last + 1))
  rw [if_pos ends] at reads
  have passes := passes_behind open_ (.cons reads (passes_code true _))
  rw [behind_nil, List.length_take_of_le le, List.getElem_cons_drop, List.take_append_drop,
    Nat.add_comm, Nat.zero_add, ← eq] at passes
  exact passes

/-- Behind its opener, a block comment that is not closed takes the whole text. -/
lemma passes_openBlock {text} (open_ : ∀ place, ¬ syn.blockEnd <+: text.drop place) :
    syn.Passes true (.block []) text.length text := by
  have never : ∀ part, part <+: text → part ≠ [] → ¬ syn.blockEnd <:+ [] ++ part := by
    intro part front _ ends
    rw [List.nil_append, List.prefix_iff_eq_take.mp front] at ends
    exact open_ _ ((suffix_take_iff front.length_le).mp ends).2
  have passes := passes_behind never (passes_nil true _)
  rw [behind_nil, List.append_nil, Nat.zero_add] at passes
  exact passes

/-- Line markers are not empty and do not begin with a line break, and block comments have a closer. -/
structure Plain (syn : CommentSyntax) : Prop where
  markers : ∀ marker ∈ syn.line, marker ≠ [] ∧ marker.head? ≠ some lineFeed
  closer : syn.blockStart = [] ∨ syn.blockEnd ≠ []

/-- A block comment is passed as comment. -/
lemma passes_opener {b rest n} (noQuote : b ∉ syn.quotes) (opens : syn.Opens (b :: rest))
    (passes : syn.Passes true (.block []) n ((b :: rest).drop syn.blockStart.length)) :
    syn.Passes true .code (n + syn.blockStart.length) (b :: rest) := by
  have fits := opens.2.length_le
  obtain ⟨left, eq⟩ := Nat.exists_eq_add_one.mpr (List.length_pos_iff.mpr opens.1)
  rw [eq] at passes fits ⊢
  refine .cons ?_ (passes_inOpener (Nat.le_of_succ_le_succ fits) passes)
  rw [read, readCode, if_neg noQuote, if_pos opens, eq, Nat.add_sub_cancel]

/-- The automaton passes over what is found at the front of a text, and takes it for what it is. -/
lemma Plain.passes_look (plain : syn.Plain) (text : Bytes) :
    syn.Passes (syn.look text).comment .code (syn.look text).length text := by
  cases text with
  | nil => exact passes_nil _ _
  | cons b rest =>
    generalize eq : syn.look (b :: rest) = found
    cases eq ▸ syn.shows_look b rest with
    | literal quote =>
      refine .cons ?_ (passes_literal b rfl rest)
      rw [read, readCode, if_pos quote]
    | @block inside noQuote opens closes =>
      have closer := plain.closer.resolve_left opens.1
      have passes := passes_opener noQuote opens (passes_block closer closes)
      rwa [Nat.add_comm, ← Nat.add_assoc] at passes
    | openBlock noQuote opens open_ =>
      have passes := passes_opener noQuote opens (passes_openBlock open_)
      rwa [List.length_drop, Nat.sub_add_cancel opens.2.length_le] at passes
    | line noQuote noBlock marked =>
      have inside : b ≠ lineFeed := by
        rintro rfl
        obtain ⟨marker, mem, stands⟩ := marked
        obtain ⟨nonempty, leading⟩ := plain.markers marker mem
        obtain ⟨c, tail, rfl⟩ := List.exists_cons_of_ne_nil nonempty
        exact leading (congrArg some (List.cons_prefix_cons.mp stands).1)
      rw [lineLength_cons, if_neg inside]
      refine .cons ?_ (passes_line rest)
      rw [read, readCode, if_neg noQuote, if_neg noBlock, if_pos marked]
    | plain noQuote noBlock unmarked =>
      refine .cons ?_ (passes_code _ _)
      rw [read, readCode, if_neg noQuote, if_neg noBlock, if_neg unmarked]

/-- The automaton takes for comment what a scan has noted so far, and what it takes for comment itself
from there on. -/
def Scanner.Agrees (syn : CommentSyntax) (text : Bytes) (scanner : Scanner) : Prop :=
  ∀ offset, (syn.marks .code text)[offset]? = some true ↔
    Segments.Holds scanner.comments offset ∨
      scanner.offset ≤ offset ∧ (syn.marks .code scanner.rest)[offset - scanner.offset]? = some true

/-- What is passed is marked alike. -/
lemma Passes.getElem?_marks {comment n text} (passes : syn.Passes comment .code n text) (start offset : Nat) :
    (start ≤ offset ∧ (syn.marks .code text)[offset - start]? = some true) ↔
      (comment = true ∧ start ≤ offset ∧ offset < start + n) ∨
        start + n ≤ offset ∧ (syn.marks .code (text.drop n))[offset - (start + n)]? = some true := by
  rw [passes]
  by_cases inside : offset - start < n
  · rw [List.getElem?_append_left (by rwa [List.length_replicate]),
      List.getElem?_replicate_of_lt inside]
    constructor
    · rintro ⟨le, eq⟩
      exact .inl ⟨Option.some.inj eq, le, by omega⟩
    · rintro (⟨rfl, le, _⟩ | ⟨le, _⟩)
      · exact ⟨le, rfl⟩
      · omega
  · rw [List.getElem?_append_right (by rw [List.length_replicate]; omega), List.length_replicate,
      Nat.sub_sub]
    constructor
    · rintro ⟨le, eq⟩
      exact .inr ⟨by omega, eq⟩
    · rintro (⟨_, le, lt⟩ | ⟨le, eq⟩)
      · omega
      · exact ⟨by omega, eq⟩

/-- A step keeps the scanner in agreement. -/
lemma Scanner.Agrees.advance {text scanner} (plain : syn.Plain) (agrees : Agrees syn text scanner) :
    Agrees syn text (syn.advance scanner) := by
  intro offset
  rw [agrees offset, (plain.passes_look scanner.rest).getElem?_marks, ← or_assoc]
  refine or_congr_left ?_
  rw [CommentSyntax.advance]
  dsimp only
  cases (syn.look scanner.rest).comment with
  | false => simp
  | true => simp [Segments.Holds, or_comm]

/-- So do all steps. -/
lemma Plain.agrees_after (plain : syn.Plain) (text : Bytes) (n : Nat) :
    Scanner.Agrees syn text (syn.after text n) := by
  induction n with
  | zero =>
    intro offset
    simp [after, Scanner.start, Segments.Holds]
  | succ n ih =>
    rw [after_succ]
    exact ih.advance plain

/-- A scan and the automaton find the same comments. -/
lemma Plain.holds_iff (plain : syn.Plain) {text segments} (eq : syn.segment? text = some segments) (offset : Nat) :
    segments.Holds offset ↔ (syn.marks .code text)[offset]? = some true := by
  obtain ⟨n, at_end, rfl⟩ := segment?_eq_some_iff.mp eq
  rw [plain.agrees_after text n offset, at_end]
  simp [Segments.Holds, marks]

/-- Every text has its comments in each of the known syntaxes, and a byte lies in one of them just when
the automaton, which reads the text byte by byte, takes it for part of a comment. -/
theorem holds_iff_marks :
    ∀ syn ∈ [cStyle, php, hash, powerShell, sql, lua, markup, basic], ∀ text,
      ∃ segments, syn.segment? text = some segments ∧
        ∀ offset, segments.Holds offset ↔ (syn.marks .code text)[offset]? = some true := by
  intro syn mem text
  have checked : ∀ syn ∈ [cStyle, php, hash, powerShell, sql, lua, markup, basic],
      (∀ marker ∈ syn.line, marker ≠ [] ∧ marker.head? ≠ some lineFeed) ∧
        (syn.blockStart = [] ∨ syn.blockEnd ≠ []) := by
    decide +kernel
  obtain ⟨markers, closer⟩ := checked syn mem
  have plain : syn.Plain := ⟨markers, closer⟩
  have eq := ((steady_of_markers markers).advances text).segment?_eq
  exact ⟨_, eq, plain.holds_iff eq⟩

/-- A block comment whose opener begins with the line marker, a literal with the marker in it, and a
line comment that only begins like a block comment. -/
theorem holds_iff_marks_lua :
    let text := Utf8.ofString "--[[-]]'--'--[x\na"
    lua ∈ [cStyle, php, hash, powerShell, sql, lua, markup, basic] ∧
      ∃ segments, lua.segment? text = some segments ∧ segments = [⟨0, 7⟩, ⟨11, 15⟩] ∧
        ∀ offset, segments.Holds offset ↔ (lua.marks .code text)[offset]? = some true := by
  intro text
  have mem : lua ∈ [cStyle, php, hash, powerShell, sql, lua, markup, basic] := by simp
  have found : lua.segment? text = some [⟨0, 7⟩, ⟨11, 15⟩] := by decide +kernel
  obtain ⟨segments, eq, agree⟩ := holds_iff_marks lua mem text
  exact ⟨mem, segments, eq, Option.some.inj (eq.symm.trans found), agree⟩

/-- An opener and a closer do not share a byte. -/
example : cStyle.marks .code (Utf8.ofString "a/*/b*/c") =
    [false, true, true, true, true, true, true, false] := by
  decide +kernel

end Sift.CommentSyntax
