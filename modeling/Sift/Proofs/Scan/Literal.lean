import Sift.Proofs.Order
import Sift.Proofs.Pattern.Literal
import Sift.Proofs.Scan
import Sift.Proofs.Unicode
import Sift.Proofs.Utf8.Strings

/-!
# Rules that look for literal text

A rule with one pattern of literal text finds what a plain search for the bytes of the text finds: the leftmost
places that do not overlap, for whole words among the places where the text is not joined to a word
(`findings_leftmost`). The matches are told by characters first; that the bytes of the literal can only stand
between characters makes them the same as the places in bytes (`leftmost_starts`).
-/

namespace Sift

namespace Pattern

variable {occurs : Nat → Prop} {length : Nat} {starts : List Nat}

/-- Places may be told by other numbers, if these ascend with them. -/
lemma Leftmost.map (leftmost : Leftmost occurs length starts) {occurs' length' limit offset}
    (same : ∀ place', occurs' place' ↔ ∃ place, occurs place ∧ offset place = place')
    (bounded : ∀ {start}, occurs start → start + length ≤ limit)
    (ascends : ∀ {place later}, place < later → later ≤ limit → offset place < offset later)
    (size : ∀ {start}, occurs start → offset (start + length) = offset start + length') :
    Leftmost occurs' length' (starts.map offset) := by
  have mono : ∀ {place later}, place ≤ later → later ≤ limit → offset place ≤ offset later := by
    intro place later le le'
    rcases Nat.lt_or_eq_of_le le with lt | rfl
    · exact Nat.le_of_lt (ascends lt le')
    · exact Nat.le_refl _
  refine ⟨?_, List.pairwise_map.mpr (leftmost.disjoint.imp_of_mem ?_), ?_⟩
  · intro start' mem
    obtain ⟨start, mem', rfl⟩ := List.mem_map.mp mem
    exact (same _).mpr ⟨start, leftmost.holds start mem', rfl⟩
  · intro start later mem mem' le
    have limits := bounded (leftmost.holds later mem')
    rw [← size (leftmost.holds start mem)]
    exact mono le (by omega)
  · intro place' occurs''
    obtain ⟨place, here, rfl⟩ := (same place').mp occurs''
    obtain ⟨start, mem, le, lt⟩ := leftmost.covered place here
    have limits := bounded here
    have limits' := bounded (leftmost.holds start mem)
    refine ⟨offset start, List.mem_map_of_mem mem, mono le (by omega), ?_⟩
    rw [← size (leftmost.holds start mem)]
    exact ascends lt limits'

/-- A word begins or ends between two parts of a text if just one of the characters there is a word character. -/
lemma boundaryAt_append (front back : List Nat) :
    Subject.boundaryAt ⟨(front ++ back).toArray, 0⟩ front.length =
      (front.getLast?.any Unicode.isWord != back.head?.any Unicode.isWord) := by
  have word : ∀ place, Subject.wordAt ⟨(front ++ back).toArray, 0⟩ place =
      (front ++ back)[place]?.any Unicode.isWord := by
    intro place
    rw [Subject.wordAt, List.getElem?_toArray]
    cases (front ++ back)[place]? <;> rfl
  have before : (0 < front.length && Subject.wordAt ⟨(front ++ back).toArray, 0⟩ (front.length - 1)) =
      front.getLast?.any Unicode.isWord := by
    cases front with
    | nil => rfl
    | cons code rest =>
      rw [word, List.getElem?_append_left (by simp), List.getLast?_eq_getElem?]
      rfl
  rw [Subject.boundaryAt, before, word, List.getElem?_append_right (Nat.le_refl _), Nat.sub_self,
    ← List.head?_eq_getElem?]

end Pattern

lemma Expression.isWord_of_joinsWords {c} (joins : joinsWords c = true) : Unicode.isWord c.toNat = true := by
  simp only [joinsWords, Bool.or_eq_true, decide_eq_true_eq] at joins
  rcases joins with (rfl | letter) | digit
  · decide
  · exact Unicode.isWord_of_contains (.inl letter)
  · exact Unicode.isWord_of_contains (.inr digit)

namespace Literal

/-- The literal is not joined to a word: no word character stands beside a letter, digit or underscore that it
begins or ends with. -/
structure Apart (literal : String) (before after : List Nat) : Prop where
  front : ∀ c ∈ literal.toList.head?, Expression.joinsWords c = true →
    ∀ code ∈ before.getLast?, Unicode.isWord code = false
  back : ∀ c ∈ literal.toList.getLast?, Expression.joinsWords c = true →
    ∀ code ∈ after.head?, Unicode.isWord code = false

/-- The bytes of the literal stand in the text from a place on, and if whole words are asked for it is not
joined to a word there. -/
def Occurs (whole : Bool) (literal : String) (text : Bytes) (start : Nat) : Prop :=
  ∃ before after, text = before ++ Utf8.ofString literal ++ after ∧ before.length = start ∧
    (whole = true → Apart literal (Utf8.codePoints before) (Utf8.codePoints after))

/-- Whether a boundary of words is asked for beside a character. -/
def bounds (whole : Bool) (c : Option Char) : Bool := whole && c.any Expression.joinsWords

/-- The node of a literal. -/
def node (whole : Bool) (literal : String) : Pattern.Node :=
  Pattern.literalNode (bounds whole literal.toList.head?) (bounds whole literal.toList.getLast?) literal.toList

/-- Where the matches of a literal begin, in bytes. -/
def starts (whole : Bool) (literal text : String) : List Nat :=
  (Pattern.findAll (node whole literal) (text.toList.map Char.toNat).toArray).map fun found =>
    Utf8.offsetOf (Utf8.ofString text) found.place

/-- Beside a character that begins or ends a literal like a word there is a boundary if the other character
there, if any, is no word character. -/
lemma boundary_iff {whole c} {other : Option Nat} :
    (bounds whole (some c) = true → (Unicode.isWord c.toNat != other.any Unicode.isWord) = true) ↔
      (whole = true → Expression.joinsWords c = true → ∀ code ∈ other, Unicode.isWord code = false) := by
  have none : other.any Unicode.isWord = false ↔ ∀ code ∈ other, Unicode.isWord code = false := by
    cases other <;> simp
  rw [bounds, Bool.and_eq_true, Option.any_some, and_imp, ← none]
  refine forall_congr' fun _ => forall_congr' fun joins => ?_
  rw [Expression.isWord_of_joinsWords joins, Bool.true_bne, Bool.not_eq_true']

variable {whole : Bool} {literal : String}

/-- Literal text stands, with the boundaries that are asked for, where it is not joined to a word. -/
lemma stands_iff (ne : literal ≠ "") {before after : List Nat} :
    Pattern.Stands (before ++ literal.toList.map Char.toNat ++ after) (bounds whole literal.toList.head?)
        (bounds whole literal.toList.getLast?) literal.toList before.length ↔
      (whole = true → Apart literal before after) := by
  have some : literal.toList ≠ [] := mt String.toList_eq_nil_iff.mp ne
  have codes : literal.toList.map Char.toNat ≠ [] := mt List.map_eq_nil_iff.mp some
  obtain ⟨c, first⟩ := Option.ne_none_iff_exists'.mp (mt List.head?_eq_none_iff.mp some)
  obtain ⟨c', last⟩ := Option.ne_none_iff_exists'.mp (mt List.getLast?_eq_none_iff.mp some)
  have front := Pattern.boundaryAt_append before (literal.toList.map Char.toNat ++ after)
  have back := Pattern.boundaryAt_append (before ++ literal.toList.map Char.toNat) after
  rw [List.head?_append_of_ne_nil _ codes, List.head?_map, first, Option.map_some, bne_comm, Option.any_some,
    ← List.append_assoc] at front
  rw [List.getLast?_append_of_ne_nil _ codes, List.getLast?_map, last, Option.map_some, Option.any_some,
    List.length_append, List.length_map] at back
  rw [first, last]
  constructor
  · rintro ⟨-, before', behind⟩ whole
    rw [front] at before'
    rw [back] at behind
    refine ⟨fun d mem joins => ?_, fun d mem joins => ?_⟩
    · obtain rfl := Option.some.inj (first.symm.trans mem)
      exact boundary_iff.mp before' whole joins
    · obtain rfl := Option.some.inj (last.symm.trans mem)
      exact boundary_iff.mp behind whole joins
  · intro apart
    refine ⟨?_, ?_, ?_⟩
    · rw [List.append_assoc, List.drop_left]
      exact List.prefix_append _ _
    · rw [front]
      exact boundary_iff.mpr fun whole joins => (apart whole).front c first joins
    · rw [back]
      exact boundary_iff.mpr fun whole joins => (apart whole).back c' last joins

lemma exists_of_stands (ne : literal ≠ "") {text front back place}
    (stands : Pattern.Stands (text.toList.map Char.toNat) front back literal.toList place) :
    ∃ before after, text = before ++ literal ++ after ∧ before.toList.length = place := by
  have lt := stands.lt_length (mt String.toList_eq_nil_iff.mp ne)
  rw [List.length_map] at lt
  have chars := stands.chars
  rw [← List.map_drop, List.prefix_map_iff_of_injective fun _ _ => Char.toNat_inj.mp] at chars
  obtain ⟨rest, eq⟩ := chars
  refine ⟨.ofList (text.toList.take place), .ofList rest, ?_, ?_⟩
  · refine String.toList_inj.mp ?_
    rw [String.toList_append, String.toList_append, String.toList_ofList, String.toList_ofList, List.append_assoc, eq,
      List.take_append_drop]
  · rw [String.toList_ofList, List.length_take]
    omega

/-- The places where literal text stands are those of its occurrences. -/
lemma occurs_iff (ne : literal ≠ "") {text start} :
    Occurs whole literal (Utf8.ofString text) start ↔
      ∃ place, Pattern.Stands (text.toList.map Char.toNat) (bounds whole literal.toList.head?)
        (bounds whole literal.toList.getLast?) literal.toList place ∧
          Utf8.offsetOf (Utf8.ofString text) place = start := by
  -- both sides part the text around the literal, and say the same of its parts
  have parted : ∀ {before after : String}, Pattern.Stands ((before ++ literal ++ after).toList.map Char.toNat)
      (bounds whole literal.toList.head?) (bounds whole literal.toList.getLast?) literal.toList before.toList.length ↔
        (whole = true →
          Apart literal (Utf8.codePoints (Utf8.ofString before)) (Utf8.codePoints (Utf8.ofString after))) := by
    intro before after
    rw [Utf8.codes_ofString, Utf8.codes_ofString, ← stands_iff ne, String.toList_append, String.toList_append,
      List.map_append, List.map_append, List.length_map]
  constructor
  · rintro ⟨before, after, eq, rfl, apart⟩
    obtain ⟨before, after, rfl, rfl, rfl⟩ := Utf8.exists_of_ofString_eq_append ne eq
    refine ⟨before.toList.length, parted.mpr apart, ?_⟩
    rw [String.append_assoc, Utf8.offsetOf_append, Utf8.utf8ByteSize_eq]
  · rintro ⟨place, stands, rfl⟩
    obtain ⟨before, after, rfl, rfl⟩ := exists_of_stands ne stands
    refine ⟨Utf8.ofString before, Utf8.ofString after, ?_, ?_, parted.mp stands⟩
    · rw [Utf8.ofString_append, Utf8.ofString_append]
    · rw [String.append_assoc, Utf8.offsetOf_append, Utf8.utf8ByteSize_eq]

lemma offsetOf_add_length {before after} :
    Utf8.offsetOf (Utf8.ofString (before ++ literal ++ after)) (before.toList.length + literal.toList.length) =
      before.utf8ByteSize + literal.utf8ByteSize := by
  rw [← List.length_append, ← String.toList_append, Utf8.offsetOf_append, String.utf8ByteSize_append]

/-- The matches of a literal are its leftmost occurrences. -/
lemma leftmost_starts (whole : Bool) (ne : literal ≠ "") (text : String) :
    Pattern.Leftmost (Occurs whole literal (Utf8.ofString text)) literal.utf8ByteSize (starts whole literal text) := by
  have leftmost := Pattern.leftmost_findAll (bounds whole literal.toList.head?) (bounds whole literal.toList.getLast?)
    (mt String.toList_eq_nil_iff.mp ne) (text.toList.map Char.toNat)
  have map := @Pattern.Leftmost.map _ _ _ leftmost (Occurs whole literal (Utf8.ofString text)) literal.utf8ByteSize
    text.toList.length (Utf8.offsetOf (Utf8.ofString text)) (fun _ => occurs_iff ne) ?_ ?_ ?_
  · rwa [List.map_map] at map
  · intro place stands
    obtain ⟨before, after, rfl, rfl⟩ := exists_of_stands ne stands
    simp
  · intro place later lt le
    exact Utf8.offsetOf_lt_offsetOf lt (by rwa [Utf8.runes_ofString, List.length_map])
  · intro place stands
    obtain ⟨before, after, rfl, rfl⟩ := exists_of_stands ne stands
    rw [offsetOf_add_length, String.append_assoc, Utf8.offsetOf_append]

end Literal

/-! ## What a rule finds -/

namespace Document

/-- Stretches that are all different are added as they are. -/
lemma addSpans_of_nodup {seen stretches} (nodup : (seen ++ stretches).Nodup) :
    addSpans seen stretches = seen ++ stretches := by
  induction stretches generalizing seen with
  | nil => exact (List.append_nil _).symm
  | cons stretch rest ih =>
    have fresh : stretch ∉ seen := fun mem =>
      (List.nodup_append.mp nodup).2.2 stretch mem stretch List.mem_cons_self rfl
    rw [List.append_cons] at nodup ⊢
    rw [← ih nodup, addSpans, List.foldl_cons, if_neg (by simpa using fresh)]
    rfl

/-- A rule with one pattern and no exclusion keeps the stretches of the pattern, if these ascend. -/
lemma kept_of_ascending {doc : Document} {segments rule expression} (patterns : rule.patterns = [expression])
    (exclusions : rule.exclusions = []) (ascending : (doc.spans segments expression).Pairwise Stretch.Before) :
    doc.kept segments rule = doc.spans segments expression := by
  have irrefl : ∀ {a b : Stretch}, a.Before b → a ≠ b := by
    rintro a _ before rfl
    unfold Stretch.Before at before
    omega
  have sorted : (doc.spans segments expression).Pairwise fun a b => a.le b = true :=
    ascending.imp fun before => Stretch.le_iff.mpr (before.imp_right fun same => same.imp_right Nat.le_of_lt)
  have once : addSpans [] (doc.spans segments expression) = doc.spans segments expression :=
    addSpans_of_nodup (ascending.imp irrefl)
  have none : doc.excluded segments rule = [] := by
    rw [excluded, exclusions, List.flatMap_nil, ite_self]
  rw [kept, none, found, patterns, List.map_singleton, List.foldl_cons, List.foldl_nil, once]
  simp only [List.any_nil, Bool.not_false, List.filter_true]
  exact List.mergeSort_of_pairwise sorted

/-- A rule with one pattern and no exclusion finds the spans of the pattern, if these ascend and lie in the
text. -/
lemma findings_of_ascending {text : Bytes} {segments rule expression} (patterns : rule.patterns = [expression])
    (exclusions : rule.exclusions = []) {spans : List Span}
    (eq : (ofBytes text).spans segments expression = spans.map Span.stretch)
    (ascending : spans.Pairwise Span.Before) (inside : ∀ span ∈ spans, span.stop ≤ text.length) :
    (ofBytes text).findings segments rule = spans.map fun span =>
      ⟨span, Utf8.toValidString ((text.drop span.start).take span.length)⟩ := by
  have stretches : ((ofBytes text).spans segments expression).Pairwise Stretch.Before := by
    rw [eq, List.pairwise_map]
    exact ascending.imp Span.before_stretch.mpr
  rw [findings, kept_of_ascending patterns exclusions stretches, eq, List.filterMap_map, ← List.filterMap_eq_map]
  refine List.filterMap_congr fun span mem => ?_
  exact cut?_stretch (inside span mem)

end Document

namespace Literal

section Findings

variable {literal : String} (ne : literal ≠ "")
include ne

/-- The spans of a literal are its matches, none of which is left out. -/
lemma spans_literal (whole : Bool) (record : PatternRecord) (text : String) (segments : Segments) :
    (Document.ofBytes (Utf8.ofString text)).spans segments ⟨record, node whole literal, ⟨true, true⟩⟩ =
      ((starts whole literal text).map fun start => ⟨start, literal.utf8ByteSize⟩).map Span.stretch := by
  have codes : (Document.ofBytes (Utf8.ofString text)).codes = (text.toList.map Char.toNat).toArray :=
    congrArg List.toArray (Utf8.codes_ofString text)
  have pos := Utf8.utf8ByteSize_pos ne
  have spans : (Pattern.findAll (node whole literal) (text.toList.map Char.toNat).toArray).filterMap
      (Document.ofBytes (Utf8.ofString text)).stretchOf? =
        ((starts whole literal text).map fun start => ⟨start, literal.utf8ByteSize⟩).map Span.stretch := by
    rw [starts, List.map_map, List.map_map]
    refine Eq.trans (List.filterMap_congr fun found mem => ?_) (congrFun List.filterMap_eq_map _)
    obtain ⟨stands, start, length⟩ := Pattern.stands_of_mem_findAll (mt String.toList_eq_nil_iff.mp ne) mem
    obtain ⟨before, after, rfl, place⟩ := exists_of_stands ne stands
    have runes : (Utf8.runes (Utf8.ofString (before ++ literal ++ after))).length =
        found.place + literal.toList.length + after.toList.length := by
      rw [Utf8.runes_ofString, List.length_map, ← place, String.toList_append, String.toList_append,
        List.length_append, List.length_append]
    have first := @Utf8.offsetOf?_natCast (Utf8.ofString (before ++ literal ++ after)) found.place (by omega)
    have last := @Utf8.offsetOf?_natCast (Utf8.ofString (before ++ literal ++ after))
      (found.place + literal.toList.length) (by omega)
    rw [Int.natCast_add] at last
    refine (Document.stretchOf?_eq_some_iff pos).mpr ?_
    rw [start, length, first, last, ← place, offsetOf_add_length, Function.comp_apply, Function.comp_apply, ← place,
      String.append_assoc, Utf8.offsetOf_append]
    exact ⟨rfl, rfl⟩
  rw [Document.spans, codes, spans, List.filter_eq_self]
  intro stretch mem
  obtain ⟨span, mem', rfl⟩ := List.mem_map.mp mem
  obtain ⟨start, -, rfl⟩ := List.mem_map.mp mem'
  simp [Span.stretch, pos, Segments.allowedAt]

omit ne in
/-- An occurrence of a literal lies in the text, which has the literal there. -/
lemma slice_literal {whole text start} (occurs : Occurs whole literal text start) :
    start + literal.utf8ByteSize ≤ text.length ∧
      Utf8.toValidString ((text.drop start).take literal.utf8ByteSize) = literal := by
  obtain ⟨before, after, rfl, rfl, -⟩ := occurs
  rw [Utf8.utf8ByteSize_eq]
  constructor
  · rw [List.length_append, List.length_append]
    exact Nat.le_add_right _ _
  · rw [List.append_assoc, List.drop_left, List.take_left, Utf8.toValidString_ofString]

/-- A rule that looks for a literal finds its leftmost occurrences. -/
lemma findings_of_literal {whole rule record}
    (patterns : rule.patterns = [⟨record, node whole literal, ⟨true, true⟩⟩]) (exclusions : rule.exclusions = [])
    (text : String) (segments : Segments) :
    (Document.ofBytes (Utf8.ofString text)).findings segments rule =
      (starts whole literal text).map fun start => ⟨⟨start, literal.utf8ByteSize⟩, literal⟩ := by
  have leftmost := leftmost_starts whole ne text
  have pos := Utf8.utf8ByteSize_pos ne
  have ascending : ((starts whole literal text).map fun start =>
      (⟨start, literal.utf8ByteSize⟩ : Span)).Pairwise Span.Before := by
    rw [List.pairwise_map]
    exact leftmost.disjoint.imp fun le => .inl (Nat.lt_of_lt_of_le (Nat.lt_add_of_pos_right pos) le)
  have inside : ∀ span ∈ (starts whole literal text).map fun start => (⟨start, literal.utf8ByteSize⟩ : Span),
      span.stop ≤ (Utf8.ofString text).length := by
    intro span mem
    obtain ⟨start, mem', rfl⟩ := List.mem_map.mp mem
    exact (slice_literal (leftmost.holds start mem')).1
  rw [Document.findings_of_ascending patterns exclusions (spans_literal ne whole record text segments) ascending
    inside, List.map_map]
  refine List.map_congr_left fun start mem => ?_
  rw [Function.comp_apply, (slice_literal (leftmost.holds start mem)).2]

end Findings

/-! ## Making the rule ready -/

/-- The type of a pattern that is literal text. -/
def kind (whole : Bool) : String := if whole then "string" else "substring"

lemma source_kind (whole : Bool) (literal : String) :
    Expression.source (kind whole) literal = .ok (String.ofList
      ((if bounds whole literal.toList.head? then ['\\', 'b'] else []) ++ literal.toList.flatMap Pattern.escapeChar ++
        if bounds whole literal.toList.getLast? then ['\\', 'b'] else [])) := by
  have word : "\\b" = String.ofList ['\\', 'b'] := by decide
  cases whole with
  | false => simp [kind, Expression.source, bounds, Pattern.literal]
  | true =>
    have bound : ∀ c : Option Char, (if c.any Expression.joinsWords then "\\b" else "") =
        String.ofList (if bounds true c then ['\\', 'b'] else []) := by
      intro c
      rw [bounds, Bool.true_and]
      split
      · exact word
      · rfl
    rw [kind, if_pos rfl, Expression.source, if_neg (by decide), if_neg (by decide), if_pos rfl,
      Expression.wordBounded, Pattern.literal, String.ofList_append, String.ofList_append]
    simp only [bound]

/-- A pattern that is literal text is read as its characters, with the boundaries that its type asks for. -/
lemma compile_literal (whole : Bool) {literal} (ne : literal ≠ "") (all : ∀ c ∈ literal.toList, Pattern.IsLiteral c)
    {scopes} (anywhere : scopes = [] ∨ Expression.addScopes ⟨false, false⟩ scopes = .ok ⟨true, true⟩) :
    Expression.compile ⟨literal, kind whole, [], scopes⟩ =
      .ok ⟨⟨literal, kind whole, [], scopes⟩, node whole literal, ⟨true, true⟩⟩ := by
  have typed : (if kind whole = "" then "regex" else kind whole) = kind whole :=
    if_neg (by cases whole <;> decide)
  have parsed := @Pattern.parse_literal (bounds whole literal.toList.head?) (bounds whole literal.toList.getLast?)
    literal.toList (mt String.toList_eq_nil_iff.mp ne) all
  obtain ⟨kinds, added, eq⟩ : ∃ kinds, Expression.addScopes ⟨false, false⟩ scopes = .ok kinds ∧
      (if scopes.isEmpty then ⟨true, true⟩ else kinds) = (⟨true, true⟩ : Kinds) := by
    rcases anywhere with rfl | given
    · exact ⟨⟨false, false⟩, rfl, rfl⟩
    · exact ⟨⟨true, true⟩, given, ite_self _⟩
  simp only [Expression.compile, ne, if_false, typed, source_kind, Expression.addModifiers, added, eq, parsed,
    bind, Except.bind, pure, Except.pure]
  rfl

/-- A rule with one pattern that is literal text can be made ready, and finds the leftmost occurrences of the
text that do not overlap; with the type for whole words, the leftmost of those that are not joined to a word. -/
theorem findings_leftmost (whole : Bool) (literal : String) (ne : literal ≠ "")
    (all : ∀ c ∈ literal.toList, Unicode.isPrintable c.toNat = true ∨ c = '\t' ∨ c = '\n') (scopes : List String)
    (anywhere : scopes = [] ∨ Expression.addScopes ⟨false, false⟩ scopes = .ok ⟨true, true⟩) (source : String)
    (record : RuleRecord) (named : Text.trim record.id ≠ "") (sound : record.fault = none)
    (severe : record.severity ≠ .none)
    (pattern : record.patterns = [some ⟨literal, if whole then "string" else "substring", [], scopes⟩])
    (plain : record.exclusions = []) :
    ∃ rule, Rule.compile source record = .ok rule ∧
      ∀ (text : Bytes) (comments : Segments), Utf8.isValid text = true →
        (∃! places, Pattern.Leftmost (Occurs whole literal text) literal.utf8ByteSize places) ∧
          ∀ places, Pattern.Leftmost (Occurs whole literal text) literal.utf8ByteSize places →
            (Document.ofBytes text).findings comments rule =
              places.map fun start => ⟨⟨start, literal.utf8ByteSize⟩, literal⟩ := by
  have compiled := compile_literal whole ne all anywhere
  refine ⟨{
    id := record.id, name := record.name, description := record.description
    recommendation := record.recommendation, tags := record.tags, severity := record.severity
    appliesTo := record.appliesTo.map Text.normalize
    patterns := [⟨⟨literal, kind whole, [], scopes⟩, node whole literal, ⟨true, true⟩⟩]
    exclusions := [], disabled := record.disabled, source }, ?_, fun text comments valid => ?_⟩
  · rw [kind] at compiled
    simp only [Rule.compile, named, if_false, sound, severe, pattern, plain, Rule.compileAll, compiled, bind,
      Except.bind, Except.map, pure, Except.pure]
    rfl
  · rw [← Utf8.ofString_toValidString valid]
    have leftmost := leftmost_starts whole ne (Utf8.toValidString text)
    have unique := fun places (other : Pattern.Leftmost _ _ places) => other.unique (Utf8.utf8ByteSize_pos ne) leftmost
    refine ⟨⟨_, leftmost, unique⟩, fun places other => ?_⟩
    rw [unique places other]
    exact findings_of_literal ne rfl rfl _ comments

/-- A rule for a text that overlaps itself. -/
def overlapping : RuleRecord := { id := "A", severity := .critical, patterns := [some ⟨"a.a", "string", [], []⟩] }

/-- Of two occurrences that overlap, the first is joined to a word, so that the second is found. -/
theorem findings_leftmost_behind_joined : ∃ rule, Rule.compile "a.json" overlapping = .ok rule ∧
    (Document.ofBytes (Utf8.ofString "ba.a.a")).findings [] rule = [⟨⟨3, 3⟩, "a.a"⟩] := by
  have printable : ∀ c ∈ "a.a".toList, Unicode.isPrintable c.toNat = true ∨ c = '\t' ∨ c = '\n' := by
    have chars : "a.a".toList = ['a', '.', 'a'] := by decide
    rw [chars]
    simp only [List.forall_mem_cons]
    exact ⟨by decide, by decide, by decide, List.forall_mem_nil _⟩
  obtain ⟨rule, compiled, findings⟩ := findings_leftmost true "a.a" (by decide) printable [] (.inl rfl) "a.json"
    overlapping (by decide) rfl (by decide) rfl rfl
  have text : Utf8.ofString "ba.a.a" = [98, 97, 46, 97, 46, 97] := by decide +kernel
  have literal : Utf8.ofString "a.a" = [97, 46, 97] := by decide +kernel
  have valid : Utf8.isValid (Utf8.ofString "ba.a.a") = true := by decide +kernel
  refine ⟨rule, compiled, (findings _ [] valid).2 [3] ⟨?_, List.pairwise_singleton _ _, ?_⟩⟩
  · intro start mem
    obtain rfl := List.mem_singleton.mp mem
    refine ⟨[98, 97, 46], [], by rw [text, literal]; rfl, rfl, fun _ => ⟨?_, ?_⟩⟩
    · rintro _ - - _ ⟨⟩
      decide
    · rintro _ - - _ ⟨⟩
  · rintro start ⟨before, after, eq, rfl, apart⟩
    rw [text, literal] at eq
    match before, eq with
    | [], eq => simp at eq
    | [b], eq =>
      obtain rfl := (List.cons.inj eq).1
      cases (apart rfl).front 'a' (by decide) (by decide) 'b'.toNat (by decide)
    | [_, _], eq => simp at eq
    | b :: b' :: b'' :: before, eq =>
      have length := congrArg List.length eq
      simp only [List.length_append, List.length_cons, List.length_nil] at length ⊢
      exact ⟨3, List.mem_singleton_self 3, by omega, by change _ < 3 + 3; omega⟩

end Literal

end Sift
