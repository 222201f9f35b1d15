import Sift.Proofs.Json.Scalars
import Sift.Proofs.Utf8

/-!
# Reading written values

A value whose numbers are whole and that is not nested too deep is read back from what is written for
it (`Json.parse_indented`). Reading a value takes no more steps than there are characters written for it.
-/

namespace Sift.Json

/-- The numbers of the value are whole, and it is nested at most so deep. -/
inductive Whole : Nat → Json → Prop
  | null {depth : Nat} : Whole depth .null
  | bool {depth : Nat} (b : Bool) : Whole depth (.bool b)
  | int {depth : Nat} (n : Int) : Whole depth (.int n)
  | string {depth : Nat} (s : String) : Whole depth (.string s)
  | array {depth : Nat} {items : List Json} : (∀ item ∈ items, Whole depth item) →
    Whole (depth + 1) (.array items)
  | object {depth : Nat} {fields : List (String × Json)} : (∀ field ∈ fields, Whole depth field.2) →
    Whole (depth + 1) (.object fields)

section Blanks

/-- Line breaks and indentation are skipped. -/
lemma skip_newline (level : Nat) (text : List Char) : skip (newline level ++ text) = skip text := by
  refine List.dropWhile_append_of_pos fun c mem => ?_
  rcases List.mem_cons.mp mem with rfl | mem
  · rfl
  · rw [List.eq_of_mem_replicate mem]
    rfl

lemma skip_cons {c} (plain : isBlank c = false) (rest : List Char) :
    skip (c :: rest) = c :: rest :=
  List.dropWhile_cons_of_neg (by rw [plain]; exact Bool.false_ne_true)

lemma closes_newline (level : Nat) (rest : List Char) : Closes (newline level ++ rest) := by
  rintro c ⟨⟩
  decide

lemma closes_comma (rest : List Char) : Closes (',' :: rest) := by
  rintro c ⟨⟩
  decide

lemma newline_length_pos (level : Nat) : 0 < (newline level).length := Nat.succ_pos _

end Blanks

section Numbers

/-- The code of a character that a number may begin with. -/
def Leads (c : Char) : Prop := c.toNat = 45 ∨ 48 ≤ c.toNat ∧ c.toNat ≤ 57

lemma leads_of_isDigit {c} (digit : Pattern.isDigit c = true) : Leads c := by
  simp only [Pattern.isDigit, Bool.and_eq_true, decide_eq_true_eq, Char.le_def,
    UInt32.le_iff_toNat_le] at digit
  exact .inr digit

lemma exists_toString_eq_cons (n : Int) : ∃ c cs, (toString n).toList = c :: cs ∧ Leads c := by
  cases n with
  | ofNat n =>
    obtain ⟨c, cs, eq⟩ := List.exists_cons_of_ne_nil (@Nat.toDigits_ne_nil n 10)
    have digit := isDigit_of_mem_toDigits (eq ▸ List.mem_cons_self : c ∈ Nat.toDigits 10 n)
    exact ⟨c, cs, by rw [toList_toString_ofNat, eq], leads_of_isDigit digit⟩
  | negSucc n => exact ⟨'-', _, toList_toString_negSucc n, .inl rfl⟩

/-- What leads a number is none of the other characters. -/
lemma Leads.ne {c d} (leads : Leads c) (other : d.toNat < 45 ∨ 57 < d.toNat) : c ≠ d := by
  rintro rfl
  unfold Leads at leads
  omega

lemma Leads.isBlank_eq_false {c} (leads : Leads c) : isBlank c = false := by
  simp only [isBlank, Bool.or_eq_false_iff, decide_eq_false_iff_not]
  exact ⟨⟨⟨leads.ne (by decide), leads.ne (by decide)⟩, leads.ne (by decide)⟩, leads.ne (by decide)⟩

/-- A value that begins so is a number. -/
lemma Leads.valueFrom {c} (leads : Leads c) (depth fuel : Nat) (rest : List Char) :
    valueFrom depth (fuel + 1) (c :: rest) =
      (number? (c :: rest)).map fun read => (.number read.1, read.2) := by
  rw [Json.valueFrom.eq_def]
  dsimp only
  split
  case h_1 eq => exact absurd (List.cons.inj eq).1 (leads.ne (by decide))
  case h_2 eq => exact absurd (List.cons.inj eq).1 (leads.ne (by decide))
  case h_3 eq => exact absurd (List.cons.inj eq).1 (leads.ne (by decide))
  case h_4 eq => exact absurd (List.cons.inj eq).1 (leads.ne (by decide))
  case h_5 eq => exact absurd (List.cons.inj eq).1 (leads.ne (by decide))
  case h_6 eq => exact absurd (List.cons.inj eq).1 (leads.ne (by decide))
  case h_7 => rfl

end Numbers

/-- The value is read, at a depth, from what is written for it, which begins with no blank and no closing
bracket. -/
structure Reads (depth : Nat) (value : Json) : Prop where
  opens : ∀ level, ∃ c cs, indentedChars level value = c :: cs ∧ isBlank c = false ∧ c ≠ ']'
  back : ∀ (level fuel : Nat) (rest : List Char), Closes rest →
    (indentedChars level value).length ≤ fuel →
    valueFrom depth fuel (indentedChars level value ++ rest) = some (value, rest)

/-- Nothing is skipped before a value. -/
lemma Reads.skip_append {depth value} (reads : Reads depth value) (level : Nat) (rest : List Char) :
    skip (indentedChars level value ++ rest) = indentedChars level value ++ rest := by
  obtain ⟨c, cs, eq, plain, -⟩ := reads.opens level
  rw [eq, List.cons_append, skip_cons plain]

section Items

variable {depth : Nat}

/-- One item is read, and what follows it decides how to go on. -/
lemma Reads.itemsFrom_succ {item} (reads : Reads depth item) {level fuel}
    (le : (indentedChars level item).length ≤ fuel) (read : List Json) {text} (closes : Closes text)
    (rest : List Char) :
    (skip text = ',' :: rest →
      itemsFrom depth (fuel + 1) read (newline level ++ (indentedChars level item ++ text)) =
        itemsFrom depth fuel (item :: read) rest) ∧
    (skip text = ']' :: rest →
      itemsFrom depth (fuel + 1) read (newline level ++ (indentedChars level item ++ text)) =
        some ((item :: read).reverse, rest)) := by
  rw [itemsFrom, skip_newline, reads.skip_append, reads.back level fuel text closes le]
  constructor
  · intro next
    simp only [Option.bind_eq_bind, Option.bind_some, next]
  · intro next
    simp only [Option.bind_eq_bind, Option.bind_some, next]

/-- Indented items are read back. -/
lemma itemsFrom_indentedItems {items} (reads : ∀ item ∈ items, Reads depth item) (ne : items ≠ []) (level : Nat)
    {fuel} (le : (indentedItems level items).length ≤ fuel) (below : Nat) (read : List Json) (rest : List Char) :
    itemsFrom depth fuel read (indentedItems level items ++ (newline below ++ ']' :: rest)) =
      some (read.reverse ++ items, rest) := by
  have pos := newline_length_pos level
  induction items generalizing fuel read with
  | nil => exact absurd rfl ne
  | cons item others ih =>
    obtain ⟨first, later⟩ := List.forall_mem_cons.mp reads
    cases others with
    | nil =>
      rw [indentedItems, List.length_append] at le
      obtain ⟨fuel, rfl⟩ := Nat.exists_eq_add_one_of_ne_zero (by omega : fuel ≠ 0)
      have fits : (indentedChars level item).length ≤ fuel := by omega
      have closed := (first.itemsFrom_succ fits read (closes_newline below (']' :: rest)) rest).2
        (by rw [skip_newline, skip_cons rfl])
      rw [indentedItems, List.append_assoc, closed, List.reverse_cons]
    | cons next others =>
      have shape : indentedItems level (item :: next :: others) =
          newline level ++ indentedChars level item ++ ',' :: indentedItems level (next :: others) := by
        rw [indentedItems]
        nofun
      rw [shape, List.length_append, List.length_append, List.length_cons] at le
      obtain ⟨fuel, rfl⟩ := Nat.exists_eq_add_one_of_ne_zero (by omega : fuel ≠ 0)
      rw [shape, List.append_assoc, List.append_assoc, List.cons_append,
        (first.itemsFrom_succ (by omega) read (closes_comma _) _).1 (skip_cons rfl _),
        ih later (List.cons_ne_nil _ _) (by omega), List.reverse_cons, List.append_assoc,
        List.singleton_append]

end Items

section Fields

variable {depth : Nat}

/-- One field is read, and what follows it decides how to go on. -/
lemma Reads.fieldsFrom_succ {value} (reads : Reads depth value) {level fuel}
    (le : (indentedChars level value).length ≤ fuel) (key : String) (read : List (String × Json)) {text}
    (closes : Closes text) (rest : List Char) :
    (skip text = ',' :: rest →
      fieldsFrom depth (fuel + 1) read
          (newline level ++ (quoteChars key ++ ':' :: ' ' :: (indentedChars level value ++ text))) =
        fieldsFrom depth fuel ((key, value) :: read) rest) ∧
    (skip text = '}' :: rest →
      fieldsFrom depth (fuel + 1) read
          (newline level ++ (quoteChars key ++ ':' :: ' ' :: (indentedChars level value ++ text))) =
        some (((key, value) :: read).reverse, rest)) := by
  have blank : ∀ text, skip (' ' :: text) = skip text := fun text => rfl
  have colon : ∀ text, skip (':' :: text) = ':' :: text := fun text => rfl
  rw [fieldsFrom, skip_newline, quoteChars_append, skip_cons rfl]
  constructor
  · intro next
    simp only [stringFrom_quotedTail, Option.bind_eq_bind, Option.bind_some, colon, blank,
      reads.skip_append, reads.back level fuel text closes le, next]
  · intro next
    simp only [stringFrom_quotedTail, Option.bind_eq_bind, Option.bind_some, colon, blank,
      reads.skip_append, reads.back level fuel text closes le, next]

/-- Indented fields are read back. -/
lemma fieldsFrom_indentedFields {fields} (reads : ∀ field ∈ fields, Reads depth field.2) (ne : fields ≠ [])
    (level : Nat) {fuel} (le : (indentedFields level fields).length ≤ fuel) (below : Nat)
    (read : List (String × Json)) (rest : List Char) :
    fieldsFrom depth fuel read (indentedFields level fields ++ (newline below ++ '}' :: rest)) =
      some (read.reverse ++ fields, rest) := by
  have pos := newline_length_pos level
  induction fields generalizing fuel read with
  | nil => exact absurd rfl ne
  | cons field others ih =>
    obtain ⟨key, value⟩ := field
    obtain ⟨first, later⟩ := List.forall_mem_cons.mp reads
    dsimp only at first
    cases others with
    | nil =>
      rw [indentedFields, List.length_append, List.length_append, List.length_cons,
        List.length_cons] at le
      obtain ⟨fuel, rfl⟩ := Nat.exists_eq_add_one_of_ne_zero (by omega : fuel ≠ 0)
      have fits : (indentedChars level value).length ≤ fuel := by omega
      have closed := (first.fieldsFrom_succ fits key read (closes_newline below ('}' :: rest)) rest).2
        (by rw [skip_newline, skip_cons rfl])
      rw [indentedFields, List.append_assoc, List.append_assoc, List.cons_append, List.cons_append,
        closed, List.reverse_cons]
    | cons next others =>
      have shape : indentedFields level ((key, value) :: next :: others) =
          newline level ++ quoteChars key ++ ':' :: ' ' ::
            (indentedChars level value ++ ',' :: indentedFields level (next :: others)) := by
        rw [indentedFields]
        nofun
      rw [shape, List.length_append, List.length_append, List.length_cons, List.length_cons,
        List.length_append, List.length_cons] at le
      obtain ⟨fuel, rfl⟩ := Nat.exists_eq_add_one_of_ne_zero (by omega : fuel ≠ 0)
      rw [shape, List.append_assoc, List.append_assoc, List.cons_append, List.cons_append,
        List.append_assoc, List.cons_append,
        (first.fieldsFrom_succ (by omega) key read (closes_comma _) _).1 (skip_cons rfl _),
        ih later (List.cons_ne_nil _ _) (by omega), List.reverse_cons, List.append_assoc,
        List.singleton_append]

end Fields

section Values

variable {depth : Nat}

/-- Integers are read back. -/
lemma reads_int (n : Int) : Reads depth (.int n) := by
  obtain ⟨c, cs, eq, leads⟩ := exists_toString_eq_cons n
  have chars : ∀ level, indentedChars level (.int n) = (toString n).toList := fun level => rfl
  refine ⟨fun level => ⟨c, cs, ?_, leads.isBlank_eq_false, leads.ne (by decide)⟩, ?_⟩
  · rw [chars, eq]
  · intro level fuel rest closes le
    have number := number?_toString n closes
    rw [chars, eq] at le
    obtain ⟨fuel, rfl⟩ := Nat.exists_eq_add_one_of_ne_zero (Nat.ne_zero_of_lt le)
    rw [eq, List.cons_append] at number
    rw [chars, eq, List.cons_append, leads.valueFrom, number]
    rfl

/-- Strings are read back. -/
lemma reads_string (s : String) : Reads depth (.string s) := by
  refine ⟨fun level => ⟨_, _, rfl, rfl, by decide⟩, ?_⟩
  intro level fuel rest closes le
  obtain ⟨fuel, rfl⟩ := Nat.exists_eq_add_one_of_ne_zero (Nat.ne_zero_of_lt le)
  have chars : indentedChars level (.string s) = quoteChars s := rfl
  have read : valueFrom depth (fuel + 1) ('"' :: quotedTail s rest) =
      (stringFrom ((quotedTail s rest).length + 1) [] (quotedTail s rest)).map
        fun read => (.string read.1, read.2) := rfl
  rw [chars, quoteChars_append, read, stringFrom_quotedTail]
  rfl

lemma skip_skip (text : List Char) : skip (skip text) = skip text := by
  induction text with
  | nil => rfl
  | cons c rest ih =>
    cases plain : isBlank c with
    | true =>
      have next : skip (c :: rest) = skip rest := List.dropWhile_cons_of_pos plain
      rw [next, ih]
    | false => rw [skip_cons plain, skip_cons plain]

/-- An opening bracket begins items. -/
lemma valueFrom_bracket (lt : depth < depthLimit) (fuel : Nat) {text} (ne : ∀ rest, skip text ≠ ']' :: rest) :
    valueFrom depth (fuel + 1) ('[' :: text) =
      (itemsFrom (depth + 1) fuel [] text).map fun read => (.array read.1, read.2) := by
  have skipped : itemsFrom (depth + 1) fuel [] (skip text) = itemsFrom (depth + 1) fuel [] text := by
    cases fuel with
    | zero => rfl
    | succ fuel => rw [itemsFrom, itemsFrom, skip_skip]
  refine (if_neg (Nat.not_le.mpr lt)).trans ?_
  split
  case h_1 rest eq => exact absurd eq (ne rest)
  case h_2 => rw [skipped]

/-- An opening brace begins fields. -/
lemma valueFrom_brace (lt : depth < depthLimit) (fuel : Nat) {text} (ne : ∀ rest, skip text ≠ '}' :: rest) :
    valueFrom depth (fuel + 1) ('{' :: text) =
      (fieldsFrom (depth + 1) fuel [] text).map fun read => (.object read.1, read.2) := by
  have skipped : fieldsFrom (depth + 1) fuel [] (skip text) = fieldsFrom (depth + 1) fuel [] text := by
    cases fuel with
    | zero => rfl
    | succ fuel => rw [fieldsFrom, fieldsFrom, skip_skip]
  refine (if_neg (Nat.not_le.mpr lt)).trans ?_
  split
  case h_1 rest eq => exact absurd eq (ne rest)
  case h_2 => rw [skipped]

/-- Items begin on a line of their own. -/
lemma exists_indentedItems_cons_eq (level : Nat) (item : Json) (others : List Json) :
    ∃ tail, indentedItems level (item :: others) =
      newline level ++ (indentedChars level item ++ tail) := by
  cases others with
  | nil => exact ⟨[], by rw [indentedItems, List.append_nil]⟩
  | cons next others =>
    refine ⟨',' :: indentedItems level (next :: others), ?_⟩
    rw [indentedItems, List.append_assoc]
    nofun

/-- Fields begin on a line of their own. -/
lemma exists_indentedFields_cons_eq (level : Nat) (field : String × Json)
    (others : List (String × Json)) :
    ∃ tail, indentedFields level (field :: others) = newline level ++ '"' :: tail := by
  cases others with
  | nil =>
    rw [indentedFields, List.append_assoc, quoteChars_append]
    exact ⟨_, rfl⟩
  | cons next others =>
    rw [indentedFields, List.append_assoc, quoteChars_append]
    · exact ⟨_, rfl⟩
    · nofun

/-- An array is read back if its items are. -/
lemma reads_array {items} (lt : depth < depthLimit) (reads : ∀ item ∈ items, Reads (depth + 1) item) :
    Reads depth (.array items) := by
  constructor
  · intro level
    cases items <;> exact ⟨_, _, by rw [indentedChars], rfl, by decide⟩
  · intro level fuel rest closes le
    cases items with
    | nil =>
      obtain ⟨fuel, rfl⟩ := Nat.exists_eq_add_one_of_ne_zero (Nat.ne_zero_of_lt le)
      exact if_neg (Nat.not_le.mpr lt)
    | cons item others =>
      rw [indentedChars, List.length_cons, List.length_append, List.length_append] at le
      obtain ⟨fuel, rfl⟩ := Nat.exists_eq_add_one_of_ne_zero (Nat.ne_zero_of_lt le)
      have text : indentedChars level (.array (item :: others)) ++ rest =
          '[' :: (indentedItems (level + 1) (item :: others) ++ (newline level ++ ']' :: rest)) := by
        rw [indentedChars, List.cons_append, List.append_assoc, List.append_assoc,
          List.singleton_append]
      have back := itemsFrom_indentedItems reads (List.cons_ne_nil item others) (level + 1)
        (by omega : _ ≤ fuel) level [] rest
      rw [text, valueFrom_bracket lt, back]
      · rfl
      · intro rest' closed
        -- The first item does not begin with the bracket that would close the list.
        obtain ⟨tail, items_eq⟩ := exists_indentedItems_cons_eq (level + 1) item others
        obtain ⟨c, cs, item_eq, plain, ne⟩ := (reads item List.mem_cons_self).opens (level + 1)
        rw [items_eq, List.append_assoc, skip_newline, item_eq, List.cons_append, List.cons_append,
          skip_cons plain] at closed
        exact ne (List.cons.inj closed).1

/-- An object is read back if its fields are. -/
lemma reads_object {fields} (lt : depth < depthLimit) (reads : ∀ field ∈ fields, Reads (depth + 1) field.2) :
    Reads depth (.object fields) := by
  constructor
  · intro level
    cases fields <;> exact ⟨_, _, by rw [indentedChars], rfl, by decide⟩
  · intro level fuel rest closes le
    cases fields with
    | nil =>
      obtain ⟨fuel, rfl⟩ := Nat.exists_eq_add_one_of_ne_zero (Nat.ne_zero_of_lt le)
      exact if_neg (Nat.not_le.mpr lt)
    | cons field others =>
      rw [indentedChars, List.length_cons, List.length_append, List.length_append] at le
      obtain ⟨fuel, rfl⟩ := Nat.exists_eq_add_one_of_ne_zero (Nat.ne_zero_of_lt le)
      have text : indentedChars level (.object (field :: others)) ++ rest =
          '{' :: (indentedFields (level + 1) (field :: others) ++ (newline level ++ '}' :: rest)) := by
        rw [indentedChars, List.cons_append, List.append_assoc, List.append_assoc,
          List.singleton_append]
      have back := fieldsFrom_indentedFields reads (List.cons_ne_nil field others) (level + 1)
        (by omega : _ ≤ fuel) level [] rest
      rw [text, valueFrom_brace lt, back]
      · rfl
      · intro rest' closed
        obtain ⟨tail, fields_eq⟩ := exists_indentedFields_cons_eq (level + 1) field others
        rw [fields_eq, List.append_assoc, skip_newline, List.cons_append, skip_cons rfl] at closed
        exact absurd (List.cons.inj closed).1 (by decide)

/-- Values are read from what is written for them, as deep as they may be nested. -/
lemma Whole.reads {nesting value} (whole : Whole nesting value) {depth} (le : depth + nesting ≤ depthLimit) :
    Reads depth value := by
  induction whole generalizing depth with
  | null =>
    refine ⟨fun level => ⟨_, _, rfl, rfl, by decide⟩, fun level fuel rest _ le => ?_⟩
    obtain ⟨fuel, rfl⟩ := Nat.exists_eq_add_one_of_ne_zero (Nat.ne_zero_of_lt le)
    rfl
  | bool b =>
    cases b <;>
    · refine ⟨fun level => ⟨_, _, rfl, rfl, by decide⟩, fun level fuel rest _ le => ?_⟩
      obtain ⟨fuel, rfl⟩ := Nat.exists_eq_add_one_of_ne_zero (Nat.ne_zero_of_lt le)
      rfl
  | int n => exact reads_int n
  | string s => exact reads_string s
  | array _ ih => exact reads_array (by omega) fun item mem => ih item mem (by omega)
  | object _ ih => exact reads_object (by omega) fun field mem => ih field mem (by omega)

end Values

/-- A value over several lines is read back, whatever blank text follows it. -/
lemma parse_indented_append {nesting value} (whole : Whole nesting value) (le : nesting ≤ depthLimit) {tail}
    (closes : Closes tail.toList) (blank : skip tail.toList = []) :
    parse (Utf8.ofString (value.indented ++ tail)) = some value := by
  have reads : Reads 0 value := whole.reads (by omega)
  have chars : (value.indented ++ tail).toList = indentedChars 0 value ++ tail.toList := by
    rw [String.toList_append, indented, String.toList_ofList]
  rw [parse, Utf8.codePoints_ofString, chars, parseChars, reads.skip_append,
    reads.back 0 _ _ closes (by rw [List.length_append]; omega)]
  simp only [bind, Option.bind, blank]
  rfl

/-- A value over several lines is read back. -/
lemma parse_indented {nesting value} (whole : Whole nesting value) (le : nesting ≤ depthLimit) :
    parse (Utf8.ofString (value.indented ++ "\n")) = some value :=
  parse_indented_append whole le (closes_newline 0 []) rfl

end Sift.Json
