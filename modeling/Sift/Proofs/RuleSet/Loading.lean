import Mathlib.Data.List.Basic
import Mathlib.Data.List.Nodup
import Sift.Proofs.RuleSet.Reachable

/-!
# Loading a source

A text that is not a rule source is refused as a whole. Of a text that is one, every record meets one
fate (`Fares`): it cannot be used, it is disabled, an earlier rule of the source has its identifier,
another source has it, or it is registered. Records are sorted in two rounds, first among themselves and
then against the other sources, and `exists_fates` follows both at once, record by record. What a load
reports and what it leaves in the set can be read off the fates (`add_accounts`).

The other sources do not change, and only they are asked for owners, so that a load leaves no trace of
what its source held before (`add_add_of_decode`).
-/

namespace Sift

namespace RuleRecord

variable {precedence : Precedence}

/-- What is wrong with a record is said of its source. -/
lemma exists_parse_of_ofItems {source index items error} (eq : ofItems precedence source index items = .error error) :
    ∃ id fault, error = .parse source id fault := by
  induction items generalizing index with
  | nil => cases eq
  | cons value rest ih =>
    have later : ∀ {record : RuleRecord},
        (ofItems precedence source (index + 1) rest).map (record :: ·) = .error error →
          ∃ id fault, error = .parse source id fault := by
      intro record eq
      cases read : ofItems precedence source (index + 1) rest with
      | error other =>
        rw [read] at eq
        cases eq
        exact ih read
      | ok records =>
        rw [read] at eq
        cases eq
    unfold ofItems at eq
    split at eq
    · exact later eq
    · exact later eq
    · cases eq
      exact ⟨_, _, rfl⟩

/-- What is wrong with a text that is not a rule source is said of the source. -/
lemma exists_parse_of_decode {content source error} (eq : decode precedence content source = .error error) :
    ∃ id fault, error = .parse source id fault := by
  unfold decode at eq
  split at eq
  · cases eq
    exact ⟨_, _, rfl⟩
  · split at eq
    · exact exists_parse_of_ofItems eq
    · exact exists_parse_of_ofItems eq
    · cases eq
    · cases eq
      exact ⟨_, _, rfl⟩
    · cases eq
      exact ⟨_, _, rfl⟩

end RuleRecord

lemma LoadFailure.errorsOf_ofErrors? (errors : List LoadError) :
    errorsOf (ofErrors? errors) = errors := by
  cases errors with
  | nil => rfl
  | cons error rest => rfl

lemma LoadFailure.ofErrors?_eq_none_iff {errors} :
    ofErrors? errors = none ↔ errors = [] := by
  cases errors with
  | nil => exact iff_of_true rfl rfl
  | cons error rest => exact iff_of_false nofun nofun

namespace RuleSet

/-- What becomes of a record of a source. -/
inductive Fate where
  /-- No rule can be made of it. -/
  | refused (error : LoadError)
  | disabled
  /-- An earlier rule of the source has its identifier. -/
  | repeated (id : String)
  /-- Another source has its identifier. -/
  | taken (id owner : String)
  | registered (rule : Rule)

namespace Fate

def isDisabled : Fate → Bool
  | disabled => true
  | _ => false

/-- The rule that is registered. -/
def rule? : Fate → Option Rule
  | registered rule => some rule
  | _ => none

/-- What is reported when the records of a source are sorted among themselves. -/
def ownError? (source : String) : Fate → Option LoadError
  | refused error => some error
  | repeated id => some (.parse source id (.duplicateId none))
  | _ => none

/-- What is reported when they are sorted against the other sources. -/
def clash? (source : String) : Fate → Option LoadError
  | taken id owner => some (.parse source id (.duplicateId (some owner)))
  | _ => none

end Fate

/-- The identifier of the rule that a record makes, unless it makes none or one that is disabled. -/
def idOf? (source : String) (record : RuleRecord) : Option String :=
  match Rule.compile source record with
  | .error _ => none
  | .ok rule => if rule.disabled then none else some rule.id

/-- A source holds the identifier. -/
def Holds (source : RuleSource) (id : String) : Prop := ∃ rule ∈ source.rules, rule.id = id

/-- The fate of a record that stands behind the `earlier` records of its source. -/
inductive Fares (set : RuleSet) (source : String) (earlier : List RuleRecord) (record : RuleRecord) :
    Fate → Prop
  | refused {error : LoadError} :
    Rule.compile source record = .error error → Fares set source earlier record (.refused error)
  | disabled {rule : Rule} :
    Rule.compile source record = .ok rule → rule.disabled = true →
      Fares set source earlier record .disabled
  | repeated {rule : Rule} :
    Rule.compile source record = .ok rule → rule.disabled = false →
      (∃ other ∈ earlier, idOf? source other = some rule.id) →
        Fares set source earlier record (.repeated rule.id)
  | taken {rule : Rule} {owner : RuleSource} :
    Rule.compile source record = .ok rule → rule.disabled = false →
      (∀ other ∈ earlier, idOf? source other ≠ some rule.id) →
      owner ∈ set.sources → owner.name ≠ source → Holds owner rule.id →
        Fares set source earlier record (.taken rule.id owner.name)
  | registered {rule : Rule} :
    Rule.compile source record = .ok rule → rule.disabled = false →
      (∀ other ∈ earlier, idOf? source other ≠ some rule.id) →
      (∀ owner ∈ set.sources, owner.name ≠ source → ¬ Holds owner rule.id) →
        Fares set source earlier record (.registered rule)

/-- The fate of a record, computed. -/
def fateOf (set : RuleSet) (source : String) (earlier : List RuleRecord) (record : RuleRecord) : Fate :=
  match Rule.compile source record with
  | .error error => .refused error
  | .ok rule =>
    if rule.disabled then .disabled
    else if (earlier.map (idOf? source)).contains (some rule.id) then .repeated rule.id
    else
      match set.owner? source rule.id with
      | some owner => .taken rule.id owner
      | none => .registered rule

/-- An identifier has no owner if no other source holds it, and else one that does. -/
lemma owner?_cases (set : RuleSet) (source id : String) :
    (set.owner? source id = none ∧ ∀ other ∈ set.sources, other.name ≠ source → ¬ Holds other id) ∨
      ∃ owner ∈ set.sources, owner.name ≠ source ∧ Holds owner id ∧
        set.owner? source id = some owner.name := by
  have iff : ∀ other : RuleSource,
      (other.name ≠ source && other.rules.any fun rule => rule.id == id) = true ↔
        other.name ≠ source ∧ Holds other id := by
    intro other
    simp only [Bool.and_eq_true, decide_eq_true_eq, List.any_eq_true, beq_iff_eq, Holds]
  cases found : set.sources.find? fun other =>
      other.name ≠ source && other.rules.any fun rule => rule.id == id with
  | none =>
    refine .inl ⟨by rw [owner?, found, Option.map_none], fun other mem ne holds => ?_⟩
    exact List.find?_eq_none.mp found other mem ((iff other).mpr ⟨ne, holds⟩)
  | some owner =>
    have chosen := List.find?_some found
    obtain ⟨ne, holds⟩ := (iff owner).mp chosen
    refine .inr ⟨owner, List.mem_of_find?_eq_some found, ne, holds, ?_⟩
    rw [owner?, found, Option.map_some]

/-- No two sources of a well-formed set hold one identifier. -/
lemma WellFormed.holds_unique {set : RuleSet} (wf : set.WellFormed) {a b} (mem : a ∈ set.sources)
    (mem' : b ∈ set.sources) {id} (holds : Holds a id) (holds' : Holds b id) : a = b := by
  by_contra ne
  have apart : set.sources.Pairwise fun a b => ∀ id, ¬ (Holds a id ∧ Holds b id) := by
    refine (List.nodup_flatMap.mp wf.ids_nodup).2.imp ?_
    rintro a b disjoint id ⟨⟨rule, mem, rfl⟩, ⟨rule', mem', eq⟩⟩
    exact disjoint (List.mem_map.mpr ⟨rule, mem, rfl⟩) (List.mem_map.mpr ⟨rule', mem', eq⟩)
  have symm : Std.Symm fun a b : RuleSource => ∀ id, ¬ (Holds a id ∧ Holds b id) :=
    ⟨fun a b none id both => none id both.symm⟩
  exact apart.forall mem mem' ne id ⟨holds, holds'⟩

lemma contains_idOf?_iff {source id} {earlier : List RuleRecord} :
    (earlier.map (idOf? source)).contains (some id) = true ↔
      ∃ other ∈ earlier, idOf? source other = some id := by
  rw [List.contains_iff_mem, List.mem_map]

/-- A record has one fate. -/
lemma Fares.eq_fateOf {set} (wf : set.WellFormed) {source earlier record fate}
    (fares : Fares set source earlier record fate) : fate = set.fateOf source earlier record := by
  have unseen : ∀ {id : String}, (∀ other ∈ earlier, idOf? source other ≠ some id) →
      ¬ (earlier.map (idOf? source)).contains (some id) = true := by
    intro id new seen
    obtain ⟨other, mem, eq⟩ := contains_idOf?_iff.mp seen
    exact new other mem eq
  cases fares with
  | refused failed => simp only [fateOf, failed]
  | disabled compiled off => simp only [fateOf, compiled, off, if_true]
  | repeated compiled on seen =>
    simp only [fateOf, compiled, on, contains_idOf?_iff.mpr seen, if_true, Bool.false_eq_true, if_false]
  | @taken rule owner compiled on new mem ne holds =>
    rcases set.owner?_cases source rule.id with ⟨_, free⟩ | ⟨owner', mem', _, holds', some⟩
    · exact absurd holds (free owner mem ne)
    · rw [wf.holds_unique mem mem' holds holds']
      simp only [fateOf, compiled, on, unseen new, some, Bool.false_eq_true, if_false]
  | @registered rule compiled on new free =>
    rcases set.owner?_cases source rule.id with ⟨none, _⟩ | ⟨owner, mem, ne, holds, _⟩
    · simp only [fateOf, compiled, on, unseen new, none, Bool.false_eq_true, if_false]
    · exact absurd holds (free owner mem ne)

/-- The fates of records, each behind those before it. -/
inductive Fates (set : RuleSet) (source : String) :
    List RuleRecord → List RuleRecord → List Fate → Prop
  | nil {earlier : List RuleRecord} : Fates set source earlier [] []
  | cons {earlier rest : List RuleRecord} {record : RuleRecord} {fate : Fate} {fates : List Fate} :
    Fares set source earlier record fate → Fates set source (earlier ++ [record]) rest fates →
      Fates set source earlier (record :: rest) (fate :: fates)

/-- The fates of records are determined. -/
lemma Fates.unique {set} (wf : set.WellFormed) {source earlier records fates fates'}
    (all : Fates set source earlier records fates) (all' : Fates set source earlier records fates') :
    fates = fates' := by
  induction all generalizing fates' with
  | nil =>
    cases all'
    rfl
  | cons fares _ ih =>
    cases all' with
    | cons fares' rest' => rw [fares.eq_fateOf wf, fares'.eq_fateOf wf, ih rest']

lemma Fates.length_eq {set source earlier records fates} (all : Fates set source earlier records fates) :
    fates.length = records.length := by
  induction all with
  | nil => rfl
  | cons _ _ ih => rw [List.length_cons, List.length_cons, ih]

/-- Every record is registered, reported once or disabled. -/
lemma length_fates (source : String) (fates : List Fate) :
    (fates.filterMap Fate.rule?).length +
        (fates.filterMap (·.ownError? source) ++ fates.filterMap (·.clash? source)).length +
        fates.countP Fate.isDisabled = fates.length := by
  have cons : ∀ {α : Type} (f : Fate → Option α) (fate : Fate) (rest : List Fate),
      ((fate :: rest).filterMap f).length = (f fate).toList.length + (rest.filterMap f).length := by
    intro α f fate rest
    cases made : f fate with
    | none => rw [List.filterMap_cons_none made, Option.toList_none, List.length_nil, Nat.zero_add]
    | some a => rw [List.filterMap_cons_some made, List.length_cons, Nat.add_comm]; rfl
  induction fates with
  | nil => rfl
  | cons fate rest ih =>
    have once : fate.rule?.toList.length +
        ((fate.ownError? source).toList.length + (fate.clash? source).toList.length) +
        (if fate.isDisabled then 1 else 0) = 1 := by
      cases fate <;> rfl
    rw [List.length_append] at ih ⊢
    rw [cons, cons, cons, List.countP_cons, List.length_cons]
    omega

section Sorting

variable {source : String} {record : RuleRecord}

lemma idOf?_of_error {error} (failed : Rule.compile source record = .error error) :
    idOf? source record = none := by
  rw [idOf?, failed]

lemma idOf?_of_disabled {rule} (compiled : Rule.compile source record = .ok rule) (off : rule.disabled = true) :
    idOf? source record = none := by
  rw [idOf?, compiled]
  exact if_pos off

lemma idOf?_of_enabled {rule} (compiled : Rule.compile source record = .ok rule) (on : rule.disabled = false) :
    idOf? source record = some rule.id := by
  rw [idOf?, compiled]
  exact if_neg (by rw [on]; exact Bool.false_ne_true)

/-- The identifiers in `taken` are those of the records before. -/
def Marks (source : String) (earlier : List RuleRecord) (taken : List String) : Prop :=
  ∀ id, id ∈ taken ↔ ∃ other ∈ earlier, idOf? source other = some id

lemma Marks.nil (source : String) : Marks source [] [] := by
  intro id
  constructor
  · intro mem
    cases mem
  · rintro ⟨_, mem, _⟩
    cases mem

variable {earlier : List RuleRecord} {taken : List String}

/-- A record without a new id marks nothing. -/
lemma Marks.skip (marks : Marks source earlier taken)
    (seen : ∀ id, idOf? source record = some id → id ∈ taken) :
    Marks source (earlier ++ [record]) taken := by
  intro id
  rw [marks id]
  constructor
  · rintro ⟨other, mem, eq⟩
    exact ⟨other, List.mem_append_left _ mem, eq⟩
  · rintro ⟨other, mem, eq⟩
    rcases List.mem_append.mp mem with mem | mem
    · exact ⟨other, mem, eq⟩
    · exact (marks id).mp (seen id (List.mem_singleton.mp mem ▸ eq))

/-- A record with a new id marks it. -/
lemma Marks.add (marks : Marks source earlier taken) {new} (named : idOf? source record = some new) :
    Marks source (earlier ++ [record]) (new :: taken) := by
  intro id
  rw [List.mem_cons, marks id]
  constructor
  · rintro (rfl | ⟨other, mem, eq⟩)
    · exact ⟨record, List.mem_append_right _ (List.mem_singleton_self _), named⟩
    · exact ⟨other, List.mem_append_left _ mem, eq⟩
  · rintro ⟨other, mem, eq⟩
    rcases List.mem_append.mp mem with mem | mem
    · exact .inr ⟨other, mem, eq⟩
    · obtain rfl := List.mem_singleton.mp mem
      exact .inl (Option.some.inj (eq.symm.trans named))

end Sorting

/-- The two rounds of sorting tell the fates of the records. -/
structure Sorts (set : RuleSet) (source : String) (sorted : Sorted) (fates : List Fate) : Prop where
  errors : sorted.errors = fates.filterMap (·.ownError? source)
  free : (sorted.accepted.filter fun rule => (set.owner? source rule.id).isNone) =
    fates.filterMap Fate.rule?
  clashes : (sorted.accepted.filterMap fun rule => (set.owner? source rule.id).map fun owner =>
    LoadError.parse source rule.id (.duplicateId (some owner))) = fates.filterMap (·.clash? source)

/-- Sorting gives each record its fate. -/
lemma exists_fates (set : RuleSet) {source earlier taken} (marks : Marks source earlier taken)
    (records : List RuleRecord) :
    ∃ fates, Fates set source earlier records fates ∧
      Sorts set source (sortRecords source taken records) fates := by
  induction records generalizing earlier taken with
  | nil => exact ⟨[], .nil, rfl, rfl, rfl⟩
  | cons record rest ih =>
    unfold sortRecords
    split
    case h_1 error failed =>
      have none := idOf?_of_error failed
      obtain ⟨fates, all, sorts⟩ := ih (marks.skip fun id eq => nomatch none.symm.trans eq)
      exact ⟨.refused error :: fates, .cons (.refused failed) all,
        congrArg (error :: ·) sorts.errors, sorts.free, sorts.clashes⟩
    case h_2 rule compiled =>
      split
      case isTrue off =>
        have none := idOf?_of_disabled compiled off
        obtain ⟨fates, all, sorts⟩ := ih (marks.skip fun id eq => nomatch none.symm.trans eq)
        exact ⟨.disabled :: fates, .cons (.disabled compiled off) all, sorts.errors, sorts.free,
          sorts.clashes⟩
      case isFalse on =>
        rw [Bool.not_eq_true] at on
        have named := idOf?_of_enabled compiled on
        split
        case isTrue seen =>
          rw [List.contains_iff_mem] at seen
          obtain ⟨fates, all, sorts⟩ := ih (marks.skip fun id eq => by
            cases named.symm.trans eq
            exact seen)
          exact ⟨.repeated rule.id :: fates,
            .cons (.repeated compiled on ((marks rule.id).mp seen)) all,
            congrArg (LoadError.parse source rule.id (.duplicateId none) :: ·) sorts.errors,
            sorts.free, sorts.clashes⟩
        case isFalse new =>
          rw [List.contains_iff_mem] at new
          have new' : ∀ other ∈ earlier, idOf? source other ≠ some rule.id := fun other mem eq =>
            new ((marks rule.id).mpr ⟨other, mem, eq⟩)
          obtain ⟨fates, all, sorts⟩ := ih (marks.add named)
          rcases set.owner?_cases source rule.id with ⟨none, free⟩ | ⟨owner, mem, ne, holds, some⟩
          · refine ⟨.registered rule :: fates, .cons (.registered compiled on new' free) all,
              sorts.errors, ?_, ?_⟩
            · rw [List.filter_cons_of_pos (by rw [none]; rfl), sorts.free]
              rfl
            · rw [List.filterMap_cons_none (by rw [none]; rfl), sorts.clashes]
              rfl
          · refine ⟨.taken rule.id owner.name :: fates, .cons (.taken compiled on new' mem ne holds) all,
              sorts.errors, ?_, ?_⟩
            · rw [List.filter_cons_of_neg (by rw [some]; exact Bool.false_ne_true), sorts.free]
              rfl
            · rw [List.filterMap_cons_some (by rw [some]; rfl), sorts.clashes]
              rfl

/-- A source stands where it stood before, or else behind all others, which stay as they are. -/
inductive Placed (source : RuleSource) : List RuleSource → List RuleSource → Prop
  | replaced {front back : List RuleSource} {old : RuleSource} :
    old.name = source.name → (∀ other ∈ front ++ back, other.name ≠ source.name) →
      Placed source (front ++ old :: back) (front ++ source :: back)
  | appended {sources : List RuleSource} :
    (∀ other ∈ sources, other.name ≠ source.name) → Placed source sources (sources ++ [source])

lemma placed_putSource {name rules sources} (nodup : (sources.map (·.name)).Nodup) :
    Placed ⟨name, rules⟩ sources (putSource name rules sources) := by
  induction sources with
  | nil => exact .appended nofun
  | cons first rest ih =>
    obtain ⟨new, nodup'⟩ := List.nodup_cons.mp nodup
    unfold putSource
    split
    case isTrue same =>
      refine @Placed.replaced _ [] rest first same fun other mem eq => ?_
      exact new (List.mem_map.mpr ⟨other, mem, eq.trans same.symm⟩)
    case isFalse ne =>
      have placed := ih nodup'
      generalize putSource name rules rest = sources at placed
      cases placed with
      | @replaced front back old same others =>
        refine @Placed.replaced _ (first :: front) back old same fun other mem => ?_
        rcases List.mem_cons.mp mem with rfl | mem
        · exact ne
        · exact others other mem
      | appended others =>
        refine .appended fun other mem => ?_
        rcases List.mem_cons.mp mem with rfl | mem
        · exact ne
        · exact others other mem

/-- What a load of records reports and leaves in the set, by the fates of the records. -/
structure Accounts (set : RuleSet) (source : String) (records : List RuleRecord)
    (result : RuleSet × Option LoadFailure) (fates : List Fate) : Prop where
  /-- Each record has one fate. -/
  each : Fates set source [] records fates
  unique : ∀ fates', Fates set source [] records fates' → fates' = fates
  /-- Records that fail and records that are refused are reported, each once. -/
  errors : LoadFailure.errorsOf result.2 =
    fates.filterMap (·.ownError? source) ++ fates.filterMap (·.clash? source)
  failure : result.2 = none ↔ LoadFailure.errorsOf result.2 = []
  total : (fates.filterMap Fate.rule?).length + (LoadFailure.errorsOf result.2).length +
    fates.countP Fate.isDisabled = records.length
  /-- The source holds the rules that are registered, and all else is as it was. -/
  sources : Placed ⟨source, fates.filterMap Fate.rule?⟩ set.sources result.1.sources

/-- Adding records accounts for each of them. -/
lemma WellFormed.accounts {set} (wf : set.WellFormed) (source : String) (records : List RuleRecord) :
    ∃ fates, Accounts set source records
      ((set.addRecords records source).1, LoadFailure.ofErrors? (set.addRecords records source).2) fates := by
  obtain ⟨fates, all, sorts⟩ := set.exists_fates (Marks.nil source) records
  have errors : (set.addRecords records source).2 =
      fates.filterMap (·.ownError? source) ++ fates.filterMap (·.clash? source) := by
    rw [← sorts.errors, ← sorts.clashes]
    rfl
  refine ⟨fates, ?_⟩
  constructor
  · exact all
  · exact fun _ all' => all'.unique wf all
  · rw [LoadFailure.errorsOf_ofErrors?, errors]
  · rw [LoadFailure.errorsOf_ofErrors?, LoadFailure.ofErrors?_eq_none_iff]
  · rw [LoadFailure.errorsOf_ofErrors?, errors, length_fates, all.length_eq]
  · rw [← sorts.free]
    exact placed_putSource wf.names_nodup

/-- Loading a text accounts for all of it, whatever was done with the set before. A text that is not a
rule source is refused with one error and changes nothing. Of a text that is one, each record has its
fate, and the fates tell what is reported and what the set holds afterwards. -/
theorem add_accounts (precedence : Precedence) (recursive : Bool) (operations : List Operation) (content : Bytes)
    (source : String) :
    (∀ error, RuleRecord.decode precedence content source = .error error →
      (∃ id fault, error = .parse source id fault) ∧
        (after recursive operations).add content source precedence =
          (after recursive operations, some (.rejected error))) ∧
    ∀ records, RuleRecord.decode precedence content source = .ok records →
      ∃ fates, Accounts (after recursive operations) source records
        ((after recursive operations).add content source precedence) fates := by
  refine ⟨fun error failed => ⟨RuleRecord.exists_parse_of_decode failed, ?_⟩, fun records read => ?_⟩
  · simp only [add, failed]
  · have eq : (after recursive operations).add content source precedence =
        (((after recursive operations).addRecords records source).1,
          LoadFailure.ofErrors? ((after recursive operations).addRecords records source).2) := by
      simp only [add, read]
    rw [eq]
    exact (wellFormed_after recursive operations).accounts source records

/-- A record whose tags are no list and whose severity is unknown: if the tags count, the source is refused, and if
the severity counts, the record is reported and the other one is registered. -/
example :
    let content := Utf8.ofString ("[\x7b\"id\":\"A\",\"tags\":\"x\",\"severity\":\"bogus\"\x7d," ++
      "\x7b\"id\":\"B\",\"severity\":\"critical\"\x7d]")
    let load (precedence : Precedence) :=
      let (set, failure) := (after false []).add content "test" precedence
      (set.rules.map (·.id), (LoadFailure.errorsOf failure).map LoadError.message)
    load .first = ([], ["parse \"test\": rule \"A\": <json>"]) ∧
      load .severity = (["B"], ["parse \"test\": rule \"A\": unknown severity: \"bogus\""]) := by
  decide +kernel

/-- A source with a record of each fate, beside a source that holds the identifier "A". -/
example :
    let set := after false [.addRecords [{ id := "A", severity := .critical }] "one"]
    let result := set.addRecords
      [{ id := "B" }, { id := "C", severity := .critical, disabled := true },
        { id := "D", severity := .critical }, { id := "D", severity := .moderate },
        { id := "A", severity := .critical }] "two"
    result.1.sources.map (fun source => (source.name, source.rules.map (·.id))) =
        [("one", ["A"]), ("two", ["D"])] ∧
      result.2.length = 3 := by
  decide +kernel

section Reloading

variable {source : String} {rules : List Rule}

lemma putSource_putSource (rules' : List Rule) (sources : List RuleSource) :
    putSource source rules' (putSource source rules sources) = putSource source rules' sources := by
  induction sources with
  | nil => simp only [putSource, if_true]
  | cons first rest ih =>
    by_cases same : first.name = source
    · simp only [putSource, same, if_true]
    · simp only [putSource, same, if_false, ih]

/-- What looks at other sources only does not see that a source is put in place. -/
lemma find?_putSource {p} (blind : ∀ held : RuleSource, held.name = source → p held = false)
    (sources : List RuleSource) : (putSource source rules sources).find? p = sources.find? p := by
  induction sources with
  | nil => rw [putSource, List.find?_cons_of_neg (by rw [blind _ rfl]; exact Bool.false_ne_true)]
  | cons first rest ih =>
    unfold putSource
    split
    case isTrue same =>
      rw [List.find?_cons_of_neg (by rw [blind _ rfl]; exact Bool.false_ne_true),
        List.find?_cons_of_neg (by rw [blind _ same]; exact Bool.false_ne_true)]
    case isFalse => rw [List.find?_cons, List.find?_cons, ih]

/-- The owner of an identifier does not depend on what the source itself holds. -/
lemma owner?_withSources (set : RuleSet) (id : String) :
    (set.withSources (putSource source rules set.sources)).owner? source id = set.owner? source id := by
  refine congrArg (Option.map _) (find?_putSource (fun held same => ?_) set.sources)
  rw [decide_eq_false (not_not.mpr same), Bool.false_and]

end Reloading

/-- Records that are registered for a source replace all that were registered for it before. -/
lemma addRecords_addRecords (set : RuleSet) (first second : List RuleRecord) (source : String) :
    (set.addRecords first source).1.addRecords second source = set.addRecords second source := by
  simp only [addRecords, owner?_withSources]
  rw [withSources, withSources, putSource_putSource]
  rfl

/-- Loading a source again makes no difference to loading it once: whatever the first text was, and
however much of it was registered, the set, its tables and what is reported are those of the second load
alone. -/
theorem add_add_of_decode (precedence : Precedence) (set : RuleSet) (first second : Bytes) (source : String)
    (records : List RuleRecord)
    (read : RuleRecord.decode precedence second source = .ok records) :
    (set.add first source precedence).1.add second source precedence = set.add second source precedence := by
  have plain : ∀ set : RuleSet, set.add second source precedence =
      ((set.addRecords records source).1, LoadFailure.ofErrors? (set.addRecords records source).2) := by
    intro set
    simp only [add, read]
  rw [plain, plain]
  cases opened : RuleRecord.decode precedence first source with
  | error error =>
    -- The first text changed nothing.
    simp only [add, opened]
  | ok records' =>
    have changed : (set.add first source precedence).1 = (set.addRecords records' source).1 := by
      simp only [add, opened]
    rw [changed, addRecords_addRecords]

/-- Of a first text, one rule is registered and one clashes with another source; the second text has the
identifier of the rule that was registered. -/
theorem add_add_of_same_id :
    let set := after false [.addRecords [{ id := "A", severity := .critical }] "other"]
    let first := Utf8.ofString
      "[\x7b\"id\":\"A\",\"severity\":\"critical\"\x7d,\x7b\"id\":\"B\",\"severity\":\"critical\"\x7d]"
    let second := Utf8.ofString "\x7b\"id\":\"B\",\"severity\":\"moderate\"\x7d"
    (∃ records, RuleRecord.decode .first second "test" = .ok records) ∧
      ((set.add first "test").1.rules.map (·.id), (LoadFailure.errorsOf (set.add first "test").2).length) =
        (["A", "B"], 1) ∧
      (set.add first "test").1.add second "test" = set.add second "test" := by
  intro set first second
  have read : (RuleRecord.decode .first second "test").toOption.isSome = true := by decide +kernel
  have loaded : ((set.add first "test").1.rules.map (·.id),
      (LoadFailure.errorsOf (set.add first "test").2).length) = (["A", "B"], 1) := by decide +kernel
  cases opened : RuleRecord.decode .first second "test" with
  | error error =>
    rw [opened] at read
    cases read
  | ok records => exact ⟨⟨records, rfl⟩, loaded, add_add_of_decode .first set first second "test" records opened⟩

end RuleSet

end Sift
