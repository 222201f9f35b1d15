import Sift.Proofs.Language
import Sift.Proofs.RuleSet.Candidates
import Sift.Proofs.RuleSet.Origin
import Sift.Proofs.Text.Normalize

/-!
# Rules that are about a language

A rule that is asked about a language compares it with its names but for case. A set that is asked for the
rules about a language looks up its normal form among the normal forms of their names. In ASCII two names are
the same but for case just if they are the same in lower case (`Unicode.equalFold_iff_lowerString_eq`), and the
names of a registered rule are in normal form, so that the two agree (`appliesToLanguage_iff_mem_candidatesFor`).
-/

namespace Sift

namespace Unicode

/-- The characters of a string are in ASCII. -/
def IsAscii (s : String) : Prop := ∀ c ∈ s.toList, c.toNat < 128

instance (s : String) : Decidable (IsAscii s) :=
  decidable_of_iff (s.toList.all fun c => c.toNat < 128) (by simp [IsAscii])

lemma fold_eq_toLower {c} (ascii : c < 128) : fold c = toLower c := by
  rw [fold, toLower, if_pos ascii, if_pos ascii]

lemma toNat_lowerChar {c} (ascii : c.toNat < 128) : (lowerChar c).toNat = toLower c.toNat := by
  have low : toLower c.toNat < 128 := by
    rw [toLower, if_pos ascii]
    split <;> omega
  rcases toNat_lowerChar_cases c with eq | ⟨_, invalid⟩
  · exact eq
  · exact absurd (.inl (Nat.lt_trans low (by decide))) invalid

/-- The code points of a string of ASCII in lower case are those that it folds to. -/
lemma IsAscii.toNat_lowerString {s} (ascii : IsAscii s) :
    (lowerString s).toList.map Char.toNat = s.toList.map fun c => fold c.toNat := by
  rw [lowerString, String.toList_map, List.map_map]
  refine List.map_congr_left fun c mem => ?_
  rw [Function.comp_apply, toNat_lowerChar (ascii c mem), fold_eq_toLower (ascii c mem)]

lemma equalFold_iff_lowerString_eq {s t} (ascii : IsAscii s) (ascii' : IsAscii t) :
    equalFold s t = true ↔ lowerString s = lowerString t := by
  have injective : Function.Injective (List.map Char.toNat) :=
    List.map_injective_iff.mpr fun _ _ => Char.toNat_inj.mp
  rw [equalFold, beq_iff_eq, ← ascii.toNat_lowerString, ← ascii'.toNat_lowerString, injective.eq_iff,
    String.toList_inj]

lemma lowerString_ne_empty {s} (ne : s ≠ "") : lowerString s ≠ "" := by
  intro eq
  have none := congrArg String.toList eq
  rw [lowerString, String.toList_map, String.toList_empty, List.map_eq_nil_iff] at none
  exact ne (String.toList_inj.mp (none.trans String.toList_empty.symm))

end Unicode

namespace Rule

/-- A rule that names languages concerns one language if it names it, up to normal form. -/
lemma concerns_singleton {rule : Rule} {language} (ne : Text.normalize language ≠ "") :
    rule.concerns [language] = true ↔
      rule.appliesTo = [] ∨ ∃ name ∈ rule.appliesTo, Text.normalize name = Text.normalize language := by
  rw [concerns, Bool.or_eq_true, List.isEmpty_iff, List.any_eq_true]
  refine or_congr_right ?_
  simp only [List.contains_iff_mem, Language.mem_normalize, List.mem_singleton, exists_eq_left]
  constructor
  · rintro ⟨_, ⟨_, name, mem, same⟩, _, rfl⟩
    exact ⟨name, mem, same⟩
  · rintro ⟨name, mem, same⟩
    exact ⟨Text.normalize language, ⟨ne, name, mem, same⟩, ne, rfl⟩

/-- Of a language in ASCII, a rule with normal names in ASCII says what their normal forms say. -/
lemma appliesToLanguage_iff_concerns {rule : Rule} {language}
    (normal : ∀ name ∈ rule.appliesTo, Text.normalize name = name)
    (ascii : ∀ name ∈ rule.appliesTo, Unicode.IsAscii name) (ascii' : Unicode.IsAscii language) (ne : language ≠ "")
    (trimmed : Text.trim language = language) :
    rule.appliesToLanguage language = true ↔ rule.concerns [language] = true := by
  have lower : Text.normalize language = Unicode.lowerString language := by rw [Text.normalize, trimmed]
  rw [concerns_singleton (lower ▸ Unicode.lowerString_ne_empty ne), appliesToLanguage, Bool.or_eq_true,
    List.isEmpty_iff, List.any_eq_true]
  refine or_congr_right (exists_congr fun name => and_congr_right fun mem => ?_)
  -- A normal name is in lower case already.
  have lowered : Unicode.lowerString name = name := by
    rw [← normal name mem, Text.normalize, Text.lowerString_lowerString]
  rw [Unicode.equalFold_iff_lowerString_eq (ascii name mem) ascii', lowered, normal name mem, lower]

end Rule

namespace RuleSet

/-- The names of a registered rule are in normal form. -/
lemma normalize_name_after {recursive operations rule} (mem : rule ∈ (after recursive operations).rules) :
    ∀ name ∈ rule.appliesTo, Text.normalize name = name := by
  obtain ⟨record, compiled, _⟩ := exists_compile_after mem
  rw [(Rule.of_compile compiled).2.2.2]
  intro name mem
  obtain ⟨given, _, rfl⟩ := List.mem_map.mp mem
  exact Text.normalize_normalize given

/-- A registered rule has a level. -/
lemma severity_intersects_self_after {recursive operations rule} (mem : rule ∈ (after recursive operations).rules) :
    rule.severity.intersects rule.severity = true := by
  obtain ⟨record, compiled, _⟩ := exists_compile_after mem
  rw [Severity.intersects, UInt8.and_self, bne_iff_ne]
  intro zero
  exact (Rule.of_compile compiled).2.2.1 (congrArg Severity.mk zero)

/-- If a set remembers no answers, a rule of it is among the candidates for a language and some severities just
if it has one of the severities and is about the language. So it is about the language just if it is among the
candidates for all severities that it shares a level with. This is for a language and for names in ASCII; the
language is not empty and has no white space around it, whereas the rule may have been given empty names,
names in capitals or with white space around them, and names more than once. -/
theorem appliesToLanguage_iff_mem_candidatesFor (recursive : Bool) (operations : List Operation)
    (fresh : (after recursive operations).answers = []) (rule : Rule)
    (mem : rule ∈ (after recursive operations).rules)
    (ascii : ∀ name ∈ rule.appliesTo, Unicode.IsAscii name) (language : String)
    (ascii' : Unicode.IsAscii language) (ne : language ≠ "") (trimmed : Text.trim language = language) :
    (rule.appliesToLanguage language = true ↔ ∀ mask, rule.severity.intersects mask = true →
      rule ∈ ((after recursive operations).candidatesFor [language] mask).1) ∧
    ∀ mask, rule ∈ ((after recursive operations).candidatesFor [language] mask).1 ↔
      rule.severity.intersects mask = true ∧ rule.appliesToLanguage language = true := by
  have asked : ∀ mask, rule ∈ ((after recursive operations).candidatesFor [language] mask).1 ↔
      rule.severity.intersects mask = true ∧ rule.appliesToLanguage language = true := by
    intro mask
    have miss : (after recursive operations).answers.lookup (answerKey [language] mask) = none := by
      rw [fresh]
      rfl
    have same := Rule.appliesToLanguage_iff_concerns (normalize_name_after mem) ascii ascii' ne trimmed
    rw [candidatesFor_of_new miss, (wellFormed_after recursive operations).lookup_eq_filter, List.mem_filter,
      Bool.and_eq_true, same]
    exact and_iff_right mem
  refine ⟨⟨?_, ?_⟩, asked⟩
  · exact fun applies mask shares => (asked mask).mpr ⟨shares, applies⟩
  · intro all
    exact ((asked rule.severity).mp (all _ (severity_intersects_self_after mem))).2

/-- A rule with a name in capitals and white space, an empty name and a repeat is found for each spelling of
the name, and not for another language. -/
theorem appliesToLanguage_iff_mem_candidatesFor_respelt :
    let operations : List Operation :=
      [.addRecords [{ id := "A", severity := .critical, appliesTo := ["\tGo ", "", "GO"] }] "test"]
    (after false operations).answers = [] ∧
      ∃ rule ∈ (after false operations).rules, rule.appliesTo = ["go", "", "go"] ∧
        rule.severity.intersects .all = true ∧ rule.appliesToLanguage "gO" = true ∧
        rule ∈ ((after false operations).candidatesFor ["gO"] .all).1 ∧
        rule ∉ ((after false operations).candidatesFor ["c"] .all).1 := by
  intro operations
  have registered : (["go", "", "go"], Severity.critical) ∈
      (after false operations).rules.map fun rule => (rule.appliesTo, rule.severity) := by decide +kernel
  obtain ⟨rule, mem, data⟩ := List.mem_map.mp registered
  obtain ⟨names, severity⟩ := Prod.mk.inj data
  have ascii : ∀ name ∈ rule.appliesTo, Unicode.IsAscii name := by
    rw [names]
    decide
  have shares : rule.severity.intersects .all = true := by rw [severity]; rfl
  have applies : rule.appliesToLanguage "gO" = true ∧ rule.appliesToLanguage "c" = false := by
    rw [Rule.appliesToLanguage, Rule.appliesToLanguage, names]
    decide +kernel
  have go := appliesToLanguage_iff_mem_candidatesFor false operations rfl rule mem ascii "gO"
    (by decide) (by decide) (by decide)
  have c := appliesToLanguage_iff_mem_candidatesFor false operations rfl rule mem ascii "c"
    (by decide) (by decide) (by decide)
  refine ⟨rfl, rule, mem, names, shares, applies.1, go.1.mp applies.1 _ shares, fun found => ?_⟩
  exact absurd ((c.2 _).mp found).2 (Bool.eq_false_iff.mp applies.2)

end RuleSet

end Sift
