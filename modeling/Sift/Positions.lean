/-!
# Positions by key

A table that holds a list of positions under each key, in the order in which they were added.
-/

namespace Sift

/-- Positions under keys. -/
abbrev Positions (κ : Type) := List (κ × List Nat)

namespace Positions

variable {κ : Type} [DecidableEq κ]

/-- Adds a position behind those under a key. -/
def add (table : Positions κ) (key : κ) (position : Nat) : Positions κ :=
  match table with
  | [] => [(key, [position])]
  | (other, found) :: rest =>
    if other = key then (other, found ++ [position]) :: rest
    else (other, found) :: add rest key position

/-- Adds positions, each under its key. -/
def addAll (table : Positions κ) (entries : List (κ × Nat)) : Positions κ :=
  entries.foldl (fun table entry => table.add entry.1 entry.2) table

/-- The positions under a key. -/
def under (table : Positions κ) (key : κ) : List Nat := (table.lookup key).getD []

/-- Adding a position under a key leaves what is under other keys as it was. -/
theorem under_add (table : Positions κ) (key name : κ) (position : Nat) :
    (table.add key position).under name =
      table.under name ++ if name = key then [position] else [] := by
  induction table with
  | nil =>
    by_cases eq : name = key
    · subst eq
      simp [add, under]
    · simp [add, under, List.lookup_cons, beq_eq_false_iff_ne.mpr eq, eq]
  | cons entry rest ih =>
    obtain ⟨other, found⟩ := entry
    unfold under at ih ⊢
    by_cases eq : other = key
    · subst eq
      rw [add, if_pos rfl]
      by_cases eq' : name = other
      · subst eq'
        simp
      · simp [List.lookup_cons, beq_eq_false_iff_ne.mpr eq', eq']
    · rw [add, if_neg eq]
      by_cases eq' : name = other
      · subst eq'
        simp [eq]
      · simp only [List.lookup_cons, beq_eq_false_iff_ne.mpr eq', ih]

/-- What is added under a key stands behind what was there, in the order of adding. -/
theorem under_addAll (table : Positions κ) (entries : List (κ × Nat)) (name : κ) :
    (table.addAll entries).under name =
      table.under name ++ (entries.filter (·.1 = name)).map (·.2) := by
  induction entries generalizing table with
  | nil => simp [addAll]
  | cons entry rest ih =>
    have step : (table.addAll (entry :: rest)).under name =
        ((table.add entry.1 entry.2).addAll rest).under name := rfl
    rw [step, ih, under_add]
    by_cases eq : entry.1 = name
    · simp [eq]
    · simp [eq, Ne.symm eq]

end Positions

end Sift
