import Sift.Report.Sarif

/-!
# Gathering the rules of a run

Rules are put into a table under their identifiers, record by record. The table has no order of its own: it
is read in some order, and what was read is then sorted by identifier in some way, which need not keep
the order of rules that it cannot tell apart.
-/

namespace Sift.Report.Sarif

/-- Rules under their identifiers. -/
def Table := String → Option Rule

namespace Table

/-- A table without rules. -/
def empty : Table := fun _ => none

/-- Puts a rule under its identifier, in place of one that is there. -/
def put (table : Table) (rule : Rule) : Table := fun id =>
  if id = rule.id then some rule else table id

/-- The table of the rules of records. -/
def ofRecords (records : List Record) : Table :=
  records.foldl (fun table record => table.put record.issue.rule) empty

/-- What may be read from a table: each of its rules once, in any order. -/
structure Reads (table : Table) (read : List Rule) : Prop where
  nodup : (read.map (·.id)).Nodup
  mem : ∀ rule, rule ∈ read ↔ table rule.id = some rule

end Table

/-- What sorting rules by identifier may give: the same rules, and none of them behind one with a greater
identifier. -/
structure Sorts (read rules : List Rule) : Prop where
  perm : rules.Perm read
  ascends : rules.Pairwise fun first second => ¬ second.id < first.id

/-- What gathering the rules of records may give. -/
def Gathers (records : List Record) (rules : List Rule) : Prop :=
  ∃ read, (Table.ofRecords records).Reads read ∧ Sorts read rules

end Sift.Report.Sarif
