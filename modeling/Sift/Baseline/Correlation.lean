import Sift.Baseline.Fingerprint
import Sift.Positions

/-!
# Correlating two runs

Current fingerprints are linked with known ones of the same rule and file. This is done in stages,
from the strictest likeness to the loosest; in each stage, all that no stage before has linked may
be linked, with as many partners as are alike. A correlator keeps the links in two tables, one for
each side.
-/

namespace Sift.Baseline

namespace Fingerprint

/-- Whether two fingerprints have the same digest, and one at all. -/
def sameDigest (a b : Fingerprint) : Bool := a.digest ≠ "" && a.digest == b.digest

/-- Whether two fingerprints have the same lines. -/
def sameLines (a b : Fingerprint) : Bool := a.first == b.first && a.last == b.last

/-- The rule and the file; only fingerprints that share both are compared. -/
def group (a : Fingerprint) : String × String := (a.rule, a.path)

end Fingerprint

/-- A likeness of a known and a current fingerprint. -/
abbrev Likeness := Fingerprint → Fingerprint → Bool

/-- The likenesses, the strictest first. -/
def stages : List Likeness :=
  [fun a b => a.sameDigest b && a.sameLines b,
   fun a b => a.sameDigest b,
   fun a b => a.sameLines b,
   fun a b => a.first == b.first]

/-- A pair of positions, in the current and in the known list. -/
structure Link where
  current : Nat
  known : Nat
  deriving DecidableEq, Repr

/-- The positions that stages have linked so far. -/
structure Matched where
  current : List Nat := []
  known : List Nat := []

/-- The positions of both ends of links, with those before. -/
def Matched.add (matched : Matched) (links : List Link) : Matched :=
  ⟨matched.current ++ links.map (·.current), matched.known ++ links.map (·.known)⟩

/-- Two lists of fingerprints with the links between them. -/
structure Correlator where
  current : List Fingerprint
  known : List Fingerprint
  /-- The known positions that each current one is linked to. -/
  currentToKnown : Positions Nat := []
  /-- The current positions that each known one is linked to. -/
  knownToCurrent : Positions Nat := []
  /-- Whether the links have been computed. -/
  processed : Bool := false

namespace Correlator

/-- The positions of the known fingerprints by rule and file. Those without a rule are left out. -/
def groups (correlator : Correlator) : Positions (String × String) :=
  Positions.addAll [] ((correlator.known.zipIdx.filter (·.1.rule ≠ "")).map fun (old, k) =>
    (old.group, k))

/-- The known positions that a stage links with the current fingerprint at a position: those of its
group that are alike, if no stage before has linked either side. -/
def partners (correlator : Correlator) (groups : Positions (String × String)) (matched : Matched)
    (likeness : Likeness) (cur : Fingerprint) (i : Nat) : List Nat :=
  if matched.current.contains i || cur.rule = "" then []
  else
    (groups.under cur.group).filter fun k =>
      !matched.known.contains k && (correlator.known[k]?).any (likeness · cur)

/-- The links of a stage. -/
def linksOf (correlator : Correlator) (matched : Matched) (likeness : Likeness) : List Link :=
  let groups := correlator.groups
  correlator.current.zipIdx.flatMap fun (cur, i) =>
    (correlator.partners groups matched likeness cur i).map (Link.mk i)

/-- Enters links into both tables. -/
def record (correlator : Correlator) (links : List Link) : Correlator :=
  { correlator with
    currentToKnown :=
      correlator.currentToKnown.addAll (links.map fun link => (link.current, link.known))
    knownToCurrent :=
      correlator.knownToCurrent.addAll (links.map fun link => (link.known, link.current)) }

/-- One stage. What it links is marked when the whole stage is done. -/
def stage (run : Correlator × Matched) (likeness : Likeness) : Correlator × Matched :=
  let links := run.1.linksOf run.2 likeness
  (run.1.record links, run.2.add links)

/-- Some stages one after the other, from empty tables on. -/
def run (correlator : Correlator) (likenesses : List Likeness) : Correlator × Matched :=
  likenesses.foldl stage ({ correlator with currentToKnown := [], knownToCurrent := [] }, {})

/-- Computes the links, unless that has been done. -/
def process (correlator : Correlator) : Correlator :=
  if correlator.processed then correlator
  else { (correlator.run stages).1 with processed := true }

end Correlator

/-- The correlator of two lists, with its links. -/
def correlate (current known : List Fingerprint) : Correlator :=
  (Correlator.mk current known [] [] false).process

/-- Whether the current fingerprint at a position is linked. -/
def isKnown (correlator : Correlator) (position : Nat) : Bool :=
  !(correlator.process.currentToKnown.under position).isEmpty

/-- The current fingerprints without a link. -/
def unmatched (current known : List Fingerprint) : List Fingerprint :=
  let correlator := correlate current known
  (current.zipIdx.filter fun (_, i) => !isKnown correlator i).map (·.1)

/-- The known fingerprints without a link. -/
def fixed (current known : List Fingerprint) : List Fingerprint :=
  let correlator := correlate current known
  (known.zipIdx.filter fun (_, k) => (correlator.knownToCurrent.under k).isEmpty).map (·.1)

end Sift.Baseline
