/-!
# Edit scripts

An edit script turns one list into another by keeping, deleting and inserting runs of items. The
script is found by trimming what the lists share at both ends, looking for one list inside the
other, splitting at a long common run, and otherwise by searching from both ends at once for the
middle of a shortest script.
-/

namespace Sift.Diff

/-- What happens to a run of items. -/
inductive Change where
  | keep
  | delete
  | insert
  deriving DecidableEq, Repr

/-- A run of items with one fate. -/
structure Run (α : Type) where
  change : Change
  items : List α
  deriving DecidableEq, Repr

/-- The items that a script starts from. -/
def source {α : Type} (script : List (Run α)) : List α :=
  script.flatMap fun run => if run.change = .insert then [] else run.items

/-- The items that a script leads to. -/
def target {α : Type} (script : List (Run α)) : List α :=
  script.flatMap fun run => if run.change = .delete then [] else run.items

section

variable {α : Type} [DecidableEq α]

/-- How many items two lists begin with alike. -/
def commonLength : List α → List α → Nat
  | a :: as, b :: bs => if a = b then commonLength as bs + 1 else 0
  | _, _ => 0

/-- The shared beginning of two lists and their different rests. -/
def splitCommon (as bs : List α) : List α × List α × List α :=
  let n := commonLength as bs
  (as.take n, as.drop n, bs.drop n)

/-- The shared end of two lists and their different beginnings. -/
def splitCommonEnd (as bs : List α) : List α × List α × List α :=
  let n := commonLength as.reverse bs.reverse
  (as.drop (as.length - n), as.take (as.length - n), bs.take (bs.length - n))

/-- Where `part` first stands in a list, counted on from `start`. -/
def indexOf? (part : List α) (start : Nat) : List α → Option Nat
  | [] => if part.isEmpty then some start else none
  | a :: as => if part.isPrefixOf (a :: as) then some start else indexOf? part (start + 1) as

/-! ## Joining runs -/

/-- Deletions and insertions gathered between two kept runs, and how many runs they came from. -/
structure Pending (α : Type) where
  deleted : List α := []
  inserted : List α := []
  deletions : Nat := 0
  insertions : Nat := 0

/-- Whether nothing is gathered. -/
def Pending.isEmpty (pending : Pending α) : Bool := pending.deletions + pending.insertions = 0

/-- A kept run, if it keeps anything. -/
def keptRun (items : List α) : List (Run α) := if items.isEmpty then [] else [⟨.keep, items⟩]

/-- The runs for what is gathered after the kept items `before`, and the items to keep from there
on. What deletions and insertions begin or end with alike is kept. -/
def Pending.close (pending : Pending α) (before after : List α) : List (Run α) × List α :=
  if pending.insertions = 0 then (keptRun before ++ [⟨.delete, pending.deleted⟩], after)
  else if pending.deletions = 0 then (keptRun before ++ [⟨.insert, pending.inserted⟩], after)
  else
    let (lead, deleted, inserted) := splitCommon pending.deleted pending.inserted
    let (tail, deleted, inserted) := splitCommonEnd deleted inserted
    (keptRun (before ++ lead) ++ [⟨.delete, deleted⟩, ⟨.insert, inserted⟩], tail ++ after)

/-- Gathers the deletions and insertions between kept runs; `before` are the kept items in front. -/
def gather (before : List α) (pending : Pending α) : List (Run α) → List (Run α)
  | [] =>
    if pending.isEmpty then keptRun before
    else
      let (runs, after) := pending.close before []
      runs ++ keptRun after
  | ⟨.delete, items⟩ :: rest =>
    gather before { pending with
      deleted := pending.deleted ++ items, deletions := pending.deletions + 1 } rest
  | ⟨.insert, items⟩ :: rest =>
    gather before { pending with
      inserted := pending.inserted ++ items, insertions := pending.insertions + 1 } rest
  | ⟨.keep, items⟩ :: rest =>
    if pending.isEmpty then gather (before ++ items) {} rest
    else
      let (runs, after) := pending.close before items
      runs ++ gather after {} rest

/-- Shifts an edit between two kept runs over one of them, where that makes the two meet. The flag
says whether anything was shifted. -/
def shift : List (Run α) → List (Run α) × Bool
  | ⟨.keep, before⟩ :: ⟨change, items⟩ :: ⟨.keep, after⟩ :: rest =>
    if change ≠ .keep && before.isSuffixOf items then
      let moved := before ++ items.take (items.length - before.length)
      let (rest, _) := shift (⟨.keep, before ++ after⟩ :: rest)
      (⟨change, moved⟩ :: rest, true)
    else if change ≠ .keep && after.isPrefixOf items then
      let moved := items.drop after.length ++ after
      let (rest, _) := shift rest
      (⟨.keep, before ++ after⟩ :: ⟨change, moved⟩ :: rest, true)
    else
      let (rest, shifted) := shift (⟨.keep, after⟩ :: rest)
      (⟨.keep, before⟩ :: ⟨change, items⟩ :: rest, shifted)
  | run :: rest =>
    let (rest, shifted) := shift rest
    (run :: rest, shifted)
  | [] => ([], false)
termination_by script => script.length

/-- Joins and shifts runs until nothing moves; `fuel` bounds the number of rounds. -/
def tidyRounds : Nat → List (Run α) → List (Run α)
  | 0, script => gather [] {} script
  | fuel + 1, script =>
    let (shifted, moved) := shift (gather [] {} script)
    if moved then tidyRounds fuel shifted else shifted

/-- Joins and shifts runs until nothing moves. Every shift makes two kept runs one. -/
def tidy (script : List (Run α)) : List (Run α) := tidyRounds (script.length + 1) script

/-! ## Finding a script -/

/-- Two lists cut in two around a run that both have. -/
structure Cut (α : Type) where
  firstBefore : List α
  firstAfter : List α
  secondBefore : List α
  secondAfter : List α
  common : List α

/-- The cut with the roles of the lists exchanged. -/
def Cut.swap (cut : Cut α) : Cut α :=
  ⟨cut.secondBefore, cut.secondAfter, cut.firstBefore, cut.firstAfter, cut.common⟩

/-- The longest common run that spreads from where `seed` stands in `short`, of those that begin at
or after `start`; in `long` it spreads from `place`. `fuel` bounds the number of places. -/
def spread (long short seed : List α) (place : Nat) : Nat → Nat → Option (Cut α) → Option (Cut α)
  | 0, _, best => best
  | fuel + 1, start, best =>
    match indexOf? seed start (short.drop start) with
    | none => best
    | some j =>
      let (lead, longAfter, shortAfter) := splitCommon (long.drop place) (short.drop j)
      let (tail, longBefore, shortBefore) := splitCommonEnd (long.take place) (short.take j)
      let cut : Cut α := ⟨longBefore, longAfter, shortBefore, shortAfter, tail ++ lead⟩
      let best := if (best.map (·.common.length)).getD 0 < cut.common.length then some cut else best
      if short.length ≤ j then best else spread long short seed place fuel (j + 1) best

/-- A cut around a common run at least half as long as `long`, which spreads from the quarter of
`long` that begins at `place`. -/
def halfCutAt (long short : List α) (place : Nat) : Option (Cut α) :=
  let seed := (long.drop place).take (long.length / 4)
  match spread long short seed place (short.length + 1) 0 none with
  | some cut => if cut.common.length * 2 < long.length then none else some cut
  | none => none

/-- A cut around a common run at least half as long as the longer list. -/
def halfCut (long short : List α) : Option (Cut α) :=
  if long.length < 4 || short.length * 2 < long.length then none
  else
    match halfCutAt long short ((long.length + 3) / 4), halfCutAt long short ((long.length + 1) / 2) with
    | some first, some second =>
      if second.common.length < first.common.length then some first else some second
    | some cut, none => some cut
    | none, found => found

/-- How far a search from one end has come: for each diagonal the number of items of the first list
it has passed, and the diagonals at either side that it has left the lists on. Diagonals are counted
from `-width`. -/
structure Front where
  reach : Array (Option Nat)
  low : Nat := 0
  high : Nat := 0

/-- How far a diagonal has come. -/
def Front.get (front : Front) (width : Nat) (diagonal : Int) : Option Nat :=
  let place := (width : Int) + diagonal
  if place < 0 then none else (front.reach[place.toNat]?).join

/-- How many items are alike from two places on; `fuel` bounds them. -/
def slide (as bs : Array α) (x y : Nat) : Nat → Nat
  | 0 => 0
  | fuel + 1 =>
    match as[x]?, bs[y]? with
    | some a, some b => if a = b then slide as bs (x + 1) (y + 1) fuel + 1 else 0
    | _, _ => 0

/-- One step of a search along one diagonal after `depth` edits: the place it comes to. -/
def Front.step (front : Front) (as bs : Array α) (width depth : Nat) (diagonal : Int) : Nat × Int :=
  let below := front.get width (diagonal - 1)
  let above := front.get width (diagonal + 1)
  let less := match below, above with
    | none, some _ => true
    | some b, some a => b < a
    | _, none => false
  let x := if diagonal = -depth || (diagonal ≠ depth && less) then above.getD 0
    else (below.map (· + 1)).getD 0
  let y := (x : Int) - diagonal
  let run := if y < 0 then 0 else slide as bs x y.toNat (as.size + 1)
  (x + run, y + run)

/-- Steps a search along its diagonals, from `diagonal` up by twos. `meet` says at which places it
meets the search from the other end. `fuel` bounds the number of diagonals. -/
def sweep (as bs : Array α) (width depth : Nat) (meet : Int → Nat → Int → Option (Nat × Nat))
    (front : Front) (diagonal : Int) : Nat → Except (Nat × Nat) Front
  | 0 => .ok front
  | fuel + 1 =>
    if (depth : Int) - front.high < diagonal then .ok front
    else
      let (x, y) := front.step as bs width depth diagonal
      let front := { front with reach := front.reach.setIfInBounds ((width : Int) + diagonal).toNat (some x) }
      if as.size < x then
        sweep as bs width depth meet { front with high := front.high + 2 } (diagonal + 2) fuel
      else if bs.size < y then
        sweep as bs width depth meet { front with low := front.low + 2 } (diagonal + 2) fuel
      else
        match meet diagonal x y with
        | some place => .error place
        | none => sweep as bs width depth meet front (diagonal + 2) fuel

/-- Searches from both ends with one more edit at a time until the searches meet. -/
def meetAfter (as bs as' bs' : Array α) (width : Nat) (forward backward : Front) (depth : Nat) :
    Nat → Option (Nat × Nat)
  | 0 => none
  | fuel + 1 =>
    let delta : Int := (as.size : Int) - bs.size
    let odd := delta % 2 ≠ 0
    let meetBackward (diagonal : Int) (x : Nat) (y : Int) : Option (Nat × Nat) :=
      if odd then
        match backward.get width (delta - diagonal) with
        | some x' => if as.size ≤ x + x' then some (x, y.toNat) else none
        | none => none
      else none
    match sweep as bs width depth meetBackward forward ((forward.low : Int) - depth) (depth + 1) with
    | .error place => some place
    | .ok forward =>
      let meetForward (diagonal : Int) (x' : Nat) (_ : Int) : Option (Nat × Nat) :=
        if odd then none
        else
          match forward.get width (delta - diagonal) with
          | some x =>
            if as.size ≤ x + x' then some (x, ((x : Int) - (delta - diagonal)).toNat) else none
          | none => none
      match sweep as' bs' width depth meetForward backward ((backward.low : Int) - depth)
          (depth + 1) with
      | .error place => some place
      | .ok backward => meetAfter as bs as' bs' width forward backward (depth + 1) fuel

/-- The middle of a shortest script, if the lists have anything in common. -/
def middle? (as bs : List α) : Option (Nat × Nat) :=
  let width := (as.length + bs.length + 1) / 2
  let reach := (Array.replicate (2 * width) none).setIfInBounds (width + 1) (some 0)
  meetAfter as.toArray bs.toArray as.reverse.toArray bs.reverse.toArray width ⟨reach, 0, 0⟩
    ⟨reach, 0, 0⟩ 0 width

/-- A script that turns `as` into `bs`; `fuel` bounds how often the lists are cut. -/
def scriptWithin : Nat → List α → List α → List (Run α)
  | 0, as, bs => [⟨.delete, as⟩, ⟨.insert, bs⟩]
  | fuel + 1, as, bs =>
    if as = bs then keptRun as
    else
      let (lead, as, bs) := splitCommon as bs
      let (tail, as, bs) := splitCommonEnd as bs
      let long := if bs.length < as.length then as else bs
      let short := if bs.length < as.length then bs else as
      let cut := if bs.length < as.length then halfCut as bs else (halfCut bs as).map (·.swap)
      let inner :=
        if as.isEmpty then [⟨.insert, bs⟩]
        else if bs.isEmpty then [⟨.delete, as⟩]
        else
          match indexOf? short 0 long with
          | some i =>
            let change := if bs.length < as.length then Change.delete else .insert
            [⟨change, long.take i⟩, ⟨.keep, short⟩, ⟨change, long.drop (i + short.length)⟩]
          | none =>
            if short.length = 1 then [⟨.delete, as⟩, ⟨.insert, bs⟩]
            else
              match cut with
              | some cut =>
                scriptWithin fuel cut.firstBefore cut.secondBefore ++ ⟨.keep, cut.common⟩ ::
                  scriptWithin fuel cut.firstAfter cut.secondAfter
              | none =>
                match middle? as bs with
                | some (x, y) =>
                  scriptWithin fuel (as.take x) (bs.take y) ++
                    scriptWithin fuel (as.drop x) (bs.drop y)
                | none => [⟨.delete, as⟩, ⟨.insert, bs⟩]
      tidy (keptRun lead ++ inner ++ keptRun tail)

/-- A script that turns `as` into `bs`. -/
def script (as bs : List α) : List (Run α) := scriptWithin (as.length + bs.length + 1) as bs

end

end Sift.Diff
