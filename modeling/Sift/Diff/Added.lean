import Sift.Diff.Patch

/-!
# Added lines

The lines that a patch adds to a file, by their numbers in the new text, and the runs of them that
stand together.
-/

namespace Sift.Diff

/-- Texts by line number, in no particular order. -/
abbrev LineMap := List (Int × Bytes)

/-- Puts a text at a line number, in place of an older one. -/
def LineMap.put (map : LineMap) (number : Int) (text : Bytes) : LineMap :=
  map.filter (·.1 ≠ number) ++ [(number, text)]

/-- Records the added ones of marked lines, the first of which has the given number. Deleted lines
and remarks have none. -/
def addedFrom (map : LineMap) (number : Int) : List Bytes → LineMap
  | [] => map
  | [] :: rest => addedFrom map number rest
  | (mark :: text) :: rest =>
    if mark = 43 then addedFrom (map.put number text) (number + 1) rest
    else if mark = 45 || mark = 92 then addedFrom map number rest
    else addedFrom map (number + 1) rest

/-- The lines that a hunk adds, recorded after those before it. -/
def Hunk.added (map : LineMap) (hunk : Hunk) : LineMap :=
  addedFrom map (if hunk.start ≤ 0 then 1 else hunk.start) hunk.lines

/-- The lines that a patch adds to its file. -/
def FilePatch.added (patch : FilePatch) : LineMap := patch.hunks.foldl Hunk.added []

/-- Lines that follow each other, and the number of the first. -/
structure Block where
  start : Int
  text : Bytes
  deriving DecidableEq, Repr

/-- Joins lines by newlines. -/
def joinLines : List Bytes → Bytes
  | [] => []
  | [line] => line
  | line :: rest => line ++ 10 :: joinLines rest

/-- Groups lines in ascending order. `start` is the number of the first line of the open group,
`group` its texts reversed, and `last` the number of the last one. -/
def groups (start last : Int) (group : List Bytes) : LineMap → List Block
  | [] => [⟨start, joinLines group.reverse⟩]
  | (number, text) :: rest =>
    if number = last + 1 then groups start number (text :: group) rest
    else ⟨start, joinLines group.reverse⟩ :: groups number number [text] rest

/-- The runs of lines whose numbers follow each other. -/
def blocks (map : LineMap) : List Block :=
  match map.mergeSort (fun a b => a.1 ≤ b.1) with
  | [] => []
  | (number, text) :: rest => groups number number [text] rest

end Sift.Diff
