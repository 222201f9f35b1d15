import Sift.Diff.Hunk
import Sift.Text.Blank

/-!
# Patches

A patch names files and shows the hunks of each. When a patch is read back, a deleted line that looks
like the name of an old file, followed by an added one that looks like the name of a new file, ends
the hunk and begins another file.
-/

namespace Sift.Diff

/-- A file with its changes. -/
structure FilePatch where
  path : String
  hunks : List Hunk
  deriving DecidableEq, Repr

/-- A line of a patch. -/
inductive PatchLine where
  /-- The names of a file. -/
  | file (path : String)
  /-- The head of a hunk. -/
  | head (start : Int)
  /-- A line of a hunk. -/
  | body (line : Bytes)
  deriving DecidableEq, Repr

namespace PatchLine

/-- Whether a line of a hunk begins with some characters. -/
def begins (line : PatchLine) (lead : String) : Bool :=
  match line with
  | body line => (Utf8.ofString lead).isPrefixOf line
  | _ => false

/-- The name that a line of a hunk gives if it is taken for the name of a file. -/
def name (line : PatchLine) : String :=
  match line with
  | body line => Text.trim (Utf8.toString (line.drop 4))
  | _ => ""

end PatchLine

/-- What stands before the path of a file as it is after the patch. -/
def newSide : String := "b/"

/-- The lines of a file's patch. -/
def FilePatch.lines (patch : FilePatch) : List PatchLine :=
  .file (Text.trim (newSide ++ patch.path)) :: patch.hunks.flatMap fun hunk =>
    .head hunk.start :: hunk.lines.map .body

/-- What is being read. -/
inductive Reading where
  /-- Nothing of use. -/
  | nothing
  /-- A file, its hunks last first; the last one is open if `inHunk` says so. -/
  | file (path : String) (hunks : List Hunk) (inHunk : Bool)

namespace Reading

/-- The file being read, now that it ends. -/
def close : Reading → List FilePatch
  | nothing => []
  | file path hunks _ => [⟨path, (hunks.map fun hunk => ⟨hunk.start, hunk.lines.reverse⟩).reverse⟩]

/-- Reads the lines of patches. -/
def run (reading : Reading) : List PatchLine → List FilePatch
  | [] => reading.close
  | .file path :: rest => reading.close ++ run (.file path [] false) rest
  | .head start :: rest =>
    match reading with
    | nothing => run nothing rest
    | file path hunks _ => run (.file path (⟨start, []⟩ :: hunks) true) rest
  | .body line :: rest =>
    let old := PatchLine.body line
    let named := old.begins "--- " && rest.head?.any (·.begins "+++ ")
    let next := if named then file ((rest.head?.map (·.name)).getD "") [] false else nothing
    match reading with
    | file path (hunk :: hunks) true =>
      if old.begins "---" && rest.head?.any (·.begins "+++") then
        reading.close ++ run next (rest.drop named.toNat)
      else run (.file path ({ hunk with lines := line :: hunk.lines } :: hunks) true) rest
    | _ => reading.close ++ run next (rest.drop named.toNat)
termination_by lines => lines.length
decreasing_by all_goals simp only [List.length_cons, List.length_drop]; omega

end Reading

/-- The patches as they are read back. -/
def reread (patches : List FilePatch) : List FilePatch :=
  (Reading.nothing.run (patches.flatMap (·.lines))).map fun patch =>
    { patch with path := Text.dropLead patch.path newSide }

end Sift.Diff
