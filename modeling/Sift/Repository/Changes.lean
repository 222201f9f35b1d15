import Sift.Repository.Revision
import Sift.Repository.Rename
import Sift.Diff.Added

/-!
# Changes between commits

The lines that were added between two commits, file by file.
-/

namespace Sift

/-- Why there are no changes to look at. -/
inductive ChangeFault where
  | emptyRevision
  | repository (fault : RepositoryFault)
  | base (revision : String) (fault : RevisionFault)
  | head (revision : String) (fault : RevisionFault)
  deriving DecidableEq, Repr

/-- A fault in words. -/
def ChangeFault.message : ChangeFault → String
  | emptyRevision => "revision is required to compute diff"
  | repository fault => fault.message
  | base revision fault =>
    "failed to resolve base: failed to resolve revision " ++ Text.quote revision ++ ": " ++ fault.message
  | head revision fault =>
    "failed to resolve head: failed to resolve revision " ++ Text.quote revision ++ ": " ++ fault.message

/-- A file as it was, if it was there, and as it is. -/
structure FileChange where
  path : String
  old : Bytes
  new : Bytes
  deriving DecidableEq, Repr

/-- The files that are new or not as they were. A renamed file was there under its old name. -/
def FileChange.between (base head : List (String × Bytes)) : List FileChange :=
  let gone := base.filter fun (path, _) => (head.lookup path).isNone
  let fresh := head.filter fun (path, _) => (base.lookup path).isNone
  let renamed := Rename.pairs gone fresh
  let changes := head.filterMap fun (path, new) =>
    match base.lookup path with
    | some old => if old = new then none else some ⟨path, old, new⟩
    | none =>
      match renamed.find? (·.new.1 = path) with
      | some pair => some ⟨path, pair.old.2, new⟩
      | none => some ⟨path, [], new⟩
  changes.mergeSort (fun a b => a.path ≤ b.path)

/-- The patch for a changed file. -/
def FileChange.patch (change : FileChange) : Diff.FilePatch :=
  if Diff.isBinary change.old || Diff.isBinary change.new then ⟨change.path, []⟩
  else ⟨change.path, Diff.hunks change.old change.new⟩

/-- The lines added to each file, by ascending path; files without any are left out. -/
def addedLines (base head : List (String × Bytes)) : List (String × Diff.LineMap) :=
  let patches := Diff.reread ((FileChange.between base head).map (·.patch))
  let added := patches.filterMap fun patch =>
    if patch.added.isEmpty then none else some (patch.path, patch.added)
  added.mergeSort (fun a b => a.1 ≤ b.1)

namespace Workspace

/-- The lines added to each file between two revisions of the repository that a path belongs to. If
`only` names files, the others are left out. -/
def addedBetween (workspace : Workspace) (path base head : String) (only : List String) :
    Except ChangeFault (List (String × Diff.LineMap)) :=
  if base = "" || head = "" then .error .emptyRevision
  else
    match workspace.repositoryAt path with
    | .error fault => .error (.repository fault)
    | .ok (_, repository) =>
      match repository.resolve base with
      | .error fault => .error (.base base fault)
      | .ok old =>
        match repository.resolve head with
        | .error fault => .error (.head head fault)
        | .ok new =>
          let added := addedLines old.files new.files
          .ok (if only.isEmpty then added else added.filter fun (path, _) => only.contains path)

/-- The blocks of lines added to each file between two revisions. -/
def addedBlocks (workspace : Workspace) (path base head : String) (only : List String) :
    Except ChangeFault (List (String × List Diff.Block)) :=
  (workspace.addedBetween path base head only).map fun files =>
    files.map fun (path, added) => (path, Diff.blocks added)

end Workspace

end Sift
