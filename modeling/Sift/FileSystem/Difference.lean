import Sift.FileSystem.Change

/-!
# How two trees differ

From two states of a tree, the changes that lead from the first to the second: what is gone is
removed, and what is new or different is put in place.
-/

namespace Sift.FileSystem.Change

/-- Puts an entry in place. -/
def place (path : String) : Entry → Change
  | .file content => put path content
  | entry => putDir path entry

mutual

/-- The changes from an old entry at a path to a new one. -/
def between (path : String) (old : Entry) : Entry → List Change
  | .dir entries =>
    match old with
    | .dir before =>
      let gone := before.filter fun (name, _) => (entries.lookup name).isNone
      gone.map (fun (name, _) => remove (Path.join [path, name])) ++ betweenAll path before entries
    | _ => [remove path, putDir path (.dir entries)]
  | .file content =>
    match old with
    | .file before => if before = content then [] else [put path content]
    | .dir _ => [remove path, put path content]
    | _ => [put path content]
  | .link target =>
    match old with
    | .link before => if before = target then [] else [putDir path (.link target)]
    | _ => [remove path, putDir path (.link target)]
  | .device =>
    match old with
    | .device => []
    | _ => [remove path, putDir path .device]

/-- The changes to the new entries of a directory. -/
def betweenAll (path : String) (before : List (String × Entry)) :
    List (String × Entry) → List Change
  | [] => []
  | (name, entry) :: rest =>
    let below := Path.join [path, name]
    let changes :=
      match before.lookup name with
      | some old => between below old entry
      | none => [place below entry]
    changes ++ betweenAll path before rest

end

end Sift.FileSystem.Change
