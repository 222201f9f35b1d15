import Sift.Repository
import Sift.Text.Blank

/-!
# Repositories on disk

What a repository's directory says about its head, its references and its origin. The commits
themselves are kept packed, and are not read here.
-/

namespace Sift

namespace Repository

/-- The text of a file below a directory. -/
def textBelow (dir : Entry) (names : List String) : String :=
  match dir.below? names with
  | some (.file content) => Utf8.toString content
  | _ => ""

/-- What is checked out, from the text that names it. -/
def headOf (text : String) : Head :=
  let text := Text.trim text
  if Text.startsWith text "ref: " then .reference (Text.trim (Text.dropLead text "ref: "))
  else .commit text

mutual

/-- The references in files of their own. -/
def looseReferences (name : String) : Entry → List (String × String)
  | .file content => [(name, Text.trim (Utf8.toString content))]
  | .dir entries => looseReferencesAll name entries
  | _ => []

/-- The references in the files of a directory. -/
def looseReferencesAll (name : String) : List (String × Entry) → List (String × String)
  | [] => []
  | (below, entry) :: rest =>
    looseReferences (name ++ "/" ++ below) entry ++ looseReferencesAll name rest

end

/-- The references that are listed together, a hash and a name on each line. -/
def packedReferences (text : String) : List (String × String) :=
  (Text.splitAt '\n' text).filterMap fun line =>
    match Text.splitAt ' ' (Text.trim line) with
    | [hash, name] => if Text.startsWith hash "#" then none else some (name, hash)
    | _ => none

/-- The origin's address: the last one in the settings' section on it. -/
def originOf (text : String) : Option String :=
  let step (state : Bool × Option String) (line : String) : Bool × Option String :=
    let line := Text.trim line
    if Text.startsWith line "[" then (line = "[remote \"origin\"]", state.2)
    else
      match state.1, Text.splitAt '=' line with
      | true, key :: value :: rest =>
        if Text.trim key = "url" then (true, some (Text.trim ("=".intercalate (value :: rest)))) else state
      | _, _ => state
  ((Text.splitAt '\n' text).foldl step (false, none)).2

/-- A repository from its directory. A reference with a file of its own counts before a listed one. -/
def ofFolder (dir : Entry) : Repository :=
  { references :=
      looseReferences "refs" ((dir.below? ["refs"]).getD (.dir [])) ++
        packedReferences (textBelow dir ["packed-refs"])
    head := headOf (textBelow dir ["HEAD"])
    origin := originOf (textBelow dir ["config"]) }

mutual

/-- The repositories below a directory, by the paths of their own directories. -/
def below (path : String) : Entry → List (String × Repository)
  | .dir entries => belowAll path entries
  | _ => []

/-- The repositories below the entries of a directory. -/
def belowAll (path : String) : List (String × Entry) → List (String × Repository)
  | [] => []
  | (name, entry) :: rest =>
    let here := path ++ "/" ++ name
    let found := if name = ".git" then [(here, ofFolder entry)] else below here entry
    found ++ belowAll path rest

end

end Repository

/-- The files together with all repositories among them. -/
def Workspace.ofFiles (files : FileSystem) : Workspace :=
  { files, repositories := Repository.below "" files.root }

end Sift
