import Sift.Remote
import Sift.Repository.Metadata

/-!
# Places in reports

Reports give paths from the top of the repository if it is known, and links to its host if a
revision is known too.
-/

namespace Sift

namespace Path

/-- `target` as seen from `root`, unless it lies outside. -/
def relativeTo (root target : String) : String :=
  if root = "" then clean target
  else
    match relative? root target with
    | none => clean target
    | some path => if path = ".." || Text.startsWith path "../" then clean target else path

end Path

/-- What it takes to place a file. -/
structure Locator where
  root : String := ""
  ref : String := ""
  remote : Option Remote := none
  /-- The directory that relative paths begin at. -/
  workingDir : String := "/"
  deriving DecidableEq, Repr

namespace Locator

/-- The locator for a repository. A remote that cannot be read gives no links. -/
def ofRepository (workingDir : String) : Option RepositoryInfo → Locator
  | none => { workingDir }
  | some info =>
    let url := info.url.getD ""
    { root := info.root
      ref := info.commit.getD ""
      remote := if url = "" then none else (Remote.parse url none).toOption
      workingDir }

/-- A file's path as reports give it. -/
def uri (locator : Locator) (path : String) : String :=
  if locator.root = "" then path
  else
    let full := if Path.isAbsolute path then Path.clean path
      else Path.join [locator.workingDir, path]
    Path.relativeTo locator.root full

/-- The link to lines of a file, if there is one. -/
def link (locator : Locator) (uri : String) (first last : Int) : String :=
  match locator.remote with
  | none => ""
  | some remote =>
    if locator.ref = "" || Path.isAbsolute uri then ""
    else ((remote.permalink locator.ref uri first last).toOption).getD ""

end Locator

end Sift
