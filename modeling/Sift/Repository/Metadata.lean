/-!
# What is known about a repository
-/

namespace Sift

/-- Where a repository is, and what it has checked out. -/
structure RepositoryInfo where
  /-- The top directory of the working tree. -/
  root : String := ""
  /-- The analysed path, from the root. -/
  subfolder : String := ""
  branch : Option String := none
  commit : Option String := none
  url : Option String := none
  deriving DecidableEq, Repr

end Sift
