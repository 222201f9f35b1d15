import Sift.Analyzer
import Sift.Repository.Gate

/-!
# Sessions

A session analyses files time and again while the files change. What its gate has learnt about the
ignore files stays until the session is told that they may have changed.
-/

namespace Sift

/-- What decides which paths are ignored. -/
inductive Guard where
  /-- Nothing is. -/
  | none
  /-- The listed paths are. -/
  | listed (paths : List String)
  /-- The ignore files of repositories say. -/
  | ignoreFiles (gate : Gate)

namespace Guard

/-- Whether a path is ignored. -/
def ignores (guard : Guard) (workspace : Workspace) (path : String) : Bool :=
  match guard with
  | none => false
  | listed paths => paths.contains path
  | ignoreFiles gate => gate.ignores workspace path

/-- The guard after it was asked about paths. -/
def remember (guard : Guard) (workspace : Workspace) (paths : List String) : Guard :=
  match guard with
  | ignoreFiles gate => ignoreFiles (paths.foldl (·.remember workspace ·) gate)
  | other => other

/-- The guard without what it has learnt. -/
def forget : Guard → Guard
  | ignoreFiles gate => ignoreFiles gate.forget
  | other => other

end Guard

/-- An analyzer behind a guard. -/
structure Session where
  analyzer : Analyzer
  guard : Guard := .ignoreFiles {}

namespace Session

/-- The analyzer with the answers that the guard gives now. -/
def present (session : Session) (workspace : Workspace) : Analyzer :=
  { session.analyzer with gate := session.guard.ignores workspace }

/-- The session after its guard was asked about paths. -/
def asked (session : Session) (workspace : Workspace) (paths : List String) : Session :=
  if session.analyzer.options.useIgnoreFiles then
    { session with guard := session.guard.remember workspace paths }
  else session

/-- Analyses files and directories. -/
def paths (session : Session) (workspace : Workspace) (given : List String) : Analysis × Session :=
  let analyzer := session.present workspace
  (analyzer.paths workspace.files given,
    session.asked workspace (analyzer.askedBy workspace.files given))

/-- Analyses a single file. -/
def file (session : Session) (workspace : Workspace) (path : String) : FileResult × Session :=
  ((session.present workspace).file workspace.files path, session.asked workspace [path])

/-- Analyses a text that belongs to a file. -/
def text (session : Session) (workspace : Workspace) (path contentType : String) (content : Bytes)
    (line : Int) : List Issue × Session :=
  ((session.present workspace).text path contentType content line, session.asked workspace [path])

/-- Analyses the lines added between two revisions. -/
def between (session : Session) (workspace : Workspace) (path base head : String) :
    Except Analyzer.DiffFault (Analysis × Session) :=
  ((session.present workspace).between workspace path base head).map fun (analysis, paths) =>
    (analysis, session.asked workspace paths)

/-- The session once ignore files may have changed. -/
def forget (session : Session) : Session := { session with guard := session.guard.forget }

end Session

end Sift
