import Sift.Analysis
import Sift.FileSystem.Output
import Sift.Glob
import Sift.Language
import Sift.Report.Locator
import Sift.Repository.Changes

/-!
# Analysing files

An analyzer looks at single files, at whole directories, or at the lines that were added between
two revisions. Files that a gate ignores, that a pattern excludes, that are binary or too large are
passed over.
-/

namespace Sift

/-- What an analyzer is to pass over. -/
structure AnalyzerOptions where
  /-- The largest file to look at; zero for no limit. -/
  maxFileSize : Int := 0
  /-- Patterns for paths to pass over. -/
  exclude : List String := []
  /-- Whether to pass over what the gate ignores. -/
  useIgnoreFiles : Bool := false

/-- A processor with what it takes to find files for it. -/
structure Analyzer where
  processor : Processor
  resolver : Language.Resolver := {}
  options : AnalyzerOptions := {}
  /-- Which paths the gate in front ignores. -/
  gate : String → Bool := fun _ => false

namespace Analyzer

/-- Whether a path is ignored. -/
def ignored (analyzer : Analyzer) (path : String) : Bool :=
  analyzer.options.useIgnoreFiles && analyzer.gate path

/-- The part of a path after its last slash. -/
def lastName (path : String) : String := String.ofList (Path.afterLastSlash path.toList)

/-- Whether a pattern excludes a path. One without a slash also looks at the last name alone. -/
def excludes (pattern path : String) : Bool :=
  Glob.matchesPath pattern path ||
    (!Text.contains pattern "/" && Glob.matchesPath pattern (lastName path))

/-- Whether a path is excluded. -/
def excluded (analyzer : Analyzer) (path : String) : Bool :=
  analyzer.options.exclude.any (excludes · path)

/-- Why a path is passed over before it is read; `shown` is the path that patterns see. -/
def skip? (analyzer : Analyzer) (path shown : String) : Option SkipReason :=
  if analyzer.ignored path then some .ignored
  else if analyzer.excluded shown then some .excluded
  else none

/-- Analyses a text; its first line has the given number. -/
def issuesIn (analyzer : Analyzer) (text : Bytes) (languages : List String) (line : Int) :
    List Issue :=
  (analyzer.processor.analyze text languages line).1

/-- Analyses a text that belongs to a file. -/
def text (analyzer : Analyzer) (path contentType : String) (text : Bytes) (line : Int) :
    List Issue :=
  if analyzer.ignored path then []
  else analyzer.issuesIn text (analyzer.resolver.resolve contentType path) line

/-- The size of what a path leads to; that of a directory is no concern of ours. -/
def sizeOf (entry : Entry) : Nat :=
  match entry with
  | .file content => content.length
  | _ => 0

/-- Analyses a file that is not passed over. -/
def candidate (analyzer : Analyzer) (files : FileSystem) (path : String)
    (refuses : Refusals := .nothing) : FileResult :=
  match refuses.attempt "stat" path (files.stat path) with
  | .error error => { path, fault := some (.access path error) }
  | .ok entry =>
    let limit := analyzer.options.maxFileSize
    if 0 < limit && limit < sizeOf entry then { path, skipped := some .tooLarge }
    else
      match refuses.attempt "open" path (files.readFile path) with
      | .error error => { path, fault := some (.read path error) }
      | .ok content =>
        if FileSystem.looksBinary content then { path, skipped := some .binary }
        else
          let languages := analyzer.resolver.resolve "" path
          { path, languages, issues := analyzer.issuesIn content languages 1 }

/-- Analyses a single file. -/
def file (analyzer : Analyzer) (files : FileSystem) (path : String) (refuses : Refusals := .nothing) :
    FileResult :=
  match analyzer.skip? path (Path.clean path) with
  | some reason => { path, skipped := some reason }
  | none => analyzer.candidate files path refuses

/-! ## Directories -/

/-- What comes of an entry of a directory. -/
inductive Visit where
  /-- The gate and the patterns let it pass: a file to analyse. -/
  | found (path : String)
  /-- A directory that is looked into. -/
  | entered (path : String)
  /-- Passed over. -/
  | passed (path : String)
  /-- A directory that cannot be read. -/
  | unread (path : String) (error : FileError)
  deriving DecidableEq, Repr

/-- The path of an entry. -/
def Visit.path : Visit → String
  | found path => path
  | entered path => path
  | passed path => path
  | unread path _ => path

/-- The files to analyse. -/
def Visit.found? : Visit → Option String
  | found path => some path
  | _ => none

/-- What is reported of a directory that cannot be read. -/
def Visit.failed? : Visit → Option FileResult
  | unread path error => some { path, fault := some (.access path error) }
  | _ => none

/-- The entry `name` of the directory `dir`. -/
def child (dir name : String) : String := Path.join [dir, name]

/-- Looks at a directory, where `below` comes of reading it. A repository's own directory is not
even asked about. -/
def visitDir (analyzer : Analyzer) (root path name : String) (below : Except FileError (List Visit)) :
    List Visit :=
  if name = ".git" then []
  else if (analyzer.skip? path (Path.relativeTo root path)).isSome then [.passed path]
  else
    match below with
    | .ok visits => .entered path :: visits
    | .error error => [.unread path error]

mutual

/-- Visits what is below a directory, in the order of names. `root` is where the walk began. -/
def visitAll (analyzer : Analyzer) (refuses : Refusals) (root dir : String) :
    List (String × Entry) → List Visit
  | [] => []
  | (name, entry) :: rest =>
    visit analyzer refuses root (child dir name) name entry ++ visitAll analyzer refuses root dir rest

/-- Visits an entry. Links and devices are not looked at. -/
def visit (analyzer : Analyzer) (refuses : Refusals) (root path name : String) : Entry → List Visit
  | .file _ =>
    [if (analyzer.skip? path (Path.relativeTo root path)).isSome then .passed path else .found path]
  | .dir entries =>
    visitDir analyzer root path name
      (refuses.attempt "open" path (.ok (visitAll analyzer refuses root path entries)))
  | .link _ => []
  | .device => []

end

/-- Visits an entry of the directory that a walk begins at. The path of that directory is taken as
it was given, and the paths of its entries are clean: with double dots behind a link they may lead
elsewhere, so a directory is looked up by its own path. Further down the two agree. -/
def visitFirst (analyzer : Analyzer) (files : FileSystem) (refuses : Refusals)
    (root path name : String) : Entry → List Visit
  | .dir _ =>
    analyzer.visitDir root path name
      (refuses.attempt "open" path ((files.readDir path).map (analyzer.visitAll refuses root path)))
  | entry => analyzer.visit refuses root path name entry

/-- Walks the directory `root`. -/
def walk (analyzer : Analyzer) (files : FileSystem) (refuses : Refusals) (root : String)
    (entries : List (String × Entry)) : List Visit :=
  entries.flatMap fun (name, entry) =>
    analyzer.visitFirst files refuses root (child root name) name entry

/-- What a path that was asked for comes to. -/
inductive Argument where
  | failed (result : FileResult)
  | single (path : String) (reason : Option SkipReason)
  | walked (visits : List Visit)

/-- Looks at a path that was asked for. A link to a directory is not walked. -/
def argument (analyzer : Analyzer) (files : FileSystem) (refuses : Refusals) (path : String) :
    Argument :=
  match refuses.attempt "stat" path (files.stat path) with
  | .error error => .failed { path, fault := some (.access path error) }
  | .ok (.dir _) =>
    match refuses.attempt "lstat" path (files.lstat path) with
    | .error error => .failed { path, fault := some (.access path error) }
    | .ok (.dir entries) =>
      match refuses.attempt "open" path (.ok (analyzer.walk files refuses path entries)) with
      | .error error => .failed { path, fault := some (.access path error) }
      | .ok visits => .walked visits
    | .ok _ => .walked []
  | .ok _ => .single path (analyzer.skip? path (Path.clean path))

/-- The results that are settled without reading a file. -/
def Argument.settled : Argument → List FileResult
  | failed result => [result]
  | single path (some reason) => [{ path, skipped := some reason }]
  | single _ none => []
  | walked visits => visits.filterMap (·.failed?)

/-- The files that are left to analyse. -/
def Argument.candidates : Argument → List String
  | single path none => [path]
  | walked visits => visits.filterMap (·.found?)
  | _ => []

/-- The paths that the gate was asked about. -/
def Argument.asked : Argument → List String
  | failed _ => []
  | single path _ => [path]
  | walked visits => visits.map (·.path)

/-- Analyses files and directories. The results come by ascending path; of equal paths those that
are settled without reading come first. -/
def paths (analyzer : Analyzer) (files : FileSystem) (given : List String)
    (refuses : Refusals := .nothing) : Analysis :=
  let arguments := given.map (analyzer.argument files refuses)
  let results := arguments.flatMap (·.settled) ++
    (arguments.flatMap (·.candidates)).map (analyzer.candidate files · refuses)
  ⟨results.mergeSort (fun a b => a.path ≤ b.path)⟩

/-- The paths that the gate is asked about in an analysis of files and directories. -/
def askedBy (analyzer : Analyzer) (files : FileSystem) (given : List String)
    (refuses : Refusals := .nothing) : List String :=
  (given.map (analyzer.argument files refuses)).flatMap (·.asked)

/-! ## Added lines -/

/-- Why the lines added between two revisions cannot be analysed. -/
inductive DiffFault where
  | locate (fault : RepositoryFault)
  | collect (fault : ChangeFault)
  deriving DecidableEq, Repr

/-- A fault in words. -/
def DiffFault.message : DiffFault → String
  | locate fault => "failed to locate repository: " ++ fault.message
  | collect fault => "failed to collect added lines: " ++ fault.message

/-- The issues of blocks of added lines, or `none` if one of the blocks is binary. -/
def blockIssues (analyzer : Analyzer) (languages : List String) : List Diff.Block → Option (List Issue)
  | [] => some []
  | block :: rest =>
    if FileSystem.looksBinary block.text then none
    else (blockIssues analyzer languages rest).map
      (analyzer.issuesIn block.text languages block.start ++ ·)

/-- Analyses the lines added to a file, whose path is given from the root. -/
def added (analyzer : Analyzer) (root : String) (file : String × List Diff.Block) : FileResult :=
  let path := Path.join [root, file.1]
  match analyzer.skip? path file.1 with
  | some reason => { path, skipped := some reason }
  | none =>
    let languages := analyzer.resolver.resolve "" file.1
    match blockIssues analyzer languages file.2 with
    | none => { path, languages, skipped := some .binary }
    | some issues => { path, languages, issues }

/-- Analyses the lines added between two revisions of the repository that a path belongs to. Lines
have their numbers in the later revision. The result says which paths the gate was asked about. -/
def between (analyzer : Analyzer) (workspace : Workspace) (path base head : String) :
    Except DiffFault (Analysis × List String) :=
  match workspace.rootAt path with
  | .error fault => .error (.locate fault)
  | .ok root =>
    match workspace.addedBlocks root base head [] with
    | .error fault => .error (.collect fault)
    | .ok files =>
      .ok (⟨files.map (analyzer.added root)⟩, files.map fun (path, _) => Path.join [root, path])

end Analyzer

end Sift
