import Sift.FileSystem.Change
import Sift.Processor
import Sift.Watch.Debounce

/-!
# Watching rule files

A watcher looks at the directory of custom rules, and at those below it if it is recursive. A change
that may concern rule files makes the rules be loaded anew after a quiet period.
-/

namespace Sift

/-- A directory that is looked at. -/
structure Watch where
  /-- Where it is. -/
  trail : List String
  /-- The path that it is known by. -/
  shown : String
  deriving DecidableEq, Repr

/-- Looks at directories. -/
structure Watcher where
  recursive : Bool
  watches : List Watch := []

namespace Watcher

open FileSystem (Notice Incident)

/-- Why a directory cannot be watched. -/
inductive Fault where
  | notSet
  | stat (path : String) (error : FileError)
  | notDirectory (path : String)
  deriving DecidableEq, Repr

/-- A fault in words. -/
def Fault.message : Fault → String
  | notSet => "custom rules path is not set"
  | stat path error => "unable to watch " ++ Text.quote path ++ ": " ++ error.message
  | notDirectory path => "unable to watch " ++ Text.quote path ++ ": not a directory"

/-! ## What is looked at -/

/-- Whether a name is hidden. -/
def isHidden (name : String) : Bool := Text.startsWith name "."

mutual

/-- A directory and those below it; hidden ones below it are left out. -/
def directories (trail : List String) (shown : String) : Entry → List Watch
  | .dir children => ⟨trail, shown⟩ :: directoriesOf trail shown children
  | _ => []

/-- The directories among the entries of one. -/
def directoriesOf (trail : List String) (shown : String) : List (String × Entry) → List Watch
  | [] => []
  | (name, entry) :: rest =>
    (if isHidden name then [] else directories (name :: trail) (Path.join [shown, name]) entry) ++
      directoriesOf trail shown rest

end

/-- The directories to look at for a path. -/
def found (recursive : Bool) (fs : FileSystem) (path : String) : List Watch :=
  match fs.locate (!recursive) path with
  | .ok ⟨trail, some entry⟩ =>
    let all := directories trail (Path.clean path) entry
    if recursive then all else all.take 1
  | _ => []

/-- Looks at a directory as well; one that is looked at already keeps its name. -/
def insert (watches : List Watch) (watch : Watch) : List Watch :=
  if watches.any (·.trail = watch.trail) then watches else watches ++ [watch]

/-- Looks at what is at a path. -/
def add (watcher : Watcher) (fs : FileSystem) (path : String) : Watcher :=
  { watcher with watches := (found watcher.recursive fs path).foldl insert watcher.watches }

/-- Begins to watch a directory. -/
def start (fs : FileSystem) (path : String) (recursive : Bool) : Except Fault Watcher :=
  if path = "" then .error .notSet
  else
    match fs.stat path with
    | .error error => .error (.stat path error)
    | .ok entry =>
      if entry.isDir then .ok (({ recursive } : Watcher).add fs path)
      else .error (.notDirectory path)

/-! ## What is seen -/

/-- Something that happened to a path. -/
structure Event where
  path : String
  /-- What happened to it; one event may tell of several incidents. -/
  incidents : List Incident
  deriving DecidableEq, Repr

/-- Whether an event tells of an incident. -/
def Event.has (event : Event) (incident : Incident) : Bool := event.incidents.contains incident

/-- The trail after something has moved. -/
def moveTrail (old new trail : List String) : List String :=
  if old.isSuffixOf trail then trail.take (trail.length - old.length) ++ new else trail

/-- What a watcher sees of a notice, and the watcher after it. -/
def see (watcher : Watcher) : Notice → List Event × Watcher
  | .entry dir name incident =>
    ((watcher.watches.filter (·.trail = dir)).map fun watch => ⟨watch.shown ++ "/" ++ name, [incident]⟩,
      watcher)
  | .gone dir =>
    let (own, others) := watcher.watches.partition (·.trail = dir)
    let unseen := own.filter fun watch => !watcher.watches.any (·.shown = Path.dir watch.shown)
    (unseen.map fun watch => ⟨watch.shown, [.removed]⟩, { watcher with watches := others })
  | .moved old new =>
    let (own, others) := watcher.watches.partition (·.trail = old)
    (own.map fun watch => ⟨watch.shown, [.renamed]⟩,
      { watcher with watches := others.map fun watch =>
          { watch with trail := moveTrail old new watch.trail } })

/-- Whether a path has the name of a rule file; case does not matter. -/
def isRulePath (path : String) : Bool := Unicode.equalFold (Path.extension path) ".json"

/-- Whether an event may concern rule files, and the watcher after it. What tells of permissions is
passed over unless something was written. New directories are looked at as well, and one that is gone
may have held rule files. -/
def judge (watcher : Watcher) (fs : FileSystem) (event : Event) : Bool × Watcher :=
  if event.has .chmod && !event.has .written then (false, watcher)
  else if isRulePath event.path then (true, watcher)
  else if event.has .created && watcher.recursive && fs.isDir event.path then
    (true, watcher.add fs event.path)
  else (watcher.recursive && (event.has .removed || event.has .renamed), watcher)

/-- Follows events: how many of them may concern rule files, and the watcher after them. -/
def judgeAll (fs : FileSystem) : List Event → Watcher → Nat × Watcher
  | [], watcher => (0, watcher)
  | event :: rest, watcher =>
    let (concerns, watcher) := watcher.judge fs event
    let (count, watcher) := judgeAll fs rest watcher
    (if concerns then count + 1 else count, watcher)

/-- Follows notices: how many events may concern rule files, and the watcher after them. -/
def follow (fs : FileSystem) : List Notice → Watcher → Nat × Watcher
  | [], watcher => (0, watcher)
  | notice :: rest, watcher =>
    let (events, watcher) := watcher.see notice
    let (here, watcher) := judgeAll fs events watcher
    let (later, watcher) := follow fs rest watcher
    (here + later, watcher)

end Watcher

/-! ## Loading rules anew -/

/-- Loads rules anew when they change. -/
structure Reloader where
  watcher : Watcher
  processor : Processor
  corpus : Option Corpus
  settings : Settings
  quiet : Watch.Debounce := {}
  /-- What went wrong when rules were loaded last. -/
  fault : Option LoadFailure := none

namespace Reloader

/-- Begins to watch the directory of custom rules. -/
def start (fs : FileSystem) (processor : Processor) (corpus : Option Corpus) (settings : Settings)
    (recursive : Bool) : Except Watcher.Fault Reloader :=
  (Watcher.start fs settings.customRulesPath recursive).map fun watcher =>
    { watcher, processor, corpus, settings }

/-- Loads the rules. -/
def reload (reloader : Reloader) (fs : FileSystem) : Reloader :=
  let (processor, fault) := reloader.processor.reload fs reloader.corpus reloader.watcher.recursive
    reloader.settings
  { reloader with processor, fault }

/-- Follows a change and the quiet period after it: the files, and whether rules were loaded. -/
def follow (reloader : Reloader) (fs : FileSystem) (change : FileSystem.Change) :
    FileSystem × Bool × Reloader :=
  let (fs, notices) := change.apply fs
  let (count, watcher) := reloader.watcher.follow fs notices
  let quiet := (reloader.quiet.changes count).expire
  if quiet.ticks then (fs, true, { reloader with watcher, quiet := quiet.take.resume }.reload fs)
  else (fs, false, { reloader with watcher, quiet })

end Reloader

end Sift
