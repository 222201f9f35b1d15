import Sift.RuleSet

/-!
# Rule files

Every file of a directory whose name ends in `.json` is a rule source. A file that cannot be used is
reported and the others are loaded all the same.
-/

namespace Sift.RuleSet

/-- The label of rules that users keep in a directory of their own. -/
def customLabel : String := "custom"

/-- Whether a name is that of a rule file. -/
def isRuleFileName (name : String) : Bool := Text.endsWith name ".json"

/-- Whether an entry of a directory is one itself, links followed. -/
def entryIsDir (fs : FileSystem) (path : String) : Entry → Bool
  | .dir _ => true
  | .link _ => fs.isDir path
  | _ => false

/-- A path below `dir`. -/
def under (dir name : String) : String := if dir = "." then name else dir ++ "/" ++ name

/-- The directories at and below `dir`, a path from `root`; links to directories are followed. -/
def directoriesBelow (fs : FileSystem) (root : String) : Nat → String → List String
  | 0, _ => []
  | fuel + 1, dir =>
    match fs.readDir (Path.join [root, dir]) with
    | .error _ => []
    | .ok entries =>
      dir :: entries.flatMap fun (name, entry) =>
        let path := under dir name
        if entryIsDir fs (Path.join [root, path]) entry then directoriesBelow fs root fuel path
        else []

/-- The rule files of one directory, by their paths from `root`. -/
def ruleFilesIn (fs : FileSystem) (root dir : String) : List String :=
  match fs.readDir (Path.join [root, dir]) with
  | .error _ => []
  | .ok entries =>
    entries.filterMap fun (name, entry) =>
      let path := under dir name
      if isRuleFileName name && !entryIsDir fs (Path.join [root, path]) entry then some path
      else none

/-- The rule files of a directory by ascending path from it. -/
def ruleFiles (fs : FileSystem) (root : String) (recursive : Bool) : List String :=
  let dirs := if recursive then directoriesBelow fs root FileSystem.depthLimit "." else ["."]
  (dirs.flatMap (ruleFilesIn fs root)).mergeSort (fun a b => a ≤ b)

/-- Loads a rule file. `shown` is how the directory is called in errors. -/
def loadFile (fs : FileSystem) (root shown label : String) (precedence : Precedence) (set : RuleSet)
    (name : String) : RuleSet × Option LoadReport :=
  match fs.readFile (Path.join [root, name]) with
  | .error error =>
    let fault := ReadFault.file { error with path := name }
    (set, some (.single (.unreadable (Path.join [shown, name]) fault)))
  | .ok content =>
    let (set, failure) := set.add content (label ++ ":" ++ name) precedence
    (set, failure.map LoadFailure.report)

/-- Loads rule files one after the other and adds what they report to what was collected. -/
def addFiles (fs : FileSystem) (root shown label : String) (precedence : Precedence) (set : RuleSet)
    (collected : List LoadReport) : List String → RuleSet × List LoadReport
  | [] => (set, collected)
  | name :: rest =>
    let (set, report) := loadFile fs root shown label precedence set name
    addFiles fs root shown label precedence set (LoadReport.collect collected report) rest

/-- Loads the rule files below a root, and gives back what they report. -/
def reportBelow (set : RuleSet) (fs : FileSystem) (root shown label : String)
    (precedence : Precedence := .first) : RuleSet × Option LoadReport :=
  let files := ruleFiles fs root set.recursive
  let (set, collected) := addFiles fs root shown label precedence set [] files
  (set, LoadReport.ofCollected? collected)

/-- Loads the rule files below a root. -/
def addBelow (set : RuleSet) (fs : FileSystem) (root shown label : String)
    (precedence : Precedence := .first) : RuleSet × Option LoadFailure :=
  let (set, report) := set.reportBelow fs root shown label precedence
  (set, report.map LoadReport.failure)

/-- Loads the rule files of a directory. -/
def addDirectory (set : RuleSet) (fs : FileSystem) (dir label : String)
    (precedence : Precedence := .first) : RuleSet × Option LoadFailure :=
  let refuse (fault : ReadFault) := (set, some (LoadFailure.several [.unreadable dir fault]))
  if dir = "" then refuse .directoryNotSet
  else
    match fs.stat dir with
    | .error error => refuse (.file error)
    | .ok (.dir _) => set.addBelow fs dir "." label precedence
    | .ok _ => refuse .notDirectory

/-- Whether a path names a place in a corpus: its names are all there is to it. -/
def isCorpusPath (path : String) : Bool :=
  path = "." || (Text.splitAt '/' path).all fun name => name ≠ "" && name ≠ "." && name ≠ ".."

/-- Loads the rule files of a corpus, given as a file system, below a root, and gives back what they
report. -/
def reportCorpus (set : RuleSet) (corpus : FileSystem) (root label : String)
    (precedence : Precedence := .first) : RuleSet × Option LoadReport :=
  if root ≠ "" && !isCorpusPath root then
    let refused := LoadReport.single (.unreadable root (.invalidRoot root))
    (set, some (.aggregate (LoadReport.collect [] (some refused))))
  else
    set.reportBelow corpus (Path.join ["/", root]) root label precedence

/-- Loads the rule files of a corpus below a root. -/
def addCorpus (set : RuleSet) (corpus : FileSystem) (root label : String)
    (precedence : Precedence := .first) : RuleSet × Option LoadFailure :=
  let (set, report) := set.reportCorpus corpus root label precedence
  (set, report.map LoadReport.failure)

end Sift.RuleSet
