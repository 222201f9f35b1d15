import Sift.Cli.Surroundings
import Sift.FileSystem.Difference
import Sift.RunId

/-!
# The program

Reads what a run may look at, runs it, and carries out what it leaves behind. All decisions are taken
by the run itself.
-/

namespace Sift.Main

/-- Reads an entry with all below it. The packed commits of repositories are left out, and so is
whatever cannot be read. A link that leads nowhere gets a target that no entry can have. -/
partial def readEntry (entry : IO.FS.DirEntry) : IO Entry := do
  match (← entry.path.symlinkMetadata).type with
  | .file => return .file (← IO.FS.readBinFile entry.path).toList
  | .other => return .device
  | .symlink =>
    try return .link (← IO.FS.realPath entry.path).toString
    catch _ => return .link "\x00"
  | .dir =>
    let mut entries := []
    for below in ← entry.path.readDir do
      unless entry.fileName = ".git" && below.fileName = "objects" do
        try entries := Entry.insertChild below.fileName (← readEntry below) entries
        catch _ => pure ()
    return .dir entries

/-- Reads what is at a path into the tree, if anything is there. -/
def readPath (files : FileSystem) (path : String) : IO FileSystem := do
  let path := Path.clean (files.absolute path)
  try
    let entry ← readEntry { root := Path.dir path, fileName := Path.base path }
    return files.put (FileSystem.names path).reverse entry
  catch _ => return files

/-- Reads paths into a tree. -/
def readPaths (workingDir : String) (paths : List String) : IO FileSystem :=
  paths.foldlM readPath { root := .dir [], workingDir }

/-- Writes an entry with all below it. -/
partial def writeEntry (path : String) : Entry → IO Unit
  | .file content => IO.FS.writeBinFile path ⟨content.toArray⟩
  | .dir entries => do
    IO.FS.createDirAll path
    entries.forM fun (name, entry) => writeEntry (Path.join [path, name]) entry
  | _ => pure ()

/-- Carries out a change that a run has made to the tree. A run only ever puts things in place. -/
def carryOut : FileSystem.Change → IO Unit
  | .put path content => writeEntry path (.file content)
  | .putDir path entry => writeEntry path entry
  | _ => pure ()

/-- Prints at once. -/
def emit (output : String) : IO Unit := do
  IO.print output
  (← IO.getStdout).flush

/-- How long to wait before the files are looked at again, in milliseconds. -/
def pause : UInt32 := 100

/-- Looks at the files again and again, and follows what has changed. -/
partial def watch (paths : List String) (run : Cli.Watching) : IO Unit := do
  IO.sleep pause
  let before := run.workspace.files
  let files ← readPaths before.workingDir paths
  let mut run := run
  for change in FileSystem.Change.between "/" before.root files.root do
    let (output, next) := run.follow change
    emit (output.getD "")
    run := next
  watch paths run

end Sift.Main

open Sift in
/-- Runs the program with the words on the command line. -/
def main (words : List String) : IO UInt32 := do
  let env ← Cli.variableNames.filterMapM fun name => return (← IO.getEnv name).map (name, ·)
  let workingDir := (← IO.currentDir).toString
  let runId := RunId.ofBytes (← IO.getRandomBytes 16).toList
  let around := (Path.ancestors workingDir).map fun dir => Path.join [dir, ".git"]
  let paths := around ++ workingDir :: Cli.mentionedPaths env words
  let files ← Main.readPaths workingDir paths
  let rules := (Cli.configuredRules? ⟨.ofFiles files, env, runId⟩ words).toList
  let files ← rules.foldlM Main.readPath files
  match Cli.run ⟨.ofFiles files, env, runId⟩ words with
  | .ended ending =>
    Main.emit ending.output
    IO.eprint ending.errors
    (FileSystem.Change.between "/" files.root ending.files.root).forM Main.carryOut
    return ending.code.toNat.toUInt32
  | .watching output run =>
    Main.emit output
    Main.watch (paths ++ rules) run
    return 0
