import Sift.Language.Registry
import Sift.Path

/-!
# Languages of files

A language is found from the name of a file and from a content type the host may give. Rules name
languages in lower case; lists of them are compared after trimming, sorting and removing repeats.
-/

namespace Sift.Language

/-- The language of a file whose name tells nothing. -/
def unknown : String := "unknown"

/-- Extensions that are looked up first. -/
def knownExtensions : List (String × List String) :=
  [("c", [".c", ".h"]),
   ("cpp", [".cc", ".cpp", ".cxx", ".hpp", ".hh", ".hxx"]),
   ("csharp", [".cs", ".csx"]),
   ("vb", [".vb", ".vbs", ".bas"]),
   ("fsharp", [".fs", ".fsx", ".fsi"]),
   ("objective-c", [".m", ".mm"]),
   ("java", [".java"]), ("kotlin", [".kt", ".kts"]), ("scala", [".scala"]), ("groovy", [".groovy"]),
   ("javascript", [".js", ".jsx", ".mjs", ".cjs"]),
   ("typescript", [".ts", ".tsx"]),
   ("coffeescript", [".coffee"]), ("dart", [".dart"]),
   ("python", [".py", ".pyw"]),
   ("ruby", [".rb"]), ("php", [".php"]), ("perl", [".pl", ".pm"]), ("lua", [".lua"]), ("r", [".r"]),
   ("go", [".go"]), ("rust", [".rs"]), ("swift", [".swift"]),
   ("sql", [".sql"]), ("plsql", [".pks", ".pkb"]),
   ("powershell", [".ps1", ".psm1", ".psd1"]),
   ("shellscript", [".sh", ".bash", ".zsh", ".ksh"]),
   ("html", [".html", ".htm", ".cshtml", ".aspx"]),
   ("xml", [".xml", ".config", ".csproj", ".xaml", ".plist"]),
   ("json", [".json"]), ("yaml", [".yml", ".yaml"]), ("toml", [".toml"])]

/-- File names that are looked up first, in lower case. -/
def knownFileNames : List (String × String) :=
  [("dockerfile", "dockerfile"), ("makefile", "makefile"), ("gnumakefile", "makefile"),
   ("rakefile", "ruby"), ("gemfile", "ruby"), ("jenkinsfile", "groovy")]

/-- Names of the registry that rules spell otherwise. -/
def aliases : List (String × String) :=
  [("c#", "csharp"), ("c++", "cpp"), ("f#", "fsharp"), ("shell", "shellscript"),
   ("visual basic .net", "vb"), ("vba", "vb"), ("vbscript", "vb"),
   ("objective-c++", "objective-c"), ("plsql", "plsql"), ("tsql", "sql")]

/-- A name of the registry as rules spell it. -/
def ofRegistryName (name : String) : String :=
  let lower := Unicode.lowerString name
  (aliases.lookup lower).getD (lower.map fun c => if c = ' ' then '-' else c)

/-- The first rest of a name, from a dot on, that is a registered extension. -/
def registeredExtension? : List Char → Option (Option String)
  | [] => none
  | c :: rest =>
    if c = '.' then
      match extensionEntries.lookup (String.ofList (c :: rest)) with
      | some entry => some entry
      | none => registeredExtension? rest
    else registeredExtension? rest

/-- A language of the registry, unless it is plain text. -/
def registered? (name : Option String) : Option String :=
  match name with
  | some found => if found = "Text" then none else some (ofRegistryName found)
  | none => none

/-- The language of a file. -/
def ofFileName (fileName : String) : String :=
  let base := Path.base fileName
  if fileName = "" || base = "." || base = "/" then unknown
  else
    let lower := Unicode.lowerString base
    let extension := Unicode.lowerString (Path.extension base)
    let found :=
      knownFileNames.lookup lower
        <|> (knownExtensions.find? fun row => row.2.contains extension).map (·.1)
        <|> registered? (registeredExtension? lower.toList).join
        <|> registered? (fileNameEntries.lookup base)
    found.getD unknown

/-- Names that are passed over from the left, so that each stands once: those that are kept are moved to
the front of the array that is read. -/
structure Compaction where
  names : Array String
  /-- How many names are kept so far. -/
  kept : Nat

namespace Compaction

/-- Keeps the name at a place unless it repeats the one before it. -/
def read (pass : Compaction) (place : Nat) : Compaction :=
  match pass.names[place]? with
  | none => pass
  | some name =>
    if place = 0 || pass.names[place - 1]? ≠ some name then
      ⟨pass.names.setIfInBounds pass.kept name, pass.kept + 1⟩
    else pass

/-- The pass over the first names of an array. -/
def readAll (names : Array String) (count : Nat) : Compaction :=
  (List.range count).foldl read ⟨names, 0⟩

end Compaction

/-- Removes each string that repeats the one before it. -/
def dropRepeats (names : List String) : List String :=
  let pass := Compaction.readAll names.toArray names.length
  pass.names.toList.take pass.kept

/-- Names trimmed, in lower case, without blank ones, sorted, each once. -/
def normalize (names : List String) : List String :=
  dropRepeats (((names.map Text.normalize).filter (· ≠ "")).mergeSort (fun a b => a ≤ b))

/-- Languages of content types. -/
def knownContentTypes : List (String × List String) :=
  [("csharp", ["csharp"]), ("c/c++", ["cpp", "c"]), ("basic", ["vb"]), ("f#", ["fsharp"]),
   ("javascript", ["javascript"]), ("node.js", ["javascript"]), ("typescript", ["typescript"]),
   ("python", ["python"]), ("html", ["html"]), ("htmlx", ["html"]), ("razor", ["html", "csharp"]),
   ("xml", ["xml"]), ("xaml", ["xml"]), ("sql", ["sql"]), ("sql server tools", ["sql", "tsql"]),
   ("powershell", ["powershell"]), ("json", ["json"]), ("yaml", ["yaml"]), ("java", ["java"]),
   ("go", ["go"]), ("ruby", ["ruby"]), ("php", ["php"])]

/-- Finds languages from file names and content types. -/
structure Resolver where
  /-- Content types in lower case; the first entry for a type counts. -/
  contentTypes : List (String × List String) := knownContentTypes

namespace Resolver

/-- A resolver with more content types, which replace known ones of the same name. -/
def withExtra (extra : List (String × List String)) : Resolver :=
  ⟨(extra.map fun entry => (Unicode.lowerString entry.1, normalize entry.2)).reverse ++
    knownContentTypes⟩

/-- Appends a name that is not there yet. -/
def addNew (names : List String) (name : String) : List String :=
  if names.contains name then names else names ++ [name]

/-- The languages of a file: the one of its name, then those of its content type. -/
def resolve (resolver : Resolver) (contentType fileName : String) : List String :=
  ((resolver.contentTypes.lookup (Text.normalize contentType)).getD []).foldl addNew
    [ofFileName fileName]

end Resolver

end Sift.Language
