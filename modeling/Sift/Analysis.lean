import Sift.Processor

/-!
# Results of an analysis

What an analysis says about each file: its issues, or why it was passed over, or what went wrong.
-/

namespace Sift

/-- Why a file was passed over. -/
inductive SkipReason where
  | ignored
  | excluded
  | binary
  | tooLarge
  deriving DecidableEq, Repr

/-- The reason in a word. -/
def SkipReason.text : SkipReason → String
  | ignored => "ignored"
  | excluded => "excluded"
  | binary => "binary"
  | tooLarge => "too-large"

/-- What could not be done with a file. -/
inductive FileFault where
  | access (path : String) (error : FileError)
  | read (path : String) (error : FileError)
  deriving DecidableEq, Repr

namespace FileFault

/-- A fault in words. -/
def message : FileFault → String
  | access path error => "failed to access " ++ Text.quote path ++ ": " ++ error.message
  | read path error => "failed to read " ++ Text.quote path ++ ": " ++ error.message

/-- The refusal behind a fault. -/
def error : FileFault → FileError
  | access _ error => error
  | read _ error => error

end FileFault

/-- What an analysis says about a file. -/
structure FileResult where
  path : String
  languages : List String := []
  issues : List Issue := []
  skipped : Option SkipReason := none
  fault : Option FileFault := none

/-- What an analysis says about all files. -/
structure Analysis where
  files : List FileResult := []

namespace Analysis

/-- All issues. -/
def issues (analysis : Analysis) : List Issue := analysis.files.flatMap (·.issues)

/-- All faults. -/
def faults (analysis : Analysis) : List FileFault := analysis.files.filterMap (·.fault)

end Analysis

end Sift
