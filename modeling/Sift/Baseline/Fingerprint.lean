import Sift.Digest
import Sift.Analysis

/-!
# Fingerprints of issues

A fingerprint is what is compared between two runs: the rule, the file, the lines, and a digest of
the text that was found.
-/

namespace Sift.Baseline

/-- What identifies an issue across runs. -/
structure Fingerprint where
  rule : String
  path : String
  first : Int
  last : Int
  /-- The digest of the text; empty if it is not known. -/
  digest : String
  deriving DecidableEq, Repr

/-- Text with every run of white space made one blank, and none around it. -/
def collapse (text : Bytes) : Bytes := [32].intercalate (Text.byteFields text)

/-- The digest of a text, which does not depend on its layout; empty for a blank text. -/
def matchDigest (text : Bytes) : String :=
  let collapsed := collapse text
  if collapsed.isEmpty then "" else Digest.sha256 collapsed

/-- How many line breaks a string holds. -/
def newlines (text : String) : Nat := text.toList.count '\n'

/-- The fingerprint of an issue in the file at `path`. -/
def Fingerprint.ofIssue (path : String) (issue : Issue) : Fingerprint :=
  { rule := issue.rule.id, path, first := issue.line
    last := (issue.lineNumber + .ofNat (newlines issue.text)).toInt
    digest := matchDigest (Utf8.ofString issue.text) }

end Sift.Baseline
