import Sift.Text.Utf8
import Sift.Text.Blank

/-!
# Code and comments

A text is divided into code and comments by a table of markers. Quoted literals are passed over, so
that a marker inside one begins no comment. All offsets are in bytes.
-/

namespace Sift

/-- A comment: its first byte and the byte after its last one. -/
structure Region where
  start : Nat
  stop : Nat
  deriving DecidableEq, Repr

/-- The comments of a text in ascending order; everything else is code. -/
abbrev Segments := List Region

/-- The two kinds of text, as a set. -/
structure Kinds where
  code : Bool
  comment : Bool
  deriving DecidableEq, Repr

namespace Segments

/-- Searches the places from `low` to `high` by halves for the first region that ends behind an
offset. -/
def searchBetween (segments : Array Region) (offset : Nat) : Nat → Nat → Nat → Nat
  | 0, low, _ => low
  | fuel + 1, low, high =>
    if low < high then
      let middle := (low + high) / 2
      match segments[middle]? with
      | some region =>
        if offset < region.stop then searchBetween segments offset fuel low middle
        else searchBetween segments offset fuel (middle + 1) high
      | none => low
    else low

/-- The place of the first region that ends behind an offset. -/
def search (segments : Segments) (offset : Nat) : Nat :=
  searchBetween segments.toArray offset segments.length 0 segments.length

/-- Whether the byte at an offset belongs to a comment: the first region that ends behind it
decides. -/
def isComment (segments : Segments) (offset : Nat) : Bool :=
  match segments[search segments offset]? with
  | some region => region.start ≤ offset
  | none => false

/-- Whether the byte at an offset is of an allowed kind. What lies before the text is code. -/
def allowedAt (segments : Segments) (kinds : Kinds) (offset : Int) : Bool :=
  if 0 ≤ offset && segments.isComment offset.toNat then kinds.comment else kinds.code

end Segments

/-- The markers of a family of languages. -/
structure CommentSyntax where
  /-- What begins a comment that runs to the end of the line. -/
  line : List Bytes := []
  /-- What begins a block comment; blank if there are none. -/
  blockStart : Bytes := []
  blockEnd : Bytes := []
  /-- Bytes that open and close a literal. -/
  quotes : Bytes := []
  /-- Quotes whose literals may contain line breaks. -/
  multiline : Bytes := []
  deriving DecidableEq, Repr

namespace CommentSyntax

/-- The byte that ends a line. -/
def lineFeed : UInt8 := 10

/-- The byte that makes the next one count for nothing. -/
def backslash : UInt8 := 92

/-- The length of a literal after its opening quote, its closing quote included. A literal that is
not closed ends before the line break, or with the text. -/
def literalLength (quote : UInt8) (multiline : Bool) : Bytes → Nat
  | [] => 0
  | b :: rest =>
    if b = backslash then
      match rest with
      | [] => 1
      | _ :: rest' => literalLength quote multiline rest' + 2
    else if b = quote then 1
    else if b = lineFeed && !multiline then 0
    else literalLength quote multiline rest + 1

/-- The offset of the first occurrence of `part`. -/
def indexOf? (part : Bytes) : Bytes → Option Nat
  | [] => if part.isEmpty then some 0 else none
  | b :: rest => if part.isPrefixOf (b :: rest) then some 0 else (indexOf? part rest).map (· + 1)

/-- What is found at one place of a text: how many bytes it takes, and whether they are a
comment. -/
structure Found where
  length : Nat
  comment : Bool
  deriving DecidableEq, Repr

/-- Looks at the front of a text. Quotes come before block comments, and these before line
comments. -/
def look (syn : CommentSyntax) (text : Bytes) : Found :=
  match text with
  | [] => ⟨0, false⟩
  | b :: rest =>
    if syn.quotes.contains b then
      ⟨literalLength b (syn.multiline.contains b) rest + 1, false⟩
    else if !syn.blockStart.isEmpty && syn.blockStart.isPrefixOf text then
      match indexOf? syn.blockEnd (text.drop syn.blockStart.length) with
      | some inside => ⟨syn.blockStart.length + inside + syn.blockEnd.length, true⟩
      | none => ⟨text.length, true⟩
    else if syn.line.any fun marker => marker.isPrefixOf text then
      ⟨(indexOf? [lineFeed] text).getD text.length, true⟩
    else ⟨1, false⟩

/-- Where the scan of a text has come to. -/
structure Scanner where
  offset : Nat
  /-- The text from the offset on. -/
  rest : Bytes
  /-- The comments found so far, the last one first. -/
  comments : List Region
  deriving DecidableEq, Repr

/-- A scan that has not begun. -/
def Scanner.start (text : Bytes) : Scanner := ⟨0, text, []⟩

/-- One iteration of a scan: passes over what is found at its place, and notes it if it is a
comment. -/
def advance (syn : CommentSyntax) (scanner : Scanner) : Scanner :=
  let found := syn.look scanner.rest
  let stop := scanner.offset + found.length
  { offset := stop
    rest := scanner.rest.drop found.length
    comments :=
      if found.comment then ⟨scanner.offset, stop⟩ :: scanner.comments else scanner.comments }

/-- Advances to the end of the text. A scan that never comes there has no result. -/
def run (syn : CommentSyntax) (scanner : Scanner) : Option Segments :=
  if scanner.rest.isEmpty then some scanner.comments.reverse else syn |>.run (syn.advance scanner)
partial_fixpoint

/-- Runs a scan with its first iterations unrolled, so that a scan that ends in them can be
evaluated. -/
def runUnrolled (syn : CommentSyntax) : Nat → Scanner → Option Segments
  | 0, scanner => syn.run scanner
  | n + 1, scanner =>
    if scanner.rest.isEmpty then some scanner.comments.reverse
    else syn.runUnrolled n (syn.advance scanner)

/-- The comments of a text, if its scan comes to the end. -/
def segment? (syn : CommentSyntax) (text : Bytes) : Option Segments :=
  syn.runUnrolled (text.length + 1) (.start text)

/-- Markers given as strings. -/
def ofStrings (line : List String) (blockStart blockEnd quotes multiline : String) :
    CommentSyntax :=
  { line := line.map Utf8.ofString
    blockStart := Utf8.ofString blockStart
    blockEnd := Utf8.ofString blockEnd
    quotes := Utf8.ofString quotes
    multiline := Utf8.ofString multiline }

def cStyle : CommentSyntax := ofStrings ["//"] "/*" "*/" "\"'`" "`"
def php : CommentSyntax := ofStrings ["//", "#"] "/*" "*/" "\"'" ""
def hash : CommentSyntax := ofStrings ["#"] "" "" "\"'" ""
def powerShell : CommentSyntax := ofStrings ["#"] "<#" "#>" "\"'" ""
def sql : CommentSyntax := ofStrings ["--"] "/*" "*/" "'" ""
def lua : CommentSyntax := ofStrings ["--"] "--[[" "]]" "\"'" ""
def markup : CommentSyntax := ofStrings [] "<!--" "-->" "" ""
def basic : CommentSyntax := ofStrings ["'", "REM ", "Rem ", "rem "] "" "" "\"" ""

end CommentSyntax

/-- The comment syntax of each language; the first entry for a language counts. -/
structure SyntaxRegistry where
  entries : List (String × CommentSyntax)

namespace SyntaxRegistry

/-- Several languages with one syntax. -/
def family (syn : CommentSyntax) (languages : List String) : List (String × CommentSyntax) :=
  languages.map (·, syn)

/-- The languages known from the start. -/
def builtIn : SyntaxRegistry :=
  ⟨family .cStyle ["c", "cpp", "csharp", "java", "javascript", "typescript", "go", "rust", "swift",
      "kotlin", "scala", "objective-c", "groovy", "dart", "fsharp"] ++
    family .php ["php"] ++
    family .hash ["python", "ruby", "perl", "shellscript", "yaml", "r", "coffeescript", "dockerfile",
      "makefile", "toml"] ++
    family .powerShell ["powershell"] ++
    family .sql ["sql", "plsql", "tsql"] ++
    family .lua ["lua"] ++
    family .markup ["html", "xml"] ++
    family .basic ["vb"]⟩

/-- Gives a language a syntax in place of the one it has. -/
def register (registry : SyntaxRegistry) (language : String) (syn : CommentSyntax) :
    SyntaxRegistry :=
  ⟨(Unicode.lowerString language, syn) :: registry.entries⟩

/-- The syntax of the first language that has one. -/
def find? (registry : SyntaxRegistry) : List String → Option CommentSyntax
  | [] => none
  | language :: rest =>
    match registry.entries.lookup (Unicode.lowerString language) with
    | some syn => some syn
    | none => registry.find? rest

/-- The comments of a text in the given languages; all is code if none of them is known. Nothing is
computed after a scan that has no end. -/
def segment (registry : SyntaxRegistry) (text : Bytes) (languages : List String) : Segments :=
  match registry.find? languages with
  | some syn => (syn.segment? text).getD []
  | none => []

end SyntaxRegistry

end Sift
