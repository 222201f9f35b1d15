import Sift.Text.Utf8
import Sift.Diff.Hunk

/-!
# Renamed files

A file that is gone and a new one are taken for one file under two names if they have the same
content, or nearly so. The likelier of several pairs is taken first.
-/

namespace Sift.Rename

/-- How alike two files have to be, out of a hundred. -/
def threshold : Nat := 60

/-- How many bytes of a line count as one piece. -/
def pieceLimit : Nat := 64

/-- How many characters two lists begin with alike. -/
abbrev common := @Diff.commonLength UInt8

/-- How alike two paths are, out of a hundred: half for the directories, from either end, and half
for the ends of the names. -/
def nameScore (a b : String) : Nat :=
  let split (path : String) : Bytes × Bytes :=
    let bytes := Utf8.ofString path
    let name := (bytes.reverse.takeWhile (· ≠ 47)).reverse
    (bytes.take (bytes.length - name.length), name)
  let (dirA, nameA) := split a
  let (dirB, nameB) := split b
  let dirMax := max dirA.length dirB.length
  let forward := if dirMax = 0 then 100 else common dirA dirB * 100 / dirMax
  let backward := if forward = 100 then 100 else common dirA.reverse dirB.reverse * 100 / dirMax
  let names := common nameA.reverse nameB.reverse * 100 / max nameA.length nameB.length
  ((forward + backward) * 25 + names * 50) / 100

/-- A piece of a file: its digest and how many bytes it has. -/
structure Piece where
  key : UInt32
  size : Nat
  deriving DecidableEq, Repr

/-- The key under which a digest is counted. -/
def Piece.keyOf (digest : UInt32) : UInt32 := (digest * 0x9e370001) >>> 1

/-- Cuts a file into lines, long lines into pieces. A carriage return before a newline does not
count. `read` bytes of the piece are read, `size` of them count, and `digest` is their digest. -/
def piecesFrom (binary : Bool) (read size : Nat) (digest : UInt32) : Bytes → List Piece
  | [] => if read = 0 then [] else [⟨Piece.keyOf digest, size⟩]
  | b :: rest =>
    if !binary && b = 13 && rest.head? = some 10 then piecesFrom binary (read + 1) size digest rest
    else if b = 10 then ⟨Piece.keyOf digest, size + 1⟩ :: piecesFrom binary 0 0 5381 rest
    else
      let digest := digest * 33 + b.toUInt32
      if pieceLimit ≤ read + 1 then ⟨Piece.keyOf digest, size + 1⟩ :: piecesFrom binary 0 0 5381 rest
      else piecesFrom binary (read + 1) (size + 1) digest rest

/-- The pieces of a file. -/
def pieces (content : Bytes) : List Piece := piecesFrom (Diff.isBinary content) 0 0 5381 content

/-- How many bytes there are under a key. -/
def weight (key : UInt32) (pieces : List Piece) : Nat :=
  ((pieces.filter (·.key = key)).map (·.size)).foldr (· + ·) 0

/-- How alike two contents are, out of ten thousand: the bytes in shared pieces against all bytes of
the larger one. -/
def contentScore (a b : Bytes) : Nat :=
  let piecesA := pieces a
  let piecesB := pieces b
  let total (pieces : List Piece) := (pieces.map (·.size)).foldr (· + ·) 0
  let whole := max (total piecesA) (total piecesB)
  if whole = 0 then 10000
  else
    let keys := (piecesA.map (·.key)).eraseDups
    let shared :=
      (keys.map fun key => min (weight key piecesA) (weight key piecesB)).foldr (· + ·) 0
    shared * 10000 / whole

/-- A file that is gone or new. -/
abbrev File := String × Bytes

/-- How alike two files are, out of a hundred, if they are alike enough. -/
def score? (old new : File) : Option Nat :=
  let sizeOld := old.2.length + 1
  let sizeNew := new.2.length + 1
  if min sizeOld sizeNew * 100 / max sizeOld sizeNew < threshold then none
  else
    let score := (contentScore old.2 new.2 * 99 + nameScore old.1 new.1 * 100) / 10000
    if score < threshold then none else some score

/-- A pair of an old and a new file, with how alike they are. -/
structure Pair where
  old : File
  new : File
  score : Nat

/-- Takes pairs in order, passing over those with a file that is taken already. -/
def take (taken : List Pair) : List Pair → List Pair
  | [] => taken
  | pair :: rest =>
    let clash := taken.any fun other => other.old.1 = pair.old.1 || other.new.1 = pair.new.1
    if clash then take taken rest else take (taken ++ [pair]) rest

/-- All pairs, those most alike first; of equals the later ones first. -/
def ranked (score? : File → File → Option Nat) (olds news : List File) : List Pair :=
  let all := news.flatMap fun new => olds.filterMap fun old =>
    (score? old new).map fun score => ⟨old, new, score⟩
  (all.mergeSort (fun a b => a.score ≤ b.score)).reverse

/-- Pairs of files with the same content. A new file that is alone in its content goes with any old
one; several new ones go with the old ones by their names, and with a single old one only if its
name is somewhat like theirs, the first of the likest. -/
def exact (olds news : List File) : List Pair :=
  let contents := (news.map (·.2)).eraseDups
  contents.flatMap fun content =>
    let olds := olds.filter (·.2 = content)
    let news := news.filter (·.2 = content)
    let single := olds.length = 1 && 1 < news.length
    let score (old new : File) : Option Nat :=
      let score := nameScore new.1 old.1
      if single && score = 0 then none else some score
    take [] (ranked score olds (if single then news.reverse else news))

/-- The pairs of old and new files that are one file renamed. -/
def pairs (olds news : List File) : List Pair :=
  let same := exact olds news
  let olds := olds.filter fun old => !same.any (·.old.1 = old.1)
  let news := news.filter fun new => !same.any (·.new.1 = new.1)
  same ++ take [] (ranked score? olds news)

end Sift.Rename
