import Sift.Repository

/-!
# Revisions

A revision names a commit: a reference or a hash, followed by steps to earlier commits.
-/

namespace Sift

/-- A step from one commit to another. -/
inductive RevisionStep where
  /-- Back by a number of commits. -/
  | back (count : Nat)
  /-- To the parent with a number; number zero is the commit itself. -/
  | parent (number : Nat)
  /-- What does not lead away from the commit. -/
  | stay
  deriving DecidableEq, Repr

/-- Why a revision names no commit. -/
inductive RevisionFault where
  | notFound
  /-- There is no commit that far back. -/
  | exhausted
  | invalid (reason : String)
  deriving DecidableEq, Repr

/-- A fault in words. -/
def RevisionFault.message : RevisionFault → String
  | notFound => "reference not found"
  | exhausted => "EOF"
  | invalid reason => "Revision invalid : " ++ reason

/-- A name, if there is one, and steps from what it names. -/
structure Revision where
  name : Option String := none
  steps : List RevisionStep := []
  deriving DecidableEq, Repr

namespace Revision

/-- Whether a character ends the name of a reference. -/
def endsName (c : Char) : Bool := c = '@' || c = ':' || c = '~' || c = '^'

/-- What is wrong with a name that goes on with a character; `read` is the name so far, reversed. -/
def charFault? (read : List Char) (c : Char) : Option String :=
  let last := read.head?
  if c = '\\' || c = '?' || c = '*' || c = '[' || Text.isBlank c || c.toNat < 32 || c.toNat = 127 then
    some ("must not contains \"" ++ String.singleton c ++ "\"")
  else if (c = '.' || c = '/') && read.isEmpty then
    some ("must not start with \"" ++ String.singleton c ++ "\"")
  else if c = '.' && last = some '/' then some "must not contains \"/.\""
  else if c = '.' && last = some '.' then some "must not contains \"..\""
  else if c = '/' && last = some '/' then some "must not contains consecutively \"/\""
  else if c = '/' && ".lock".toList.reverse.isPrefixOf read then some "cannot end with .lock"
  else none

/-- What is wrong with a name that ends here; `read` is the name reversed. -/
def endFault? (read : List Char) : Option String :=
  if read.head? = some '/' then some "must not end with \"/\""
  else if read.head? = some '.' then some "must not end with \".\""
  else if ".lock".toList.reverse.isPrefixOf read then some "cannot end with .lock"
  else none

/-- Reads a name; `read` is what is read of it, reversed. -/
def readName (read : List Char) : List Char → Except String (String × List Char)
  | [] =>
    match endFault? read with
    | some fault => .error fault
    | none => .ok (String.ofList read.reverse, [])
  | c :: rest =>
    if endsName c then
      match endFault? read with
      | some fault => .error fault
      | none => .ok (String.ofList read.reverse, c :: rest)
    else
      match charFault? read c with
      | some fault => .error fault
      | none => readName (c :: read) rest

/-- The digits at the front of some characters, as a number, and the rest. -/
def leadingNumber (cs : List Char) : Option Nat × List Char :=
  let digits := cs.takeWhile Char.isDigit
  (if digits.isEmpty then none else some (digits.foldl (fun n c => n * 10 + (c.toNat - 48)) 0),
    cs.drop digits.length)

/-- What stands between braces, and the rest. -/
def braced? (cs : List Char) : Option (String × List Char) :=
  match Text.cutChars '\x7d' cs with
  | some (inside, rest) => some (String.ofList inside, rest)
  | none => none

/-- The words for what kind of thing a revision names. -/
def kinds : List String := ["", "commit", "tree", "blob", "tag", "object"]

/-- Reads the steps of a revision; `fuel` bounds their number. -/
def readSteps : Nat → List Char → Except String (List RevisionStep)
  | _, [] => .ok []
  | 0, _ => .ok []
  | fuel + 1, '~' :: rest =>
    let (count, rest) := leadingNumber rest
    (readSteps fuel rest).map (.back (count.getD 1) :: ·)
  | fuel + 1, '^' :: '\x7b' :: rest =>
    match braced? rest with
    | none => .error "missing \"\x7d\" in ^\x7b<data>\x7d structure"
    | some (kind, rest) =>
      if kinds.contains kind then (readSteps fuel rest).map (.stay :: ·)
      else .error ("\"" ++ kind ++ "\" is not a valid revision suffix brace component")
  | fuel + 1, '^' :: rest =>
    let (number, rest) := leadingNumber rest
    let shown := toString (number.getD 1)
    if 2 < number.getD 1 then .error ("\"" ++ shown ++ "\" found must be 0, 1 or 2 after \"^\"")
    else (readSteps fuel rest).map (.parent (number.getD 1) :: ·)
  | fuel + 1, '@' :: '\x7b' :: rest =>
    match braced? rest with
    | none => .error "missing \"\x7d\" in @\x7b<data>\x7d structure"
    | some (_, rest) => (readSteps fuel rest).map (.stay :: ·)
  | _ + 1, ':' :: _ => .ok [.stay]
  | _ + 1, _ => .error "reference must be defined once at the beginning"

/-- Reads a revision. -/
def parse (text : String) : Except String Revision :=
  let steps (name : Option String) (rest : List Char) : Except String Revision :=
    match readSteps text.length rest with
    | .error fault => .error fault
    | .ok steps =>
      if name.isNone && steps.any (· ≠ .stay) then
        .error "\"~\" or \"^\" statement must have a reference defined at the beginning"
      else .ok ⟨name, steps⟩
  match text.toList with
  | [] => .ok {}
  | '@' :: '\x7b' :: rest => steps none ('@' :: '\x7b' :: rest)
  | '@' :: rest => steps (some "HEAD") rest
  | c :: rest =>
    if endsName c then steps none (c :: rest)
    else
      match readName [] (c :: rest) with
      | .error fault => .error fault
      | .ok (name, rest) => steps (some name) rest

end Revision

namespace Repository

/-- The places where a short name of a reference is looked for, in order. -/
def namePlaces (name : String) : List String :=
  [name, "refs/" ++ name, "refs/tags/" ++ name, "refs/heads/" ++ name, "refs/remotes/" ++ name,
    "refs/remotes/" ++ name ++ "/HEAD"]

/-- The commit that a name stands for: by its hash, or by the first place that knows the name. -/
def named? (repository : Repository) (name : String) : Option Commit :=
  let place := (namePlaces name).findSome? fun full =>
    if full = "HEAD" then repository.headHash?.map (·.2) else repository.references.lookup full
  repository.commit? name <|> place.bind repository.commit?

/-- The commit a number of steps back. -/
def back (repository : Repository) (commit : Commit) : Nat → Except RevisionFault Commit
  | 0 => .ok commit
  | count + 1 =>
    match commit.parent.bind repository.commit? with
    | some parent => repository.back parent count
    | none => .error .exhausted

/-- Follows steps from a commit. A commit has at most one parent. -/
def followSteps (repository : Repository) (commit : Commit) :
    List RevisionStep → Except RevisionFault Commit
  | [] => .ok commit
  | step :: rest =>
    let next := match step with
      | .back count => repository.back commit count
      | .parent number =>
        if number ≤ 1 then repository.back commit number else .error .exhausted
      | .stay => .ok commit
    match next with
    | .error fault => .error fault
    | .ok commit => repository.followSteps commit rest

/-- The commit that a revision names. -/
def resolve (repository : Repository) (text : String) : Except RevisionFault Commit :=
  match Revision.parse text with
  | .error reason => .error (.invalid reason)
  | .ok revision =>
    match revision.name.bind repository.named? with
    | none => .error .notFound
    | some commit => repository.followSteps commit revision.steps

end Repository

end Sift
