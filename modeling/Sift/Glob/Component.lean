import Sift.Text.Blank

/-!
# Wildcards for a single name

A star stands for any run of characters, a question mark for one, brackets for one of a set, and a
backslash takes the next character as it is. No wildcard stands for a slash.
-/

namespace Sift.Glob.Component

/-- One part of a pattern. -/
inductive Part where
  /-- Any run of characters. -/
  | star
  /-- Any character. -/
  | any
  /-- One of the ranges, or none of them. -/
  | set (negated : Bool) (ranges : List (Char × Char))
  /-- The character itself. -/
  | char (c : Char)
  deriving DecidableEq, Repr

/-- A character of a set, which a backslash may stand before. -/
def setChar? : List Char → Option (Char × List Char)
  | '\\' :: c :: rest => if rest.isEmpty then none else some (c, rest)
  | c :: rest => if c = '\\' || c = '-' || c = ']' || rest.isEmpty then none else some (c, rest)
  | [] => none

/-- A character of a set leaves less to read. -/
theorem setChar?_length {cs rest : List Char} {c : Char} (h : setChar? cs = some (c, rest)) :
    rest.length < cs.length := by
  unfold setChar? at h
  split at h <;> simp at h <;> simp only [h.2.2.symm, List.length_cons] <;> omega

/-- The ranges of a set up to its closing bracket; `seen` holds those read, last first. -/
def ranges? (seen : List (Char × Char)) (cs : List Char) :
    Option (List (Char × Char) × List Char) :=
  if cs.head? = some ']' && !seen.isEmpty then some (seen.reverse, cs.tail)
  else
    match _h : setChar? cs with
    | none => none
    | some (low, rest) =>
      if rest.head? = some '-' then
        match _g : setChar? rest.tail with
        | none => none
        | some (high, rest) => ranges? ((low, high) :: seen) rest
      else ranges? ((low, low) :: seen) rest
termination_by cs.length
decreasing_by
  · have low := setChar?_length _h
    have high := setChar?_length _g
    simp at high
    omega
  · exact setChar?_length _h

/-- The parts of a pattern, or `none` if it is malformed. `fuel` bounds their number. -/
def parse? : Nat → List Char → Option (List Part)
  | _, [] => some []
  | 0, _ => none
  | fuel + 1, '*' :: rest => (parse? fuel rest).map (.star :: ·)
  | fuel + 1, '?' :: rest => (parse? fuel rest).map (.any :: ·)
  | fuel + 1, '[' :: rest => do
    let (negated, body) := match rest with
      | '^' :: body => (true, body)
      | _ => (false, rest)
    let (ranges, rest) ← ranges? [] body
    (parse? fuel rest).map (.set negated ranges :: ·)
  | fuel + 1, '\\' :: rest =>
    match rest with
    | [] => none
    | c :: rest => (parse? fuel rest).map (.char c :: ·)
  | fuel + 1, c :: rest => (parse? fuel rest).map (.char c :: ·)

/-- Whether a part that stands for one character stands for `c`. -/
def Part.admits (c : Char) : Part → Bool
  | star => false
  | any => c ≠ '/'
  | set negated ranges => (ranges.any fun (low, high) => low ≤ c && c ≤ high) != negated
  | char d => c = d

/-- Whether parts stand for a whole name. -/
def admits : List Part → List Char → Bool
  | [], name => name.isEmpty
  | .star :: parts, [] => admits parts []
  | .star :: parts, c :: name => admits parts (c :: name) || (c ≠ '/' && admits (.star :: parts) name)
  | _ :: _, [] => false
  | part :: parts, c :: name => part.admits c && admits parts name
termination_by parts name => parts.length + name.length

end Sift.Glob.Component

namespace Sift.Glob

/-- Whether a pattern stands for a name; a malformed one stands for none. -/
def matchesName (pattern name : String) : Bool :=
  match Component.parse? pattern.length pattern.toList with
  | some parts => Component.admits parts name.toList
  | none => false

end Sift.Glob
