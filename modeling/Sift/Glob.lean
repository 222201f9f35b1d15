import Sift.Text.Blank

/-!
# Wildcards for paths

A star stands for any run of characters within a name, a question mark for one character, brackets
for one of a set, braces for one of the alternatives between their commas. Two stars that are a
whole name stand for any number of directories. A backslash takes the next character as it is.
-/

namespace Sift.Glob

/-- What follows the first character that is not escaped and equals `c`. -/
def afterUnescaped? (c : Char) : List Char → Option (List Char)
  | [] => none
  | '\\' :: _ :: rest => afterUnescaped? c rest
  | d :: rest => if d = c then some rest else afterUnescaped? c rest

/-- A character that a backslash may stand before. -/
def escaped? : List Char → Option (Char × List Char)
  | [] => none
  | '\\' :: c :: rest => some (c, rest)
  | c :: rest => some (c, rest)

/-- A character leaves less to read. -/
theorem escaped?_length {cs rest : List Char} {c : Char} (h : escaped? cs = some (c, rest)) :
    rest.length < cs.length := by
  unfold escaped? at h
  split at h <;> simp at h <;> simp only [← h.2, List.length_cons] <;> omega

/-- What a set says of a character and what follows the set, or `none` if the set is malformed.
`low` is the character a range may begin with. The first hit ends the search. -/
def setTail? (c : Char) (negated : Bool) (low : Option Char) (cs : List Char) :
    Option (Bool × List Char) :=
  let hit (after : List Char) := (afterUnescaped? ']' after).map fun rest => (!negated, rest)
  match cs with
  | [] => none
  | d :: rest =>
    if d = ']' then some (negated, rest)
    else if d = '-' && low.isSome && !rest.isEmpty && rest.head? ≠ some ']' then
      match _h : escaped? rest with
      | none => none
      | some (high, after) =>
        if low.any (· ≤ c) && c ≤ high then hit after else setTail? c negated none after
    else
      match _h : escaped? (d :: rest) with
      | none => none
      | some (e, after) => if c = e then hit after else setTail? c negated (some e) after
termination_by cs.length
decreasing_by
  · have := escaped?_length _h
    simp
    omega
  · exact escaped?_length _h

/-- A set without the sign that negates it, and whether it has one. -/
def negation (cs : List Char) : Bool × List Char :=
  if cs.head? = some '!' || cs.head? = some '^' then (true, cs.tail) else (false, cs)

/-- What a set, given from after its bracket, says of a character. -/
def set? (c : Char) (cs : List Char) : Option (Bool × List Char) :=
  let (negated, body) := negation cs
  if body.head? = some ']' then none else setTail? c negated none body

/-- The alternatives up to the closing brace and what follows it. `depth` counts the braces that
are open inside, `read` is the alternative being read, reversed. -/
def alternatives? (depth : Nat) (read : List Char) : List Char → Option (List (List Char) × List Char)
  | [] => none
  | '\\' :: c :: rest => alternatives? depth (c :: '\\' :: read) rest
  | '\x7b' :: rest => alternatives? (depth + 1) ('\x7b' :: read) rest
  | '\x7d' :: rest =>
    match depth with
    | 0 => some ([read.reverse], rest)
    | depth + 1 => alternatives? depth ('\x7d' :: read) rest
  | c :: rest =>
    if c = ',' && depth = 0 then
      (alternatives? 0 [] rest).map fun (others, rest) => (read.reverse :: others, rest)
    else alternatives? depth (c :: read) rest

/-- What follows a set, given from after its bracket, if it is closed and has a member. -/
def setRest? (cs : List Char) : Option (List Char) :=
  let body := (negation cs).2
  if body.isEmpty || body.head? = some ']' then none else afterUnescaped? ']' body

/-- What follows an unescaped character is shorter. -/
theorem afterUnescaped?_length {c : Char} {cs rest : List Char}
    (h : afterUnescaped? c cs = some rest) : rest.length < cs.length := by
  fun_induction afterUnescaped? c cs with
  | case1 => simp at h
  | case2 _ _ ih => have := ih h; simp; omega
  | case3 => simp_all
  | case4 d rest _ _ ih => have := ih h; simp; omega

/-- The sign that negates a set makes it no shorter. -/
theorem negation_length (cs : List Char) : (negation cs).2.length ≤ cs.length := by
  unfold negation
  split <;> simp

/-- What follows a set is shorter. -/
theorem setRest?_length {cs rest : List Char} (h : setRest? cs = some rest) :
    rest.length < cs.length := by
  have sign := negation_length cs
  simp only [setRest?] at h
  split at h
  · simp at h
  · have := afterUnescaped?_length h
    omega

/-- Whether a pattern is well formed: every backslash has a character to take, every set has a
member and is closed, and the braces are balanced; `depth` of them are open. -/
def isWellFormed (depth : Nat) (cs : List Char) : Bool :=
  match cs with
  | [] => depth = 0
  | '\\' :: [] => false
  | '\\' :: _ :: rest => isWellFormed depth rest
  | '[' :: rest =>
    match _h : setRest? rest with
    | none => false
    | some rest => isWellFormed depth rest
  | '\x7b' :: rest => isWellFormed (depth + 1) rest
  | '\x7d' :: rest => depth ≠ 0 && isWellFormed (depth - 1) rest
  | _ :: rest => isWellFormed depth rest
termination_by cs.length
decreasing_by
  all_goals simp
  all_goals try have := setRest?_length _h
  all_goals try omega

/-- The patterns that a pattern with a leading brace stands for, with what follows the brace. Those
after a malformed one are not looked at. -/
def expansions (body : List Char) : List (List Char) :=
  match alternatives? 0 [] body with
  | none => []
  | some (alternatives, rest) =>
    let all := alternatives.map (· ++ rest)
    let sound := all.takeWhile (isWellFormed 0)
    all.take (sound.length + 1)

/-- Whether a pattern stands for nothing at all. -/
def coversNothing (pattern : List Char) : Bool :=
  match pattern with
  | '\x7b' :: body =>
    (expansions body).any fun choice =>
      if _h : choice.length < body.length + 1 then coversNothing choice else false
  | _ => pattern = [] || pattern = ['*'] || pattern = ['*', '*'] || pattern = ['/', '*', '*']
termination_by pattern.length

mutual

/-- Whether a pattern stands for a path. `fresh` says that a name begins here. -/
def admits (fresh : Bool) (pattern path : List Char) : Bool :=
  match path with
  | [] => coversNothing pattern
  | c :: after =>
    match pattern with
    | [] => false
    | '*' :: '*' :: rest =>
      if fresh && rest.isEmpty then true
      else if fresh && rest.head? = some '/' then admitsBelow rest.tail (c :: after)
      else admitsRun rest (c :: after)
    | '*' :: rest => admitsRun rest (c :: after)
    | '?' :: rest => c ≠ '/' && admits false rest after
    | '[' :: rest =>
      match set? c rest with
      | some (true, tail) =>
        if _h : tail.length < rest.length + 1 then admits false tail after else false
      | _ => false
    | '\x7b' :: body =>
      (expansions body).any fun choice =>
        if _h : choice.length < body.length + 1 then admits true choice (c :: after) else false
    | '\\' :: d :: rest => c = d && admits (c = '/') rest after
    | ['\\'] => false
    | d :: rest => c = d && admits (c = '/') rest after
termination_by (pattern.length, path.length, 0)
decreasing_by
  all_goals apply Prod.Lex.left
  all_goals simp_all
  all_goals omega

/-- Whether a pattern stands for what is left of a path after some characters of a name. -/
def admitsRun (pattern path : List Char) : Bool :=
  admits false pattern path ||
    match path with
    | [] => false
    | c :: after => c ≠ '/' && admitsRun pattern after
termination_by (pattern.length, path.length, 1)

/-- Whether a pattern stands for what is left of a path after some of its directories. -/
def admitsBelow (pattern path : List Char) : Bool :=
  admits true pattern path || admitsLater pattern path
termination_by (pattern.length, path.length, 2)

/-- Whether a pattern stands for what follows some slash of a path. -/
def admitsLater (pattern path : List Char) : Bool :=
  match path with
  | [] => false
  | c :: after =>
    if c = '/' then admitsBelow pattern after else admitsLater pattern after
termination_by (pattern.length, path.length, 1)

end

/-- Whether a pattern is well formed. -/
def isValid (pattern : String) : Bool := isWellFormed 0 pattern.toList

/-- Whether a pattern stands for a path; a malformed one hardly ever does. -/
def matchesPath (pattern path : String) : Bool := admits true pattern.toList path.toList

end Sift.Glob
