import Sift.Cli.Flag
import Sift.Text.Blank

/-!
# Arguments

The words behind a command are flags with their values, and arguments of their own. Flags may stand
anywhere up to a word of two hyphens. Several letters may stand behind one hyphen.
-/

namespace Sift.Cli

/-- What the words behind a command say. -/
structure Arguments where
  /-- The flags that are given, with their values. -/
  given : List (String × String) := []
  /-- The words that are no flags. -/
  words : List String := []

namespace Arguments

/-- The values that a flag is given. -/
def values (arguments : Arguments) (name : String) : List String :=
  (arguments.given.filter (·.1 = name)).map (·.2)

/-- The last value that a flag is given. -/
def last? (arguments : Arguments) (name : String) : Option String :=
  (arguments.values name).getLast?

/-- The text that a flag is given. -/
def text (arguments : Arguments) (name : String) : String := (arguments.last? name).getD ""

/-- Whether a switch is on. -/
def switch (arguments : Arguments) (name : String) : Bool :=
  ((arguments.last? name).bind switchValue?).getD false

/-- The number that a flag is given. -/
def number (arguments : Arguments) (name : String) : Int :=
  ((arguments.last? name).bind fun value => (Numeral.int value.toList).toOption).getD 0

/-- The length of time that a flag is given. -/
def duration? (arguments : Arguments) (name : String) : Option Duration :=
  (arguments.last? name).bind fun value => (Duration.parse value).toOption

/-- The texts that a flag is given in lists. -/
def list (arguments : Arguments) (name : String) : List String :=
  (arguments.values name).flatMap fun value => (CommaSeparated.parse value).toOption.getD []

end Arguments

/-- Why words cannot be read as arguments. -/
inductive ArgumentFault where
  | badForm (word : String)
  | unknownName (name : String)
  | unknownLetter (letter : Char) (letters : String)
  | missingValue (word : String)
  | missingLetterValue (letter : Char) (letters : String)
  | badValue (value title : String) (fault : ValueFault)

namespace ArgumentFault

/-- A letter in single quotes. -/
def quoted (letter : Char) : String :=
  let body := if letter = '"' then "\"" else if letter = '\'' then "\\'" else Text.quoteChar letter
  "'" ++ body ++ "'"

/-- A fault in words. -/
def message : ArgumentFault → String
  | badForm word => "bad flag syntax: " ++ word
  | unknownName name => "unknown flag: --" ++ name
  | unknownLetter letter letters =>
    "unknown shorthand flag: " ++ quoted letter ++ " in -" ++ letters
  | missingValue word => "flag needs an argument: " ++ word
  | missingLetterValue letter letters =>
    "flag needs an argument: " ++ quoted letter ++ " in -" ++ letters
  | badValue value title fault =>
    "invalid argument " ++ Text.quote value ++ " for " ++ Text.quote title ++ " flag: " ++ fault.message

end ArgumentFault

/-- Flags that a word gives, and whether the word after it is a value. -/
abbrev WordReading := List (String × String) × Bool

/-- A flag with a value, if the value is of its kind. -/
def giveValue (flag : Flag) (value : String) : Except ArgumentFault (String × String) :=
  match flag.kind.check value with
  | .ok _ => .ok (flag.name, value)
  | .error fault => .error (.badValue value flag.title fault)

/-- Reads a word with two hyphens in front; `body` is what follows them. -/
def readName (flags : List Flag) (body : List Char) (next : Option String) :
    Except ArgumentFault WordReading :=
  let word := "--" ++ String.ofList body
  if body.head?.all fun c => c = '-' || c = '=' then .error (.badForm word)
  else
    let name := String.ofList (body.takeWhile (· ≠ '='))
    match flags.find? (·.name = name) with
    | none => .error (.unknownName name)
    | some flag =>
      match body.dropWhile (· ≠ '='), next with
      | _ :: value, _ => (giveValue flag (String.ofList value)).map fun given => ([given], false)
      | [], next =>
        if flag.kind = .switch then .ok ([(flag.name, "true")], false)
        else
          match next with
          | some value => (giveValue flag value).map fun given => ([given], true)
          | none => .error (.missingValue word)

/-- The character that stands for the first byte of a letter. -/
def firstByte (c : Char) : Char :=
  Char.ofNat (((Utf8.ofString c.toString).head?.map (·.toNat)).getD 0)

/-- Reads the letters behind one hyphen. -/
def readLetters (flags : List Flag) (next : Option String) :
    List Char → Except ArgumentFault WordReading
  | [] => .ok ([], false)
  | c :: rest =>
    let letters := String.ofList (c :: rest)
    if Text.startsWith letters "test." then .ok ([], false)
    else
      match flags.find? (·.letter = some c) with
      | none => .error (.unknownLetter (firstByte c) letters)
      | some flag =>
        let single (value : List Char) : Except ArgumentFault WordReading :=
          (giveValue flag (String.ofList value)).map fun given => ([given], false)
        match rest with
        | '=' :: d :: value => single (d :: value)
        | _ =>
          if flag.kind = .switch then
            (readLetters flags next rest).map fun (given, used) => ((flag.name, "true") :: given, used)
          else if !rest.isEmpty then single rest
          else
            match next with
            | some value => (giveValue flag value).map fun given => ([given], true)
            | none => .error (.missingLetterValue c letters)

/-- Reads the words behind a command. -/
def readArguments (flags : List Flag) : List String → Except ArgumentFault Arguments
  | [] => .ok {}
  | word :: rest =>
    let goOn (reading : Except ArgumentFault WordReading) : Except ArgumentFault Arguments :=
      match reading with
      | .error fault => .error fault
      | .ok (given, used) =>
        (readArguments flags (rest.drop (if used then 1 else 0))).map fun later =>
          { later with given := given ++ later.given }
    match word.toList with
    | ['-', '-'] => .ok { words := rest }
    | '-' :: '-' :: body => goOn (readName flags body rest.head?)
    | '-' :: c :: letters => goOn (readLetters flags rest.head? (c :: letters))
    | _ => (readArguments flags rest).map fun later => { later with words := word :: later.words }
termination_by words => words.length
decreasing_by
  · rw [List.length_drop, List.length_cons]
    omega
  · exact Nat.lt_succ_self _

end Sift.Cli
