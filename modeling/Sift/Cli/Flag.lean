import Sift.Duration
import Sift.Text.CommaSeparated
import Sift.Text.Numeral

/-!
# Flags

A flag has a name and perhaps a letter, and takes values of some kind. A switch may stand alone;
every other flag needs a value.
-/

namespace Sift.Cli

/-- Kinds of values. -/
inductive FlagKind where
  | switch
  | text
  | number
  | duration
  /-- Texts, one for each time the flag is given. -/
  | texts
  /-- Texts, several at a time with commas between them. -/
  | list
  deriving DecidableEq, Repr

/-- How a kind of values is shown. -/
def FlagKind.shown : FlagKind → String
  | switch => ""
  | text => "string"
  | number => "int"
  | duration => "duration"
  | texts => "stringArray"
  | list => "strings"

/-- A flag. -/
structure Flag where
  name : String
  letter : Option Char := none
  kind : FlagKind
  usage : String
  /-- The usual value as it is shown, if it is. -/
  usual : String := ""

/-- A flag as messages name it. -/
def Flag.title (flag : Flag) : String :=
  match flag.letter with
  | some letter => "-" ++ letter.toString ++ ", --" ++ flag.name
  | none => "--" ++ flag.name

/-! ## Values -/

/-- Why a value is not of its kind. -/
inductive ValueFault where
  | notSwitch (value : String)
  | notNumber (value : String) (fault : Numeral.Fault)
  | notDuration (fault : Duration.Fault)
  | notList (fault : CommaSeparated.Fault)
  deriving DecidableEq, Repr

/-- A fault in words. -/
def ValueFault.message : ValueFault → String
  | notSwitch value => "strconv.ParseBool: parsing " ++ Text.quote value ++ ": invalid syntax"
  | notNumber value .malformed => "strconv.ParseInt: parsing " ++ Text.quote value ++ ": invalid syntax"
  | notNumber value .outOfRange =>
    "strconv.ParseInt: parsing " ++ Text.quote value ++ ": value out of range"
  | notDuration fault => fault.message
  | notList fault => fault.message

/-- The value of a switch. -/
def switchValue? (value : String) : Option Bool :=
  if ["1", "t", "T", "TRUE", "true", "True"].contains value then some true
  else if ["0", "f", "F", "FALSE", "false", "False"].contains value then some false
  else none

/-- Checks that a value is of a kind. -/
def FlagKind.check (kind : FlagKind) (value : String) : Except ValueFault Unit :=
  match kind with
  | switch => if (switchValue? value).isSome then .ok () else .error (.notSwitch value)
  | number => ((Numeral.int value.toList).mapError (.notNumber value)).map fun _ => ()
  | duration => ((Duration.parse value).mapError .notDuration).map fun _ => ()
  | list => ((CommaSeparated.parse value).mapError .notList).map fun _ => ()
  | text | texts => .ok ()

/-! ## How flags are shown -/

/-- The columns of a flag in front of its usage. -/
def Flag.lead (flag : Flag) : String :=
  let names :=
    match flag.letter with
    | some letter => "  -" ++ letter.toString ++ ", --" ++ flag.name
    | none => "      --" ++ flag.name
  if flag.kind = .switch then names else names ++ " " ++ flag.kind.shown

/-- The lines of flags, by name, with their usages below each other. -/
def flagLines (flags : List Flag) : List String :=
  let sorted := flags.mergeSort fun a b => a.name ≤ b.name
  let width := sorted.foldl (fun width flag => max width flag.lead.length) 0
  sorted.map fun flag =>
    flag.lead ++ String.ofList (List.replicate (width - flag.lead.length + 3) ' ') ++ flag.usage ++
      (if flag.usual = "" then "" else " (default " ++ flag.usual ++ ")")

end Sift.Cli
