/-!
# Outcomes of commands

An error may carry the code with which the program ends. Errors can be wrapped in words; the code
shows through.
-/

namespace Sift

/-- An error of a command. -/
inductive Failure where
  | plain (text : String)
  /-- An error behind words. Nothing may stand behind them. -/
  | wrapped (text : String) (inner : Option Failure)
  /-- An error whose inner one is only told in words. -/
  | told (text : String) (inner : Option Failure)
  /-- An error that decides the code. -/
  | command (code : Int) (inner : Option Failure)

namespace Failure

/-- The code of a success. -/
def codeOk : Int := 0

/-- The code of an error that decides none. -/
def codeError : Int := 1

/-- The code of a run that found issues. -/
def codeIssuesFound : Int := 2

/-- An error in words. -/
def message : Failure → String
  | plain text => text
  | wrapped text none => text ++ ": %!w(<nil>)"
  | wrapped text (some inner) => text ++ ": " ++ inner.message
  | told text none => text ++ ": <nil>"
  | told text (some inner) => text ++ ": " ++ inner.message
  | command _ none => "command failed"
  | command _ (some inner) => inner.message

/-- The code that the outermost deciding error gives. -/
def code : Failure → Int
  | plain _ => codeError
  | wrapped _ none => codeError
  | wrapped _ (some inner) => inner.code
  | told _ _ => codeError
  | command code _ => code

end Failure

/-- The code of what may be an error. -/
def exitCode : Option Failure → Int
  | none => Failure.codeOk
  | some failure => failure.code

end Sift
