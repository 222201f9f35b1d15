/-!
# Errors of pattern syntax
-/

namespace Sift.Pattern

/-- Why a pattern cannot be read. -/
inductive SyntaxError where
  | unterminatedComment
  | invalidRepeatCount
  | groupOutOfRange
  | unexpectedParen
  | missingParen
  | missingBrace
  | nestedRepeat
  | missingRepeatArgument
  | tooManyAlternates
  | unrecognizedGrouping (construct : String)
  | invalidGroupName
  | groupNumberZero
  | undefinedGroupNumber (number : Nat)
  | undefinedGroupName (name : String)
  | conditionCaptures
  | conditionComment
  | malformedReference (number : Nat)
  | undefinedReference (number : Nat)
  | escapeAtEnd
  | malformedProperty
  | incompleteProperty
  | unknownProperty (name : String)
  | unrecognizedEscape (c : Char)
  | missingControl
  | unrecognizedControl
  | tooFewHexDigits
  | hexTooLarge
  | malformedNameReference
  | classInRange (code : Nat)
  | unterminatedClass
  | subtractionNotLast
  | reversedRange (first last : Char)
  deriving DecidableEq, Repr

namespace SyntaxError

/-- What is wrong, in words. -/
def text : SyntaxError → String
  | unterminatedComment => "unterminated comment"
  | invalidRepeatCount => "invalid repeat count"
  | groupOutOfRange => "capture group number out of range"
  | unexpectedParen => "unexpected )"
  | missingParen => "missing closing )"
  | missingBrace => "missing closing \x7d"
  | nestedRepeat => "invalid nested repetition operator"
  | missingRepeatArgument => "missing argument to repetition operator"
  | tooManyAlternates => "too many | in (?()|)"
  | unrecognizedGrouping construct => "unrecognized grouping construct: (" ++ construct
  | invalidGroupName =>
    "invalid group name: group names must begin with a word character and have a matching terminator"
  | groupNumberZero => "capture number cannot be zero"
  | undefinedGroupNumber number => s!"reference to undefined group number {number}"
  | undefinedGroupName name => "reference to undefined group name " ++ name
  | conditionCaptures => "alternation conditions do not capture and cannot be named"
  | conditionComment => "alternation conditions cannot be comments"
  | malformedReference number => s!"(?({number}) ) malformed"
  | undefinedReference number => s!"(?({number}) ) reference to undefined group"
  | escapeAtEnd => "illegal \\ at end of pattern"
  | malformedProperty => "malformed \\p\x7bX\x7d character escape"
  | incompleteProperty => "incomplete \\p\x7bX\x7d character escape"
  | unknownProperty name => "unknown unicode category, script, or property '" ++ name ++ "'"
  | unrecognizedEscape c => "unrecognized escape sequence \\" ++ String.singleton c
  | missingControl => "missing control character"
  | unrecognizedControl => "unrecognized control character"
  | tooFewHexDigits => "insufficient hexadecimal digits"
  | hexTooLarge => "hex values may not be larger than 0x10FFFF"
  | malformedNameReference => "malformed \\k<...> named back reference"
  | classInRange code => s!"cannot include class \\{code} in character range"
  | unterminatedClass => "unterminated [] set"
  | subtractionNotLast => "a subtraction must be the last element in a character class"
  | reversedRange first last =>
    "[" ++ String.singleton first ++ "-" ++ String.singleton last ++ "] range in reverse order"

/-- The message for an error in `pattern`. -/
def message (pattern : String) (error : SyntaxError) : String :=
  "error parsing regexp: " ++ error.text ++ " in `" ++ pattern ++ "`"

end SyntaxError

end Sift.Pattern
