/-!
# Capitals of the Latin alphabet

Two letters outside ASCII have a capital in it: the dotless i and the long s. Names in capitals are
compared after these have been taken care of; what has no capital in ASCII cannot be part of such a
name and stays as it is.
-/

namespace Sift.Unicode

/-- The capital of a letter, if it is in ASCII. -/
def asciiCapital (c : Char) : Char :=
  if c.toNat = 0x131 then 'I' else if c.toNat = 0x17F then 'S' else c.toUpper

/-- A string with the capitals that are in ASCII. -/
def asciiCapitals (s : String) : String := s.map asciiCapital

end Sift.Unicode
