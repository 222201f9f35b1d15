import Sift.Unicode.Ranges

/-!
# Lower-case counterparts of ranges

A class that ignores case is tested against text in lower case, so each of its ranges is joined by
the lower-case counterparts of the capitals in it. The table gives capitals in blocks that are
lowered alike.
-/

namespace Sift.Pattern

/-- How the capitals of a block are lowered. -/
inductive Lowering where
  /-- All to one code point. -/
  | fixed (code : Nat)
  /-- Each by the same distance. -/
  | shift (distance : Int)
  /-- Capitals are even, and the next odd code point is the small letter. -/
  | toOdd
  /-- Capitals are odd, and the next even code point is the small letter. -/
  | toEven

/-- The lowered code point. -/
def Lowering.apply (c : Nat) : Lowering → Nat
  | .fixed code => code
  | .shift distance => ((c : Int) + distance).toNat
  | .toOdd => if c % 2 = 0 then c + 1 else c
  | .toEven => c + c % 2

/-- Blocks of capitals: first, last, and how they are lowered. -/
def capitalBlocks : List (Nat × Nat × Lowering) := [
  (0x0041, 0x005A, .shift 32), (0x00C0, 0x00DE, .shift 32), (0x0100, 0x012E, .toOdd),
  (0x0130, 0x0130, .fixed 0x0069), (0x0132, 0x0136, .toOdd), (0x0139, 0x0147, .toEven),
  (0x014A, 0x0176, .toOdd), (0x0178, 0x0178, .fixed 0x00FF), (0x0179, 0x017D, .toEven),
  (0x0181, 0x0181, .fixed 0x0253), (0x0182, 0x0184, .toOdd), (0x0186, 0x0186, .fixed 0x0254),
  (0x0187, 0x0187, .fixed 0x0188), (0x0189, 0x018A, .shift 205), (0x018B, 0x018B, .fixed 0x018C),
  (0x018E, 0x018E, .fixed 0x01DD), (0x018F, 0x018F, .fixed 0x0259), (0x0190, 0x0190, .fixed 0x025B),
  (0x0191, 0x0191, .fixed 0x0192), (0x0193, 0x0193, .fixed 0x0260), (0x0194, 0x0194, .fixed 0x0263),
  (0x0196, 0x0196, .fixed 0x0269), (0x0197, 0x0197, .fixed 0x0268), (0x0198, 0x0198, .fixed 0x0199),
  (0x019C, 0x019C, .fixed 0x026F), (0x019D, 0x019D, .fixed 0x0272), (0x019F, 0x019F, .fixed 0x0275),
  (0x01A0, 0x01A4, .toOdd), (0x01A7, 0x01A7, .fixed 0x01A8), (0x01A9, 0x01A9, .fixed 0x0283),
  (0x01AC, 0x01AC, .fixed 0x01AD), (0x01AE, 0x01AE, .fixed 0x0288), (0x01AF, 0x01AF, .fixed 0x01B0),
  (0x01B1, 0x01B2, .shift 217), (0x01B3, 0x01B5, .toEven), (0x01B7, 0x01B7, .fixed 0x0292),
  (0x01B8, 0x01B8, .fixed 0x01B9), (0x01BC, 0x01BC, .fixed 0x01BD), (0x01C4, 0x01C5, .fixed 0x01C6),
  (0x01C7, 0x01C8, .fixed 0x01C9), (0x01CA, 0x01CB, .fixed 0x01CC), (0x01CD, 0x01DB, .toEven),
  (0x01DE, 0x01EE, .toOdd), (0x01F1, 0x01F2, .fixed 0x01F3), (0x01F4, 0x01F4, .fixed 0x01F5),
  (0x01FA, 0x0216, .toOdd), (0x0386, 0x0386, .fixed 0x03AC), (0x0388, 0x038A, .shift 37),
  (0x038C, 0x038C, .fixed 0x03CC), (0x038E, 0x038F, .shift 63), (0x0391, 0x03AB, .shift 32),
  (0x03E2, 0x03EE, .toOdd), (0x0401, 0x040F, .shift 80), (0x0410, 0x042F, .shift 32),
  (0x0460, 0x0480, .toOdd), (0x0490, 0x04BE, .toOdd), (0x04C1, 0x04C3, .toEven),
  (0x04C7, 0x04C7, .fixed 0x04C8), (0x04CB, 0x04CB, .fixed 0x04CC), (0x04D0, 0x04EA, .toOdd),
  (0x04EE, 0x04F4, .toOdd), (0x04F8, 0x04F8, .fixed 0x04F9), (0x0531, 0x0556, .shift 48),
  (0x10A0, 0x10C5, .shift 48), (0x1E00, 0x1EF8, .toOdd), (0x1F08, 0x1F0F, .shift (-8)),
  (0x1F18, 0x1F1F, .shift (-8)), (0x1F28, 0x1F2F, .shift (-8)), (0x1F38, 0x1F3F, .shift (-8)),
  (0x1F48, 0x1F4D, .shift (-8)), (0x1F59, 0x1F59, .fixed 0x1F51), (0x1F5B, 0x1F5B, .fixed 0x1F53),
  (0x1F5D, 0x1F5D, .fixed 0x1F55), (0x1F5F, 0x1F5F, .fixed 0x1F57), (0x1F68, 0x1F6F, .shift (-8)),
  (0x1F88, 0x1F8F, .shift (-8)), (0x1F98, 0x1F9F, .shift (-8)), (0x1FA8, 0x1FAF, .shift (-8)),
  (0x1FB8, 0x1FB9, .shift (-8)), (0x1FBA, 0x1FBB, .shift (-74)), (0x1FBC, 0x1FBC, .fixed 0x1FB3),
  (0x1FC8, 0x1FCB, .shift (-86)), (0x1FCC, 0x1FCC, .fixed 0x1FC3), (0x1FD8, 0x1FD9, .shift (-8)),
  (0x1FDA, 0x1FDB, .shift (-100)), (0x1FE8, 0x1FE9, .shift (-8)), (0x1FEA, 0x1FEB, .shift (-112)),
  (0x1FEC, 0x1FEC, .fixed 0x1FE5), (0x1FF8, 0x1FF9, .shift (-128)), (0x1FFA, 0x1FFB, .shift (-126)),
  (0x1FFC, 0x1FFC, .fixed 0x1FF3), (0x2160, 0x216F, .shift 16), (0x24B6, 0x24D0, .shift 26),
  (0xFF21, 0xFF3A, .shift 32)]

/-- The lower-case counterparts of the code points from `first` to `last` that lie outside. -/
def lowercaseCounterparts (first last : Nat) : Unicode.Ranges :=
  capitalBlocks.filterMap fun (blockFirst, blockLast, lowering) =>
    if blockLast < first || last < blockFirst then none
    else
      let low := lowering.apply (max blockFirst first)
      let high := lowering.apply (min blockLast last)
      if low < first || last < high then some (low, high) else none

end Sift.Pattern
