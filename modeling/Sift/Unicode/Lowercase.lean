import Sift.Unicode.Ranges

/-!
# Lower case

The simple lower-case mapping, one code point to one code point (Unicode 15.0).
-/

namespace Sift.Unicode

/-- Code points `first`, `first + step`, … up to `last`, each moved by `offset`. -/
structure CaseSpan where
  first : Nat
  last : Nat
  step : Nat
  offset : Int

/-- The spans, each as first, last, step and offset. -/
def lowercaseTable : List String := 
[
  "1t 2i 1 w 5c 5y 1 w 60 66 1 w 74 8e 2 1 8g 8g 1 -5j 8i 8m 2 1 8p 93 2 1 96 ae 2 1",
  "ag ag 1 -3d ah al 2 1 ap ap 1 5u aq as 2 1 au au 1 5q av av 1 1 ax ay 1 5p az az 1 1",
  "b2 b2 1 27 b3 b3 1 5m b4 b4 1 5n b5 b5 1 1 b7 b7 1 5p b8 b8 1 5r ba ba 1 5v bb bb 1 5t",
  "bc bc 1 1 bg bg 1 5v bh bh 1 5x bj bj 1 5y bk bo 2 1 bq bq 1 62 br br 1 1 bt bt 1 62",
  "bw bw 1 1 by by 1 62 bz bz 1 1 c1 c2 1 61 c3 c5 2 1 c7 c7 1 63 c8 c8 1 1 cc cc 1 1",
  "ck ck 1 2 cl cl 1 1 cn cn 1 2 co co 1 1 cq cq 1 2 cr d7 2 1 da dq 2 1 dt dt 1 2",
  "du dw 2 1 dy dy 1 -2p dz dz 1 -1k e0 f2 2 1 f4 f4 1 -3m f6 fm 2 1 fu fu 1 8bv fv fv 1 1",
  "fx fx 1 -4j fy fy 1 8bs g1 g1 1 1 g3 g3 1 -5f g4 g4 1 1x g5 g5 1 1z g6 ge 2 1 og oi 2 1",
  "om om 1 1 ov ov 1 38 p2 p2 1 12 p4 p6 1 11 p8 p8 1 1s pa pb 1 1r pd pt 1 w pv q3 1 w",
  "r3 r3 1 8 rc ry 2 1 s4 s4 1 -1o s7 s7 1 1 s9 s9 1 -7 sa sa 1 1 sd sf 1 -3m sg sv 1 28",
  "sw tr 1 w v4 w0 2 1 wa xq 2 1 xs xs 1 f xt y5 2 1 y8 10u 2 1 10x 11y 1 1c 3a8 3b9 1 5ls",
  "3bb 3bb 1 5ls 3bh 3bh 1 5ls 3vk 3xr 1 tzk 3xs 3xx 1 8 5n4 5oa 1 -2bk 5od 5of 1 -2bk",
  "5xc 61g 2 1 61q 61q 1 -5vj 61s 64e 2 1 64o 64v 1 -8 654 659 1 -8 65k 65r 1 -8",
  "660 667 1 -8 66g 66l 1 -8 66x 673 2 -8 67c 67j 1 -8 688 68f 1 -8 68o 68v 1 -8",
  "694 69b 1 -8 69k 69l 1 -8 69m 69n 1 -22 69o 69o 1 -9 6a0 6a3 1 -2e 6a4 6a4 1 -9",
  "6ag 6ah 1 -8 6ai 6aj 1 -2s 6aw 6ax 1 -8 6ay 6az 1 -34 6b0 6b0 1 -7 6bc 6bd 1 -3k",
  "6be 6bf 1 -3i 6bg 6bg 1 -9 6jq 6jq 1 -5st 6ju 6ju 1 -6gv 6jv 6jv 1 -6di 6k2 6k2 1 s",
  "6lc 6lr 1 g 6mb 6mb 1 1 792 79r 1 q 8ow 8q7 1 1c 8rk 8rk 1 1 8rm 8rm 1 -8af",
  "8rn 8rn 1 -2xy 8ro 8ro 1 -89z 8rr 8rv 2 1 8rx 8rx 1 -8bg 8ry 8ry 1 -8al 8rz 8rz 1 -8bj",
  "8s0 8s0 1 -8bi 8s2 8s2 1 1 8s5 8s5 1 1 8se 8sf 1 -8cf 8sg 8v6 2 1 8vf 8vh 2 1",
  "8vm 8vm 1 1 wu8 wvg 2 1 ww0 wwq 2 1 x0i x0u 2 1 x0y x2m 2 1 x2x x2z 2 1 x31 x31 1 -r9g",
  "x32 x3a 2 1 x3f x3f 1 1 x3h x3h 1 -wmg x3k x3m 2 1 x3q x48 2 1 x4a x4a 1 -wn8",
  "x4b x4b 1 -wnj x4c x4c 1 -wnf x4d x4d 1 -wn5 x4e x4e 1 -wn8 x4g x4g 1 -wlu",
  "x4h x4h 1 -wmi x4i x4i 1 -wlx x4j x4j 1 ps x4k x4y 2 1 x50 x50 1 -1c x51 x51 1 -wn7",
  "x52 x52 1 -raw x53 x55 2 1 x5c x5c 1 1 x5i x5k 2 1 x6d x6d 1 1 1ee9 1eey 1 w",
  "1fcw 1fdz 1 14 1fhs 1fir 1 14 1fn4 1fne 1 13 1fng 1fnu 1 13 1fnw 1fo2 1 13",
  "1fo4 1fo5 1 13 1h1c 1h2q 1 1s 1jfk 1jgf 1 w 20cg 20db 1 w 2olc 2om9 1 y"]

/-- Reads spans from their four numbers. -/
def caseSpansOfNumbers : List Int → List CaseSpan
  | first :: last :: step :: offset :: rest =>
    ⟨first.toNat, last.toNat, step.toNat, offset⟩ :: caseSpansOfNumbers rest
  | _ => []

/-- The spans of the lower-case mapping. -/
def lowercaseSpans : List CaseSpan :=
  caseSpansOfNumbers (lowercaseTable.flatMap fun line => readNumbers line.toList)

/-- The lower-case form of a code point. -/
def toLower (c : Nat) : Nat :=
  if c < 128 then
    if 65 ≤ c ∧ c ≤ 90 then c + 32 else c
  else
    match lowercaseSpans.find? fun span =>
        span.first ≤ c && c ≤ span.last && (c - span.first) % span.step == 0 with
    | some span => ((c : Int) + span.offset).toNat
    | none => c

/-- The lower-case form of a character. -/
def lowerChar (c : Char) : Char :=
  Char.ofNat (toLower c.toNat)

/-- A string with every character in lower case. -/
def lowerString (s : String) : String :=
  s.map lowerChar

end Sift.Unicode
