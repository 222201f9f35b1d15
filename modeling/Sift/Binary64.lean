/-!
# The nearest number in double precision

A number in double precision has 53 binary digits. Numbers here are fractions that are not
negative, far from where double precision ends.
-/

namespace Sift.Binary64

/-- The quotient rounded to the nearest whole number, a half to the even one. -/
def roundDiv (num den : Nat) : Nat :=
  let whole := num / den
  let rest := 2 * (num % den)
  if den < rest || (den == rest && whole % 2 == 1) then whole + 1 else whole

/-- How many binary places after the point keep 53 digits of a fraction; negative if some before the
point are lost. -/
def places (num den : Nat) : Int :=
  let guess : Int := 53 - ((num.log2 : Int) - den.log2)
  let digits := (num <<< guess.toNat) / (den <<< (-guess).toNat)
  if digits < 1 <<< 53 then guess else guess - 1

/-- The nearest number in double precision, as a fraction. -/
def nearest (num den : Nat) : Nat × Nat :=
  if num = 0 then (0, 1)
  else
    let places := places num den
    let digits := roundDiv (num <<< places.toNat) (den <<< (-places).toNat)
    (digits <<< (-places).toNat, 1 <<< places.toNat)

/-- The product of two fractions, rounded. -/
def product (a b : Nat × Nat) : Nat × Nat := nearest (a.1 * b.1) (a.2 * b.2)

end Sift.Binary64
