/-!
# Nearest binary64 number

A quotient of natural numbers read as a floating-point number of the
64-bit binary format: the nearest representable value, a tie going to the
even mantissa, and infinity from half a unit above the greatest finite
value on. Everything is exact integer arithmetic; no intermediate rounding
takes place.

The result is the bit pattern. With `e` the exponent of the last bit of the
mantissa and `q` the mantissa as an integer, the pattern is
`(e + 1074) * 2 ^ 52 + q` for normal and subnormal values alike, and stays
right when rounding carries `q` to the next power of two.
-/

namespace Asl.Binary64

/-- The bits of positive infinity. -/
def infinity : Nat := 0x7ff <<< 52

/-- The quotient rounded to the nearest integer, a tie to the even one. -/
def roundDiv (num den : Nat) : Nat :=
  let q := num / den
  let r := num % den
  if 2 * r < den then q
  else if den < 2 * r then q + 1
  else if q % 2 = 0 then q else q + 1

/-- The exponent at which the quotient of positive numbers has a mantissa
of 53 bits, or the least exponent there is. -/
def exponent (num den : Nat) : Int :=
  let e : Int := (num.log2 : Int) - (den.log2 : Int) - 53
  let fits := num <<< (-e).toNat < den <<< (53 + e.toNat)
  max (-1074) (if fits then e else e + 1)

/-- The bits of the value nearest to `num / den`, for a positive `den`. -/
def nearest (num den : Nat) : Nat :=
  if num = 0 then 0
  else
    let e := exponent num den
    let q := roundDiv (num <<< (-e).toNat) (den <<< e.toNat)
    min infinity ((e + 1074).toNat <<< 52 + q)

end Asl.Binary64
