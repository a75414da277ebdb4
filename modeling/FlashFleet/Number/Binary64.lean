/-!
# Floating point numbers of 64 bits

A finite number is a sign and a magnitude `m · 2 ^ q` with `m < 2 ^ 53` and
`q ≥ -1074`. A decimal is rounded to the nearest magnitude, a half to the even
neighbour; beyond the largest magnitude there is only infinity.

All arithmetic is on natural numbers: a positive rational is a pair of
numerator and denominator, and scaling by a power multiplies one of the two.
-/

namespace FlashFleet.Number

/-- A floating point number of 64 bits; the zeros have their signs. -/
inductive Binary64 where
  | nan
  | infinite (negative : Bool)
  | finite (negative : Bool) (mantissa : Nat) (exponent : Int)
  deriving DecidableEq, Repr

/-! ## Ratios -/

/-- The ratio times `base ^ power`, as numerator and denominator. -/
def scale (base : Nat) (num den : Nat) : Int → Nat × Nat
  | .ofNat n => (num * base.pow n, den)
  | .negSucc n => (num, den * base.pow (n + 1))

/-- The whole number nearest to a ratio, the even one of two. -/
def roundHalfEven (num den : Nat) : Nat :=
  let low := num / den
  let rest := num % den
  if 2 * rest < den then low
  else if den < 2 * rest then low + 1
  else if low % 2 = 0 then low else low + 1

/-! ## From decimals -/

namespace Binary64

/-- The exponent of the smallest magnitudes. -/
def minExponent : Int := -1074

/-- The exponent of the largest magnitudes. -/
def maxExponent : Int := 971

/-- One more than the largest mantissa. -/
def mantissaLimit : Nat := Nat.pow 2 53

/-- The mantissa and exponent nearest to a positive ratio, if it is not beyond
the largest. -/
def roundRatio (num den : Nat) : Option (Nat × Int) :=
  let guess : Int := max ((num.log2 : Int) - (den.log2 : Int) - 53) minExponent
  let (n, d) := scale 2 num den (-guess)
  let exponent := if mantissaLimit * d ≤ n then guess + 1 else guess
  let (n, d) := scale 2 num den (-exponent)
  let mantissa := roundHalfEven n d
  let (mantissa, exponent) :=
    if mantissa = mantissaLimit then (mantissaLimit / 2, exponent + 1) else (mantissa, exponent)
  if maxExponent < exponent then none else some (mantissa, exponent)

/-- The number of decimal digits. -/
def decimalLength (n : Nat) : Nat := (Nat.toDigits 10 n).length

/-- The number nearest to `digits · 10 ^ power`, with a sign. Powers so far out
that every digit string falls to zero or to infinity are not computed. -/
def ofDecimal (negative : Bool) (digits : Nat) (power : Int) : Binary64 :=
  let reach := power + decimalLength digits
  if digits = 0 ∨ reach < -400 then .finite negative 0 minExponent
  else if 400 < reach then .infinite negative
  else
    let (num, den) := scale 10 digits 1 power
    match roundRatio num den with
    | none => .infinite negative
    | some (mantissa, exponent) => .finite negative mantissa exponent

end Binary64

end FlashFleet.Number
