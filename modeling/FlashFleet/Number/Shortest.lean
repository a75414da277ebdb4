import FlashFleet.Number.Binary64
/-!
# The fewest decimal digits that read back

A finite number is written with the fewest decimal digits that are still read
back as it. On the grid of each digit count only the two neighbours of the
number matter: the first grid with a neighbour inside the rounding interval
wins, of two such neighbours the nearer, and of equally near ones the greater.

The text is positional, and a whole number has a point and one zero after it.
-/

namespace FlashFleet.Number.Binary64

/-! ## The rounding interval -/

/-- A magnitude and the ends of the interval of reals that round to it, as
numerators over one denominator; the ends belong to it when `closed`. -/
structure Interval where
  low : Nat
  value : Nat
  high : Nat
  den : Nat
  closed : Bool

/-- The interval of `mantissa · 2 ^ exponent`: half way to the neighbours. The
neighbour below a power of two is only half as far, except at the bottom. -/
def interval (mantissa : Nat) (exponent : Int) : Interval :=
  let narrow := mantissa = mantissaLimit / 2 ∧ minExponent < exponent
  let (unit, den) := scale 2 1 1 (exponent - 2)
  { low := (4 * mantissa - if narrow then 1 else 2) * unit
    value := 4 * mantissa * unit
    high := (4 * mantissa + 2) * unit
    den := den
    closed := mantissa % 2 = 0 }

/-- The ratio `num / den` lies inside. -/
def Interval.mem (i : Interval) (num den : Nat) : Bool :=
  let below := i.low * den
  let above := i.high * den
  let point := num * i.den
  if i.closed then below ≤ point && point ≤ above else below < point && point < above

/-! ## Digits -/

/-- The power of ten just above the value: `10 ^ (k - 1) ≤ value < 10 ^ k`. -/
def Interval.magnitude (i : Interval) : Int :=
  if i.den ≤ i.value then decimalLength (i.value / i.den)
  else
    let count := decimalLength (i.den / i.value)
    if i.den ≤ i.value * Nat.pow 10 (count - 1) then 2 - (count : Int) else 1 - (count : Int)

/-- The neighbour on the grid of multiples of `10 ^ power` that stands for the
value, if one lies inside. -/
def Interval.onGrid? (i : Interval) (power : Int) : Option Nat :=
  let (num, den) := scale 10 i.value i.den (-power)
  let lower := num / den
  let inside (n : Nat) : Bool :=
    let (a, b) := scale 10 n 1 power
    i.mem a b
  match inside lower, inside (lower + 1) with
  | true, true => some (if 2 * num < (2 * lower + 1) * den then lower else lower + 1)
  | true, false => some lower
  | false, true => some (lower + 1)
  | false, false => none

/-- Tries the grids of `count` digits and more. -/
def Interval.search (i : Interval) : (tries : Nat) → (count : Nat) → Nat × Int
  | 0, count => (i.value, i.magnitude - count)
  | tries + 1, count =>
    let power := i.magnitude - count
    match i.onGrid? power with
    | some digits => (digits, power)
    | none => i.search tries (count + 1)

/-- The shortest digits and the power of ten of the last one. Seventeen digits
always suffice. -/
def shortest (mantissa : Nat) (exponent : Int) : Nat × Int :=
  (interval mantissa exponent).search 17 1

/-! ## Positional text -/

/-- The digits with the decimal point `places` digits from the right. -/
def withPoint (digits : List Char) (places : Nat) : List Char :=
  let padded := List.replicate (places + 1 - digits.length) '0' ++ digits
  padded.take (padded.length - places) ++ '.' :: padded.drop (padded.length - places)

/-- Drops the zeros at the right end of a fraction. -/
def dropZeros (digits : List Char) : List Char :=
  (digits.reverse.dropWhile (· == '0')).reverse

/-- The text of `digits · 10 ^ power`. -/
def positional (digits : Nat) (power : Int) : List Char :=
  let written := Nat.toDigits 10 digits
  match power with
  | .ofNat n => written ++ List.replicate n '0' ++ ['.', '0']
  | .negSucc n =>
    let text := dropZeros (withPoint written (n + 1))
    if text.getLast? = some '.' then text ++ ['0'] else text

/-- The text of a number. -/
def text : Binary64 → String
  | .nan => "NaN"
  | .infinite negative => if negative then "-inf" else "inf"
  | .finite negative mantissa exponent =>
    let shown :=
      if mantissa = 0 then ['0', '.', '0']
      else
        let (digits, power) := shortest mantissa exponent
        positional digits power
    String.ofList (if negative then '-' :: shown else shown)

end FlashFleet.Number.Binary64
