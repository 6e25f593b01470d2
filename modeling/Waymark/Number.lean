/-!
# Binary floating-point numbers

The non-negative finite numbers of the 64-bit binary format, in exact arithmetic on
natural numbers: a mantissa of at most 53 bits times a power of two. Rounding a
quotient goes to the nearest such number, a tie to the even mantissa.

The text of a number is the decimal with the fewest digits that reads back as it. Of two such
decimals the nearer one is taken. Numbers from `0.00001` up to `1e+16` are written out; all
others have an exponent with its sign.

## Main definitions

* `Binary64` — mantissa and exponent
* `Binary64.ofRatio?` — the nearest number to a quotient, unless it is too large
* `Binary64.scale?` — a number times a power of ten, as decimal texts are read
* `Binary64.shortest` — digits and power of ten of the shortest decimal
* `Binary64.text` — the text of a number
-/

namespace Waymark

/-- The number `mantissa * 2 ^ exponent`. -/
structure Binary64 where
  /-- At most 53 bits; all 53 of them are used unless the exponent is the least one. -/
  mantissa : Nat
  /-- At least `-1074`. -/
  exponent : Int
  deriving DecidableEq, Repr

namespace Binary64

/-- Zero. -/
def zero : Binary64 := ⟨0, -1074⟩

/-- The nearest integer to a quotient; a half goes to the even neighbour. -/
def roundQuotient (numerator denominator : Nat) : Nat :=
  let whole := numerator / denominator
  let twice := 2 * (numerator % denominator)
  if denominator < twice || (twice == denominator && whole % 2 == 1) then whole + 1 else whole

/-- A power of two. -/
def twoTo (exponent : Nat) : Nat :=
  Nat.pow 2 exponent

/-- A power of ten. -/
def tenTo (exponent : Nat) : Nat :=
  Nat.pow 10 exponent

/-- A quotient as a fraction of naturals after division by a power of two. -/
def shiftRatio (numerator denominator : Nat) (exponent : Int) : Nat × Nat :=
  if 0 ≤ exponent then (numerator, denominator * twoTo exponent.toNat)
  else (numerator * twoTo (-exponent).toNat, denominator)

/-- The exponent for which a quotient has an integer part of 53 bits, but none below the least. -/
def exponentOfRatio (numerator denominator : Nat) : Int :=
  -- The quotient lies between half and twice `2 ^ (guess + 52)`, so `guess` is at most one too
  -- large.
  let guess : Int := (numerator.log2 : Int) - (denominator.log2 : Int) - 52
  let (n, d) := shiftRatio numerator denominator guess
  max (-1074) (if n / d < twoTo 52 then guess - 1 else guess)

/-- The nearest number to a quotient with a positive denominator, unless it is too large. -/
def ofRatio? (numerator denominator : Nat) : Option Binary64 :=
  if numerator = 0 then some zero
  else
    let exponent := exponentOfRatio numerator denominator
    let (n, d) := shiftRatio numerator denominator exponent
    let mantissa := roundQuotient n d
    -- Rounding up may need a bit more, and then all the lower bits are zero.
    let rounded : Binary64 :=
      if mantissa = twoTo 53 then ⟨twoTo 52, exponent + 1⟩ else ⟨mantissa, exponent⟩
    if rounded.exponent ≤ 971 then some rounded else none

/-- The number as a fraction. -/
def toRatio (x : Binary64) : Nat × Nat :=
  if 0 ≤ x.exponent then (x.mantissa * twoTo x.exponent.toNat, 1)
  else (x.mantissa, twoTo (-x.exponent).toNat)

/-- The nearest number to a natural number below `2 ^ 64`. -/
def ofNat (n : Nat) : Binary64 :=
  (ofRatio? n 1).getD zero

/-- The nearest number to a product, unless it is too large. -/
def mul? (x y : Binary64) : Option Binary64 :=
  ofRatio? (x.toRatio.1 * y.toRatio.1) (x.toRatio.2 * y.toRatio.2)

/-- The nearest number to a quotient with a positive divisor, unless it is too large. -/
def div? (x y : Binary64) : Option Binary64 :=
  ofRatio? (x.toRatio.1 * y.toRatio.2) (x.toRatio.2 * y.toRatio.1)

/-- The largest power of ten that is taken in one step. -/
def largestStep : Nat := 308

/-- The nearest number to `10 ^ power`, for a power in one step. -/
def tenPow (power : Nat) : Binary64 :=
  (ofRatio? (tenTo power) 1).getD zero

/-- The number divided by `10 ^ power`, in steps of at most `largestStep` that are each rounded. -/
def divTenPow? (x : Binary64) (power : Nat) : Option Binary64 :=
  if power ≤ largestStep then x.div? (tenPow power)
  else if x.mantissa = 0 then some x
  else do (← x.div? (tenPow largestStep)).divTenPow? (power - largestStep)
termination_by power
decreasing_by simp only [largestStep] at *; omega

/-- The number times `10 ^ power`, rounded in each step, unless it is too large. -/
def scale? (x : Binary64) (power : Int) : Option Binary64 :=
  if power < 0 then x.divTenPow? (-power).toNat
  else if power ≤ largestStep then x.mul? (tenPow power.toNat)
  else if x.mantissa = 0 then some x
  else none

/-! ### Shortest decimal texts -/

/-- The numbers that round to `x`, as bounds in quarters of the last bit: the lower bound, the
number itself and the upper bound. Below a power of two the spacing is half as wide. -/
def quarters (x : Binary64) : Nat × Nat × Nat :=
  let lower := if x.mantissa = twoTo 52 && -1074 < x.exponent then 1 else 2
  (4 * x.mantissa - lower, 4 * x.mantissa, 4 * x.mantissa + 2)

/-- A power of ten as a fraction in units of a quarter of the last bit of `x`. -/
def gridStep (x : Binary64) (power : Int) : Nat × Nat :=
  let (n, d) : Nat × Nat := if 0 ≤ power then (tenTo power.toNat, 1) else (1, tenTo (-power).toNat)
  shiftRatio n d (x.exponent - 2)

/-- A multiple of the grid's step that rounds to `x`; of two such multiples the nearer one, and
the even one at a tie. -/
def gridPoint? (x : Binary64) (power : Int) : Option Nat :=
  let (step, unit) := x.gridStep power
  let (low, value, high) := x.quarters
  -- The ends of the interval round to `x` themselves just when the mantissa is even.
  let inside (k : Nat) : Bool :=
    if x.mantissa % 2 == 0 then low * unit ≤ k * step && k * step ≤ high * unit
    else low * unit < k * step && k * step < high * unit
  let below := value * unit / step
  let above := below + 1
  let toBelow := value * unit - below * step
  let toAbove := above * step - value * unit
  if inside below && inside above then
    some (if toBelow < toAbove || (toBelow == toAbove && below % 2 == 0) then below else above)
  else if inside below then some below
  else if inside above then some above
  else none

/-- The first grid in a range of falling powers of ten that has a point that rounds to `x`. -/
def firstGrid (x : Binary64) (power : Int) : Nat → Nat × Int
  | 0 => (0, 0)
  | count + 1 =>
    match x.gridPoint? power with
    | some digits => (digits, power)
    | none => x.firstGrid (power - 1) count

/-- The digits and the power of ten of the shortest decimal that reads back as `x`. -/
def shortest (x : Binary64) : Nat × Int :=
  -- The powers from `308` down to `-325` cover every finite number.
  if x.mantissa = 0 then (0, 0) else x.firstGrid 308 634

/-- An exponent as it stands behind the digits: its sign, then its digits without padding. -/
def exponentText (exponent : Int) : String :=
  (if 0 ≤ exponent then "e+" else "e-") ++ toString exponent.natAbs

/-- The text of `digits * 10 ^ power`. A number from `0.00001` up to `1e+16`, which is left out, is
written out with a point, any other one with an exponent. -/
def decimalText (digits : Nat) (power : Int) : String :=
  let shown := toString digits
  let point : Int := shown.length + power
  if 0 ≤ power && point ≤ 16 then
    shown ++ String.ofList (List.replicate power.toNat '0') ++ ".0"
  else if 0 < point && point ≤ 16 then
    String.ofList (shown.toList.take point.toNat) ++ "." ++
      String.ofList (shown.toList.drop point.toNat)
  else if -5 < point && point ≤ 0 then
    "0." ++ String.ofList (List.replicate (-point).toNat '0') ++ shown
  else
    let fraction := shown.toList.drop 1
    String.ofList (shown.toList.take 1) ++
      (if fraction.isEmpty then "" else "." ++ String.ofList fraction) ++
      exponentText (point - 1)

/-- The text of a number. -/
def text (x : Binary64) : String :=
  let (digits, power) := x.shortest
  decimalText digits power

end Binary64

end Waymark
