import ProjectD.Number.Digits

/-! # Binary floating-point numbers of 64 bits

A number is its bit pattern: a sign, eleven bits of exponent and fifty-two of fraction. Every
finite magnitude is a whole multiple of the least positive one, `2 ^ -1074`, and `units` is that
multiple, so comparing and rounding are matters of natural numbers. `ofRatio` rounds a quotient
of naturals to the nearest number, a tie going to the even significand.

There is also a quick way to read a decimal: as many of its leading digits as a 64-bit word holds
are scaled by a power of ten. Every step is rounded, so the result can miss the number nearest to
the decimal by a few places, and next to the largest number it can be finite where that one is not,
or the other way round. `ofDecimal` is the exact way.
-/

set_option autoImplicit false

namespace ProjectD

/-- The quotient rounded to the nearest natural number, a half going to the even neighbour. -/
def roundHalfEven (num den : Nat) : Nat :=
  let quotient := num / den
  let twice := 2 * (num % den)
  if twice < den then quotient
  else if den < twice then quotient + 1
  else quotient + quotient % 2

/-- A 64-bit floating-point number, given by its bits. -/
structure Binary64 where
  bits : UInt64
deriving DecidableEq, Repr

namespace Binary64

/-- Positive numbers in one binade: the values of the fraction field. -/
def binade : Nat := 0x10000000000000

def signBit : Nat := 0x8000000000000000

/-- How many times the least positive number goes into one. -/
def unitsPerOne : Nat := Nat.pow 2 1074

/-- The pattern of infinity, and the least magnitude that is not finite. -/
def infinityMagnitude : Nat := 2047 * binade

/-- The bits below the sign, as a natural number. -/
def magnitude (x : Binary64) : Nat :=
  x.bits.toNat % signBit

def isNegative (x : Binary64) : Bool :=
  signBit ≤ x.bits.toNat

/-- Neither infinite nor outside the numbers. -/
def isFinite (x : Binary64) : Bool :=
  x.magnitude < infinityMagnitude

/-- The number with a given sign and magnitude pattern. -/
def ofMagnitude (negative : Bool) (m : Nat) : Binary64 :=
  ⟨UInt64.ofNat (if negative then signBit + m else m)⟩

/-- The value of a finite magnitude pattern in multiples of `2 ^ -1074`: below the first binade the
fraction itself, above it one with the leading bit and the binade's scale. -/
def unitsOfMagnitude (m : Nat) : Nat :=
  if m < binade then m else (binade + m % binade) * Nat.pow 2 (m / binade - 1)

/-- The absolute value of a finite number in multiples of `2 ^ -1074`. -/
def units (x : Binary64) : Nat :=
  unitsOfMagnitude x.magnitude

/-- The magnitude pattern nearest to `num / den`. The scale is the least one at which the quotient
has at most fifty-three bits. A significand that rounds up to the next power of two carries into
the exponent by plain addition, and everything past the largest finite number is infinite. -/
def magnitudeOfRatio (num den : Nat) : Nat :=
  let scaled := num * unitsPerOne
  let scale := (scaled / den).log2 - 52
  min infinityMagnitude (scale * binade + roundHalfEven scaled (den * Nat.pow 2 scale))

/-- The number nearest to `num / den` with the given sign, a tie going to the even significand. -/
def ofRatio (negative : Bool) (num den : Nat) : Binary64 :=
  ofMagnitude negative (magnitudeOfRatio num den)

/-- The number nearest to `digits * 10 ^ exponent`. Exponents far outside the range of the type are
settled by the number of digits alone: beyond `10 ^ 400` all is infinite, below `10 ^ -400` all
is zero. -/
def ofDecimal (negative : Bool) (digits : Nat) (exponent : Int) : Binary64 :=
  let size : Int := (Nat.toDigits 10 digits).length + exponent
  if digits = 0 ∨ size < -400 then ofMagnitude negative 0
  else if 400 < size then ofMagnitude negative infinityMagnitude
  else if exponent < 0 then ofRatio negative digits (Nat.pow 10 exponent.natAbs)
  else ofRatio negative (digits * Nat.pow 10 exponent.natAbs) 1

/-! ## Rounded steps -/

/-- The number nearest to the product of two absolute values. -/
def product (x y : Binary64) : Binary64 :=
  ofRatio false (x.units * y.units) (unitsPerOne * unitsPerOne)

/-- The number nearest to the quotient of two absolute values. -/
def quotient (x y : Binary64) : Binary64 :=
  ofRatio false x.units y.units

/-- The exponent of the largest power of ten that is finite. -/
def largestPower : Nat := 308

/-- The number nearest to a power of ten. -/
def powerOfTen (n : Nat) : Binary64 :=
  ofRatio false (Nat.pow 10 n) 1

/-- Divide by ten `n` times, with as few steps as powers of ten allow. Zero stays zero. -/
def scaleDown (x : Binary64) (n : Nat) : Binary64 :=
  if x.units = 0 then x
  else if n ≤ largestPower then x.quotient (powerOfTen n)
  else scaleDown (x.quotient (powerOfTen largestPower)) (n - largestPower)
termination_by n
decreasing_by
  unfold largestPower at *
  omega

/-- Multiply by a power of ten; none if the power or the product is not finite. -/
def scaleUp? (x : Binary64) (n : Nat) : Option Binary64 :=
  if x.units = 0 then some x
  else if largestPower < n then none
  else
    let y := x.product (powerOfTen n)
    if y.isFinite then some y else none

/-- Multiply by a power of ten with any exponent. -/
def scale? (x : Binary64) (exponent : Int) : Option Binary64 :=
  if exponent < 0 then some (x.scaleDown exponent.natAbs) else x.scaleUp? exponent.natAbs

/-! ## Digits -/

/-- Append digits to a number as long as it fits 64 bits: the number, and the digits left over. -/
def fillWord : Nat → List Char → Nat × List Char
  | n, [] => (n, [])
  | n, d :: ds =>
    if 10 * n + Decimal.digitValue d < UInt64.size then fillWord (10 * n + Decimal.digitValue d) ds
    else (n, d :: ds)

/-- The number with the given digits before and after the point, scaled from those of its digits
that fit a word. A digit left over before the point counts as a place; after the point it does not
count. -/
def ofDigits? (negative : Bool) (whole fraction : List Char) (exponent : Int) :
    Option Binary64 := do
  let (n, places) := fillWord 0 whole
  let (n, ignored) := fillWord n fraction
  let taken : Nat := fraction.length - ignored.length
  let x ← (ofRatio false n 1).scale? (exponent + places.length - taken)
  some (ofMagnitude negative x.magnitude)

end Binary64

end ProjectD
