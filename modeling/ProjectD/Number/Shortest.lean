import ProjectD.Number.Binary64
import ProjectD.Number.Digits

/-! # The shortest decimal that reads back, and how it is written

Among all decimals that round to a given number, the shortest has the fewest significant digits,
and among those of that length it is the nearest one. For one digit, two digits and so on the two
neighbours of the number on that decimal grid are read back; the first grid with a hit wins.

A finite number is written with these digits. Numbers whose leading digit stands between `10 ^ -5`
and `10 ^ 15` are written positionally with at least one fractional digit, all others with a signed
exponent.
-/

set_option autoImplicit false

namespace ProjectD

/-- The nonnegative decimal number `digits * 10 ^ exponent`. -/
structure Scientific where
  digits : Nat
  exponent : Int
deriving DecidableEq, Repr

namespace Scientific

/-- Move trailing zeros of the digits into the exponent. -/
def dropZeros (d : Scientific) : Scientific :=
  go d.digits d.exponent d.digits
where
  go (digits : Nat) (exponent : Int) : Nat → Scientific
    | 0 => ⟨digits, exponent⟩
    | fuel + 1 =>
      if digits ≠ 0 ∧ digits % 10 = 0 then go (digits / 10) (exponent + 1) fuel
      else ⟨digits, exponent⟩

/-- The number of significant digits. -/
def length (d : Scientific) : Nat :=
  (Nat.toDigits 10 d.digits).length

/-- The decimal exponent of the leading digit. -/
def leading (d : Scientific) : Int :=
  d.length - 1 + d.exponent

end Scientific

namespace Binary64

/-- The exponent of the leading decimal digit of a positive finite number. The scaling by
`10 ^ 340` lifts even the least positive number above one. -/
def leadingExponent (x : Binary64) : Int :=
  (Nat.toDigits 10 (x.units * Nat.pow 10 340 / unitsPerOne)).length - 1 - 340

/-- The number of steps `10 ^ exponent` in the number, as a fraction. -/
def gridRatio (x : Binary64) (exponent : Int) : Nat × Nat :=
  if exponent < 0 then (x.units * Nat.pow 10 exponent.natAbs, unitsPerOne)
  else (x.units, unitsPerOne * Nat.pow 10 exponent.natAbs)

/-- Whether a decimal of the same sign rounds to the number. -/
def readsBack (x : Binary64) (d : Scientific) : Bool :=
  ofDecimal x.isNegative d.digits d.exponent = x

/-- Of the two multiples of `10 ^ exponent` next to `num / den` steps the one that reads back; if
both do, the nearer one, and at equal distance the even one. -/
def neighbour? (x : Binary64) (num den : Nat) (exponent : Int) : Option Scientific :=
  let below : Scientific := ⟨num / den, exponent⟩
  let above : Scientific := ⟨num / den + 1, exponent⟩
  if x.readsBack below then
    if x.readsBack above ∧ roundHalfEven num den ≠ num / den then some above else some below
  else if x.readsBack above then some above
  else none

/-- The neighbour of the number on the grid of `n` significant digits that reads back. -/
def shortestOn? (x : Binary64) (n : Nat) : Option Scientific :=
  let exponent := x.leadingExponent - n + 1
  let ratio := x.gridRatio exponent
  x.neighbour? ratio.1 ratio.2 exponent

/-- The decimal with every digit of the number. -/
def exactDecimal (x : Binary64) : Scientific :=
  ⟨x.units * Nat.pow 5 1074, -1074⟩

/-- The shortest decimal that reads back as the number; seventeen digits always suffice. -/
def shortest (x : Binary64) : Scientific :=
  if x.units = 0 then ⟨0, 0⟩
  else (((List.range 17).findSome? fun n => x.shortestOn? (n + 1)).getD x.exactDecimal).dropZeros

end Binary64

/-! ## Written form -/

/-- The bounds between which numbers are written without an exponent. -/
structure Positional where
  least : Int
  greatest : Int

/-- Positional from `0.00001` up to sixteen digits before the point. -/
def Positional.standard : Positional := ⟨-5, 15⟩

namespace Scientific

/-- Digits before and after the point, padded with zeros, at least one on each side. -/
def positional (d : Scientific) : List Char :=
  let ds := Decimal.digits d.digits
  if d.leading < 0 then
    '0' :: '.' :: (List.replicate (d.leading.natAbs - 1) '0' ++ ds)
  else
    let width := d.leading.natAbs + 1
    let whole := ds.take width
    let fraction := ds.drop width
    whole ++ List.replicate (width - whole.length) '0' ++ '.' ::
      (if fraction.isEmpty then ['0'] else fraction)

/-- One digit before the point, the others after it, then the exponent with its sign. -/
def exponential (d : Scientific) : List Char :=
  let ds := Decimal.digits d.digits
  let fraction := ds.drop 1
  ds.take 1 ++ (if fraction.isEmpty then [] else '.' :: fraction) ++ 'e' ::
    (if d.leading < 0 then '-' else '+') :: Decimal.digits d.leading.natAbs

end Scientific

def Binary64.text (x : Binary64) : List Char :=
  let d := x.shortest
  let body :=
    if Positional.standard.least ≤ d.leading ∧ d.leading ≤ Positional.standard.greatest then
      d.positional
    else d.exponential
  if x.isNegative then '-' :: body else body

end ProjectD
