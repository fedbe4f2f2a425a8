/-! # Digits

Runs of decimal digits and of digits up to base sixteen, and the sign before them. The readers are
meant for runs of digits of their base; the callers check that first.
-/

set_option autoImplicit false

namespace ProjectD.Decimal

/-- The ten ASCII digits. -/
def isDigit (c : Char) : Bool :=
  '0' ≤ c && c ≤ '9'

/-- A nonempty run of ASCII digits. -/
def isDigits (cs : List Char) : Bool :=
  !cs.isEmpty && cs.all isDigit

def digitValue (c : Char) : Nat :=
  c.toNat - '0'.toNat

/-- The natural number that a run of digits writes; the empty run is zero. -/
def value (cs : List Char) : Nat :=
  cs.foldl (fun n c => 10 * n + digitValue c) 0

/-- The decimal digits of a natural number, without leading zeros. -/
def digits (n : Nat) : List Char :=
  Nat.toDigits 10 n

/-- An integer in decimal, with a minus sign if it is negative. -/
def ofInt (n : Int) : List Char :=
  if n < 0 then '-' :: digits n.natAbs else digits n.natAbs

end ProjectD.Decimal

namespace ProjectD.Numeral

/-- Whether a text starts with a minus sign, and the text without its leading sign. -/
def splitSign : List Char → Bool × List Char
  | '-' :: cs => (true, cs)
  | '+' :: cs => (false, cs)
  | cs => (false, cs)

end ProjectD.Numeral

namespace ProjectD.Radix

/-- The value of a hexadecimal digit, in either case. -/
def hexValue? (c : Char) : Option Nat :=
  if '0' ≤ c ∧ c ≤ '9' then some (c.toNat - '0'.toNat)
  else if 'a' ≤ c ∧ c ≤ 'f' then some (c.toNat - 'a'.toNat + 10)
  else if 'A' ≤ c ∧ c ≤ 'F' then some (c.toNat - 'A'.toNat + 10)
  else none

/-- Whether a character is a digit of a base up to sixteen. -/
def isDigitOf (base : Nat) (c : Char) : Bool :=
  (hexValue? c).any (· < base)

/-- The natural number that a run of digits writes in a base. -/
def value (base : Nat) (cs : List Char) : Nat :=
  cs.foldl (fun n c => base * n + (hexValue? c).getD 0) 0

/-- The value of the first `count` characters, which must be hexadecimal digits. -/
def hex? (count : Nat) (cs : List Char) : Option (Nat × List Char) :=
  let ds := cs.take count
  if ds.length = count ∧ ds.all (isDigitOf 16) then some (value 16 ds, cs.drop count) else none

end ProjectD.Radix
