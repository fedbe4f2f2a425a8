import ProjectD.Number.Binary64
import ProjectD.Number.Digits
import ProjectD.Toml.Basic

/-! # TOML numbers and dates

Integers of 64 bits in four bases, real numbers, dates and times. Of real numbers and dates only the
form is kept, but a date must exist and a real number must not exceed the largest one.
-/

set_option autoImplicit false

namespace ProjectD.Toml

/-! ## Digits -/

/-- The digits at the start of a text after a digit. Single underscores between digits are
dropped. -/
def moreDigits (isDigit : Char → Bool) : List Char → List Char × List Char
  | '_' :: c :: cs =>
    if isDigit c then
      let (ds, rest) := moreDigits isDigit cs
      (c :: ds, rest)
    else ([], '_' :: c :: cs)
  | c :: cs =>
    if isDigit c then
      let (ds, rest) := moreDigits isDigit cs
      (c :: ds, rest)
    else ([], c :: cs)
  | [] => ([], [])

/-- A run of digits, with single underscores between them. -/
def digits? (isDigit : Char → Bool) : List Char → Option (List Char × List Char)
  | c :: cs =>
    if isDigit c then
      let (ds, rest) := moreDigits isDigit cs
      some (c :: ds, rest)
    else none
  | [] => none

/-! ## Numbers -/

/-- An integer, if it fits 64 bits. -/
def integer? (negative : Bool) (n : Nat) : Option Value :=
  if negative then if 2 * n ≤ UInt64.size then some (.integer (-n)) else none
  else if 2 * n < UInt64.size then some (.integer n) else none

/-- An integer in another base, after its mark. -/
def radixInteger? (base : Nat) (cs : List Char) : Option (Value × List Char) := do
  let (ds, cs) ← digits? (Radix.isDigitOf base) cs
  let value ← integer? false (Radix.value base ds)
  some (value, cs)

/-- The digits before the point: a single zero, or digits that do not start with one. -/
def wholePart? : List Char → Option (List Char × List Char)
  | '0' :: cs => some (['0'], cs)
  | cs => digits? Decimal.isDigit cs

/-- The digits after the point; none if there is no point. -/
def fractionPart? : List Char → Option (Option (List Char) × List Char)
  | '.' :: cs => do
    let (ds, cs) ← digits? Decimal.isDigit cs
    some (some ds, cs)
  | cs => some (none, cs)

/-- The exponent; none if there is no mark. -/
def exponentPart? : List Char → Option (Option Int × List Char)
  | c :: cs =>
    if c = 'e' ∨ c = 'E' then do
      let (negative, cs) := Numeral.splitSign cs
      let (ds, cs) ← digits? Decimal.isDigit cs
      some (some (if negative then -Decimal.value ds else Decimal.value ds), cs)
    else some (none, c :: cs)
  | [] => some (none, [])

/-- The number with these digits: an integer if it has neither fraction nor exponent. A real number
must not be above the largest one. -/
def decimal? (negative : Bool) (whole : List Char) (fraction : Option (List Char))
    (exponent : Option Int) : Option Value :=
  match fraction, exponent with
  | none, none => integer? negative (Decimal.value whole)
  | fraction, exponent =>
    let fraction := fraction.getD []
    let x := Binary64.ofDecimal negative (Decimal.value (whole ++ fraction))
      (exponent.getD 0 - fraction.length)
    if x.isFinite ∨ negative then some .float else none

/-- A decimal number after its sign, or one of the two words for numbers without digits. -/
def unsigned? (negative : Bool) : List Char → Option (Value × List Char)
  | 'i' :: 'n' :: 'f' :: cs => some (.float, cs)
  | 'n' :: 'a' :: 'n' :: cs => some (.float, cs)
  | cs => do
    let (whole, cs) ← wholePart? cs
    let (fraction, cs) ← fractionPart? cs
    let (exponent, cs) ← exponentPart? cs
    let value ← decimal? negative whole fraction exponent
    some (value, cs)

def number? : List Char → Option (Value × List Char)
  | '0' :: 'x' :: cs => radixInteger? 16 cs
  | '0' :: 'o' :: cs => radixInteger? 8 cs
  | '0' :: 'b' :: cs => radixInteger? 2 cs
  | cs =>
    let (negative, cs) := Numeral.splitSign cs
    unsigned? negative cs

/-! ## Dates and times -/

/-- The value of the first `count` characters, which must be decimal digits. -/
def field? (count : Nat) (cs : List Char) : Option (Nat × List Char) :=
  let ds := cs.take count
  if ds.length = count ∧ ds.all Decimal.isDigit then some (Decimal.value ds, cs.drop count)
  else none

/-- The text after a character that must come first. -/
def mark? (c : Char) : List Char → Option (List Char)
  | d :: cs => if d = c then some cs else none
  | [] => none

/-- Every fourth year has a leap day, except for full centuries that four does not divide. -/
def isLeapYear (year : Nat) : Bool :=
  year % 4 = 0 && (year % 100 ≠ 0 || year % 400 = 0)

def daysInMonth (year month : Nat) : Nat :=
  if month = 2 then if isLeapYear year then 29 else 28
  else if month = 4 ∨ month = 6 ∨ month = 9 ∨ month = 11 then 30
  else 31

/-- The text after a date. -/
def day? (cs : List Char) : Option (List Char) := do
  let (year, cs) ← field? 4 cs
  let cs ← mark? '-' cs
  let (month, cs) ← field? 2 cs
  let cs ← mark? '-' cs
  let (day, cs) ← field? 2 cs
  if 1 ≤ month ∧ month ≤ 12 ∧ 1 ≤ day ∧ day ≤ daysInMonth year month then some cs else none

/-- The text after an optional fraction of a second. -/
def skipFraction : List Char → List Char
  | '.' :: c :: cs =>
    if Decimal.isDigit c then cs.dropWhile Decimal.isDigit else '.' :: c :: cs
  | cs => cs

/-- The text after hours and minutes. -/
def hoursMinutes? (cs : List Char) : Option (List Char) := do
  let (hour, cs) ← field? 2 cs
  let cs ← mark? ':' cs
  let (minute, cs) ← field? 2 cs
  if hour < 24 ∧ minute < 60 then some cs else none

/-- The text after a time of the day; a minute may have a leap second. -/
def clock? (cs : List Char) : Option (List Char) := do
  let cs ← hoursMinutes? cs
  let cs ← mark? ':' cs
  let (second, cs) ← field? 2 cs
  if second ≤ 60 then some (skipFraction cs) else none

/-- The text after an optional offset from universal time. -/
def offset? : List Char → Option (List Char)
  | 'Z' :: cs => some cs
  | 'z' :: cs => some cs
  | '+' :: cs => hoursMinutes? cs
  | '-' :: cs => hoursMinutes? cs
  | cs => some cs

/-- Whether a character divides a date from a time. -/
def dividesDate (c : Char) : Bool :=
  c = 'T' || c = 't' || c = ' '

/-- The text after a date, a date with a time, or a time. A blank after a date belongs to it only if
a time follows. -/
def date? (cs : List Char) : Option (List Char) :=
  match day? cs with
  | none => clock? cs
  | some [] => some []
  | some (c :: cs) =>
    if dividesDate c then
      match clock? cs with
      | some cs => offset? cs
      | none => some (c :: cs)
    else some (c :: cs)

end ProjectD.Toml
