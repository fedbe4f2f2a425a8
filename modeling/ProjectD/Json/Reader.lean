import ProjectD.Json.Basic
import ProjectD.Number.Digits
import ProjectD.Number.Binary64

/-! # Reading JSON

A reader for the whole of JSON. Arrays and objects nest at most `maxDepth` levels, escapes must
form characters, and a number must be finite. An integer text gives an integer if it fits 64 bits,
and otherwise a real. How reals are found is a parameter, `RealRule`.
-/

set_option autoImplicit false

namespace ProjectD.Json

/-- The deepest nesting of arrays and objects that is read. -/
def maxDepth : Nat := 127

/-- Blanks between the parts of a value. -/
def isBlank (c : Char) : Bool :=
  c = ' ' || c = '\n' || c = '\t' || c = '\r'

def skipBlanks (cs : List Char) : List Char :=
  cs.dropWhile isBlank

/-! ## Strings -/

/-- The first half of a surrogate pair. -/
def isHighSurrogate (n : Nat) : Bool :=
  0xD800 ≤ n && n < 0xDC00

/-- The second half of a surrogate pair. -/
def isLowSurrogate (n : Nat) : Bool :=
  0xDC00 ≤ n && n < 0xE000

/-- A character given by its UTF-16 units, after `\u`. -/
def unicodeEscape? (cs : List Char) : Option (Char × List Char) := do
  let (first, cs) ← Radix.hex? 4 cs
  if isHighSurrogate first then
    match cs with
    | '\\' :: 'u' :: cs =>
      let (second, cs) ← Radix.hex? 4 cs
      if isLowSurrogate second then
        some (Char.ofNat (0x10000 + (first - 0xD800) * 0x400 + (second - 0xDC00)), cs)
      else none
    | _ => none
  else if isLowSurrogate first then none
  else some (Char.ofNat first, cs)

/-- The character of an escape, after the backslash. -/
def escape? : List Char → Option (Char × List Char)
  | '"' :: cs => some ('"', cs)
  | '\\' :: cs => some ('\\', cs)
  | '/' :: cs => some ('/', cs)
  | 'b' :: cs => some ('\x08', cs)
  | 'f' :: cs => some ('\x0c', cs)
  | 'n' :: cs => some ('\n', cs)
  | 'r' :: cs => some ('\r', cs)
  | 't' :: cs => some ('\t', cs)
  | 'u' :: cs => unicodeEscape? cs
  | _ => none

/-- The rest of a string after its opening quote. Every round takes at least one character, so the
length of the text bounds their number. -/
def stringBody? : Nat → String → List Char → Option (String × List Char)
  | 0, _, _ => none
  | _ + 1, _, [] => none
  | fuel + 1, read, c :: cs =>
    if c = '"' then some (read, cs)
    else if c = '\\' then do
      let (d, cs) ← escape? cs
      stringBody? fuel (read.push d) cs
    else if c.toNat < 32 then none
    else stringBody? fuel (read.push c) cs

/-- A string, after its opening quote. -/
def string? (cs : List Char) : Option (String × List Char) :=
  stringBody? (cs.length + 1) "" cs

/-! ## Numbers -/

/-- The digits before the point: one zero, or digits that do not start with one. -/
def wholePart? (cs : List Char) : Option (List Char × List Char) :=
  match cs.takeWhile Decimal.isDigit, cs.dropWhile Decimal.isDigit with
  | [], _ => none
  | ['0'], cs => some (['0'], cs)
  | '0' :: _, _ => none
  | ds, cs => some (ds, cs)

/-- The digits after the point; none if there is no point. -/
def fractionPart? : List Char → Option (List Char × List Char)
  | '.' :: cs =>
    match cs.takeWhile Decimal.isDigit, cs.dropWhile Decimal.isDigit with
    | [], _ => none
    | ds, cs => some (ds, cs)
  | cs => some ([], cs)

/-- The digits of an exponent, after its mark and sign. -/
def exponentDigits? (negative : Bool) (cs : List Char) : Option (Option Int × List Char) :=
  match cs.takeWhile Decimal.isDigit, cs.dropWhile Decimal.isDigit with
  | [], _ => none
  | ds, cs => some (some (if negative then -Decimal.value ds else Decimal.value ds), cs)

/-- The exponent; none if there is no mark. -/
def exponentPart? : List Char → Option (Option Int × List Char)
  | c :: cs =>
    if c = 'e' ∨ c = 'E' then
      match cs with
      | '-' :: cs => exponentDigits? true cs
      | '+' :: cs => exponentDigits? false cs
      | cs => exponentDigits? false cs
    else some (none, c :: cs)
  | [] => some (none, [])

/-- How the real number of a text is found. -/
inductive RealRule where
  /-- It is the number nearest to the text. -/
  | nearest
  /-- It is scaled from the leading digits. -/
  | scaled
deriving DecidableEq, Repr

/-- The real number with these digits, if it is finite. -/
def RealRule.read? (rule : RealRule) (negative : Bool) (whole fraction : List Char)
    (exponent : Int) : Option Binary64 :=
  match rule with
  | nearest =>
    let x := Binary64.ofDecimal negative (Decimal.value (whole ++ fraction))
      (exponent - fraction.length)
    if x.isFinite then some x else none
  | scaled => Binary64.ofDigits? negative whole fraction exponent

/-- The number with these digits. An integer stays one if it fits 64 bits; zero with a minus sign
is a real, since only those have it. -/
def number? (rule : RealRule) (negative : Bool) (whole fraction : List Char)
    (exponent : Option Int) : Option Json :=
  let n := Decimal.value whole
  if fraction.isEmpty ∧ exponent = none ∧
      (if negative then 0 < n ∧ 2 * n ≤ UInt64.size else n < UInt64.size) then
    some (.integer (if negative then -n else n))
  else (rule.read? negative whole fraction (exponent.getD 0)).map .real

/-- A number whose sign is read. -/
def unsignedNumber? (rule : RealRule) (negative : Bool) (cs : List Char) :
    Option (Json × List Char) := do
  let (whole, cs) ← wholePart? cs
  let (fraction, cs) ← fractionPart? cs
  let (exponent, cs) ← exponentPart? cs
  let j ← number? rule negative whole fraction exponent
  some (j, cs)

/-! ## Values -/

/-- The items of an array after its first item, up to and with the closing bracket. -/
def items? (value? : List Char → Option (Json × List Char)) :
    Nat → List Char → Option (List Json × List Char)
  | 0, _ => none
  | fuel + 1, cs =>
    match skipBlanks cs with
    | ']' :: cs => some ([], cs)
    | ',' :: cs => do
      let (item, cs) ← value? (skipBlanks cs)
      let (items, cs) ← items? value? fuel cs
      some (item :: items, cs)
    | _ => none

/-- A member of an object: its name, a colon and its value. -/
def member? (value? : List Char → Option (Json × List Char)) (cs : List Char) :
    Option ((String × Json) × List Char) :=
  match cs with
  | '"' :: cs => do
    let (name, cs) ← string? cs
    match skipBlanks cs with
    | ':' :: cs => do
      let (value, cs) ← value? (skipBlanks cs)
      some ((name, value), cs)
    | _ => none
  | _ => none

/-- The members of an object after its first member, up to and with the closing brace. -/
def members? (value? : List Char → Option (Json × List Char)) :
    Nat → List Char → Option (List (String × Json) × List Char)
  | 0, _ => none
  | fuel + 1, cs =>
    match skipBlanks cs with
    | '\x7d' :: cs => some ([], cs)
    | ',' :: cs => do
      let (member, cs) ← member? value? (skipBlanks cs)
      let (members, cs) ← members? value? fuel cs
      some (member :: members, cs)
    | _ => none

/-- An array, after its opening bracket. -/
def array? (value? : List Char → Option (Json × List Char)) (cs : List Char) :
    Option (Json × List Char) :=
  match skipBlanks cs with
  | ']' :: cs => some (.array [], cs)
  | cs => do
    let (item, cs) ← value? cs
    let (items, cs) ← items? value? (cs.length + 1) cs
    some (.array (item :: items), cs)

/-- An object, after its opening brace. -/
def object? (value? : List Char → Option (Json × List Char)) (cs : List Char) :
    Option (Json × List Char) :=
  match skipBlanks cs with
  | '\x7d' :: cs => some (.object [], cs)
  | cs => do
    let (member, cs) ← member? value? cs
    let (members, cs) ← members? value? (cs.length + 1) cs
    some (.object (member :: members), cs)

/-- A value at the start of a text, with at most `depth` further levels of nesting. -/
def value? (rule : RealRule) : Nat → List Char → Option (Json × List Char)
  | _, 'n' :: 'u' :: 'l' :: 'l' :: cs => some (.null, cs)
  | _, 't' :: 'r' :: 'u' :: 'e' :: cs => some (.bool true, cs)
  | _, 'f' :: 'a' :: 'l' :: 's' :: 'e' :: cs => some (.bool false, cs)
  | _, '"' :: cs => do
    let (s, cs) ← string? cs
    some (.string s, cs)
  | depth + 1, '[' :: cs => array? (value? rule depth) cs
  | depth + 1, '\x7b' :: cs => object? (value? rule depth) cs
  | _, '-' :: cs => unsignedNumber? rule true cs
  | _, cs => unsignedNumber? rule false cs

/-- The value that a whole text writes. -/
def read? (rule : RealRule) (s : String) : Option Json :=
  match value? rule maxDepth (skipBlanks s.toList) with
  | some (j, cs) => if (skipBlanks cs).isEmpty then some j else none
  | none => none

end ProjectD.Json
