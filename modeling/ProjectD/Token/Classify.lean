import ProjectD.LexError
import ProjectD.Number.Digits
import ProjectD.Token.Basic

/-! # The kind of a lexeme

Every text is classified on its own, without its neighbours: first by the fixed vocabulary, then
as a quoted literal, as a number if it starts like one, and as an identifier last.

An integer is an optional sign and digits and must fit a signed 64-bit word; a real is an optional
sign, digits, one period and digits, and is rounded to the nearest 64-bit number.
-/

set_option autoImplicit false

namespace ProjectD

/-! ## Numerals -/

namespace Numeral

/-- Whether a text starts like a number: a digit, after at most one sign. -/
def looksNumeric (cs : List Char) : Bool :=
  (splitSign cs).2.head?.any Decimal.isDigit

/-- The least signed 64-bit integer. -/
def leastInteger : Int := -9223372036854775808

/-- The greatest signed 64-bit integer. -/
def greatestInteger : Int := 9223372036854775807

/-- The integer that sign and digits write, if it fits. -/
def integer? (negative : Bool) (digits : List Char) : Option Literal :=
  let n : Int := if negative then -Decimal.value digits else Decimal.value digits
  if leastInteger ≤ n ∧ n ≤ greatestInteger then some (.integer n) else none

/-- The real number with the given digits before and after the period. -/
def real (negative : Bool) (whole fraction : List Char) : Literal :=
  .real (Binary64.ofRatio negative (Decimal.value (whole ++ fraction)) (Nat.pow 10 fraction.length))

/-- The literal that a numeral writes. -/
def parse? (cs : List Char) : Option Literal :=
  let (negative, body) := splitSign cs
  if Decimal.isDigits body then integer? negative body
  else
    let whole := body.takeWhile (· ≠ '.')
    let fraction := (body.dropWhile (· ≠ '.')).drop 1
    if Decimal.isDigits whole ∧ Decimal.isDigits fraction then some (real negative whole fraction)
    else none

end Numeral

/-! ## Lexemes -/

/-- ASCII letters. -/
def isLetter (c : Char) : Bool :=
  ('a' ≤ c && c ≤ 'z') || ('A' ≤ c && c ≤ 'Z')

/-- Characters of words and numbers: ASCII letters, digits and the underscore. -/
def isWordChar (c : Char) : Bool :=
  isLetter c || Decimal.isDigit c || c = '_'

/-- A word that does not start with a digit. -/
def isIdentifier : List Char → Bool
  | [] => false
  | c :: cs => (isLetter c || c = '_') && cs.all isWordChar

/-- The text between two quotes `q`. A lone quote opens nothing. -/
def unquote? (q : Char) : List Char → Option (List Char)
  | [] => none
  | c :: cs => if c = q ∧ cs.getLast? = some q then some cs.dropLast else none

/-! ## Looking up one family -/

def Separator.read (lexeme : String) (pos : Position) : Except LexError Separator :=
  match Separator.ofSpelling? lexeme with
  | some s => .ok s
  | none => .error (.unknownSeparator pos lexeme)

def Operator.read (lexeme : String) (pos : Position) : Except LexError Operator :=
  match Operator.ofSpelling? lexeme with
  | some o => .ok o
  | none => .error (.unknownOperator pos lexeme)

def Keyword.read (lexeme : String) (pos : Position) : Except LexError Keyword :=
  match Keyword.ofSpelling? lexeme with
  | some k => .ok k
  | none => .error (.unknownKeyword pos lexeme)

/-- The word of the empty value. -/
def Literal.emptySpelling : String := "empty"

/-- The literal that a text at `pos` writes, if it has the shape of one. What starts like a number
must be a number. -/
def Literal.read? (lexeme : String) (pos : Position) : Except LexError (Option Literal) :=
  if lexeme = emptySpelling then .ok (some .empty)
  else
    let cs := lexeme.toList
    match (unquote? '"' cs).or (unquote? '\'' cs) with
    | some content => .ok (some (.string (String.ofList content)))
    | none =>
      if Numeral.looksNumeric cs then
        match Numeral.parse? cs with
        | some literal => .ok (some literal)
        | none => .error (.malformedLiteral pos lexeme)
      else .ok none

/-! ## The order of the families -/

/-- The kind of a lexeme outside the tables: a literal, or else an identifier. -/
def Kind.ofShape (lexeme : String) (pos : Position) : Except LexError Kind :=
  match Literal.read? lexeme pos with
  | .error e => .error e
  | .ok (some l) => .ok (.literal l)
  | .ok none =>
    if isIdentifier lexeme.toList then .ok (.identifier lexeme)
    else .error (.malformedIdentifier pos lexeme)

/-- The kind of a lexeme. Separators come before operators and operators before keywords; the word
of the empty value is left to the literals. -/
def Kind.read (lexeme : String) (pos : Position) : Except LexError Kind :=
  if Separator.isMember lexeme then (Separator.read lexeme pos).map .separator
  else if Operator.isMember lexeme then (Operator.read lexeme pos).map .operator
  else if Keyword.isMember lexeme ∧ lexeme ≠ Literal.emptySpelling then
    (Keyword.read lexeme pos).map .keyword
  else Kind.ofShape lexeme pos

/-- The token that a lexeme is, standing at `pos`. -/
def classify (lexeme : String) (pos : Position) : Except LexError Token :=
  (Kind.read lexeme pos).map fun kind => ⟨lexeme, pos, kind⟩

end ProjectD
