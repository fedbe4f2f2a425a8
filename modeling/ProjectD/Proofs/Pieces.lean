import ProjectD.Scanner

/-! # Reading a text piece by piece

A scanner without memory. At every offset the unread text alone says what stands there: a blank or
a comment, a lexeme, or a fault. Nothing waits in a buffer and nothing is decided later.

* `Piece.head` is the piece at the head of a text.
* `Piece.scan` reads piece after piece, classifies the lexemes and stops at the first error.

The spans are given by searches in the whole text (the first newline, the first closing of a
comment, the first free quote of a line, the longest run of a class), not by loops over characters.
-/

set_option autoImplicit false

namespace ProjectD

/-- Why nothing can be read at the head of a text. -/
inductive Fault where
  /-- A character that starts no piece. -/
  | character (c : Char)
  /-- A quoted literal that its line does not close, with what stands on the line. -/
  | string (text : List Char)
  /-- A block comment that nothing closes. -/
  | comment
deriving DecidableEq, Repr

/-- The error that a fault at `pos` is. -/
def Fault.error (pos : Position) : Fault → LexError
  | character c => .unrecognizedCharacter pos c
  | string text => .unterminatedString pos (String.ofList text)
  | comment => .unterminatedComment pos

/-- What stands at the head of a nonempty text. `tail` holds the characters after the first one. -/
inductive Piece where
  /-- A blank or a comment. -/
  | gap (tail : List Char)
  | lexeme (tail : List Char)
  | fault (cause : Fault)
deriving DecidableEq, Repr

namespace Piece

/-- A text through its first newline; all of it if it has none. -/
def throughNewline (cs : List Char) : List Char :=
  cs.take ((cs.takeWhile (· ≠ '\n')).length + 1)

/-- The offset of the first star that a slash follows. -/
def blockEnd? (cs : List Char) : Option Nat :=
  (cs.zip cs.tail).findIdx? (· = ('*', '/'))

/-- The offset in `cs` of the first `q` that no backslash precedes directly, where `before` stands
before `cs`. -/
def quoteEnd? (q before : Char) (cs : List Char) : Option Nat :=
  ((before :: cs).zip cs).findIdx? fun p => p.2 = q ∧ p.1 ≠ '\\'

/-- Whether a text starts with the opening of a comment. -/
def opensComment : List Char → Bool
  | '/' :: c :: _ => c = '/' || c = '*'
  | _ => false

/-- Whether a text starts with a period and a digit. -/
def opensFraction : List Char → Bool
  | '.' :: c :: _ => Decimal.isDigit c
  | _ => false

/-- The longest run of operator symbols at the head of a text that no comment cuts. -/
def operatorRun : List Char → List Char
  | [] => []
  | c :: cs => if isOperatorChar c && !opensComment (c :: cs) then c :: operatorRun cs else []

/-- The rest of the word or number that starts with `c`: the longest run of word characters, and
when that is all digits and a fraction follows, the period and the longest run after it too. -/
def wordTail (c : Char) (cs : List Char) : List Char :=
  let run := cs.takeWhile isWordChar
  let rest := cs.dropWhile isWordChar
  if Decimal.isDigits (c :: run) && opensFraction rest then
    run ++ '.' :: rest.tail.takeWhile isWordChar
  else run

/-- Brackets, the semicolon, the comma and the newline stand alone whatever follows. -/
def isMark (c : Char) : Bool :=
  isBracket c || c = ';' || c = ',' || c = '\n'

/-- The piece at the head of the text `c :: cs`. -/
def head (c : Char) (cs : List Char) : Piece :=
  if isSilent c then .gap []
  else if c = '/' ∧ cs.head? = some '/' then .gap (throughNewline cs)
  else if c = '/' ∧ cs.head? = some '*' then
    match blockEnd? cs.tail with
    | some n => .gap (cs.take (n + 3))
    | none => .fault .comment
  else if Text.isQuote c then
    let line := cs.takeWhile (· ≠ '\n')
    match quoteEnd? c c line with
    | some n => .lexeme (line.take (n + 1))
    | none => .fault (.string (c :: line))
  else if isMark c then .lexeme []
  else if c = '.' then .lexeme (if cs.head? = some '.' then ['.'] else [])
  else if isWordChar c then .lexeme (wordTail c cs)
  else if isOperatorChar c then .lexeme (operatorRun cs)
  else .fault (.character c)

/-- The tokens of a text that starts at `pos`, or its first error. -/
def scan (tabWidth : UInt32) (pos : Position) : List Char → Except LexError (List Token)
  | [] => .ok []
  | c :: cs =>
    match head c cs with
    | .gap tail =>
      scan tabWidth (pos.advanceOver tabWidth (c :: tail)) (cs.drop tail.length)
    | .lexeme tail =>
      match classify (String.ofList (c :: tail)) pos with
      | .error e => .error e
      | .ok token =>
        match scan tabWidth (pos.advanceOver tabWidth (c :: tail)) (cs.drop tail.length) with
        | .error e => .error e
        | .ok tokens => .ok (token :: tokens)
    | .fault cause => .error (cause.error pos)
termination_by cs => cs.length
decreasing_by all_goals simp only [List.length_cons, List.length_drop]; omega

end Piece

end ProjectD
