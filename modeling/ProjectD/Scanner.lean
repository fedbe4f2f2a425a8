import ProjectD.Text.Cursor
import ProjectD.Token.Classify

/-! # The scanner

The scanner passes over a text once, with one character of lookahead. Characters that may still
grow into a longer lexeme wait in a buffer; `mode` says what kind of lexeme that is. Brackets,
quoted literals, comments and `..` end the waiting lexeme and leave nothing behind.

How many characters a comment or a quoted literal takes is read off the text that follows its
opening (`Span`); nothing there knows positions or tokens.

* `Scanner.step` handles one character and what it opens.
* `Scanner.run` repeats it to the end of the text.
* `tokenize` is the list of tokens of a text, or its first error.
-/

set_option autoImplicit false

namespace ProjectD

namespace Span

/-- The length of a line comment after its opening: through the first newline, or to the end of
the text. -/
def lineComment (cs : List Char) : Nat :=
  (cs.takeWhile (· ≠ '\n')).length + 1

/-- The length of a block comment after its opening: through the first star that a slash follows.
There is none if the text ends first. -/
def blockComment? : List Char → Option Nat
  | [] => none
  | '*' :: '/' :: _ => some 2
  | _ :: cs => (blockComment? cs).map (· + 1)

/-- The characters of a literal quoted by `q` after its opening quote, and whether the literal is
closed. It closes at the first `q` that no backslash precedes directly; a newline or the end of the
text leaves it open. `before` is the character before the text. -/
def quoted (q before : Char) : List Char → List Char × Bool
  | [] => ([], false)
  | c :: cs =>
    if c = q ∧ before ≠ '\\' then ([c], true)
    else if c = '\n' then ([], false)
    else
      let (body, closed) := quoted q c cs
      (c :: body, closed)

end Span

/-- What the scanner has last seen. -/
inductive Mode where
  /-- Nothing that a next character could join. -/
  | empty
  /-- A blank or a punctuation mark. -/
  | separator
  /-- A word or a number. -/
  | word
  /-- Operator symbols. -/
  | operator
deriving DecidableEq, Repr

/-- Characters that are lexemes of their own and never join others. -/
def isBracket (c : Char) : Bool :=
  c = '(' || c = ')' || c = '[' || c = ']' || c = '\x7b' || c = '\x7d'

/-- Punctuation marks and the newline: separators that are tokens. -/
def isPunctuation (c : Char) : Bool :=
  c = ';' || c = ',' || c = '.' || c = '\n'

/-- Blanks that only divide lexemes. -/
def isSilent (c : Char) : Bool :=
  c = ' ' || c = '\t' || c = '\r'

def isOperatorChar (c : Char) : Bool :=
  c = '+' || c = '-' || c = '*' || c = '/' || c = '=' || c = '<' || c = '>' || c = ':'

/-- The mode in which a character leaves the scanner; `none` for a character that starts no
lexeme. -/
def Mode.ofChar? (c : Char) : Option Mode :=
  if isWordChar c then some .word
  else if isPunctuation c || isSilent c then some .separator
  else if isOperatorChar c then some .operator
  else none

/-- The scanner between two characters. -/
structure Scanner where
  /-- The unread text. -/
  cursor : Cursor
  mode : Mode
  /-- The lexeme that is still growing. -/
  buffer : String
  /-- Where the growing lexeme starts. -/
  start : Position
  /-- The tokens found so far. -/
  tokens : Array Token
deriving DecidableEq, Repr

namespace Scanner

/-- The scanner before the first character. -/
def ofString (source : String) (tabWidth : UInt32) : Scanner where
  cursor := Cursor.ofString source tabWidth
  mode := .empty
  buffer := ""
  start := Position.start
  tokens := #[]

/-- Record a finished lexeme that starts at `pos`. -/
def commit (s : Scanner) (lexeme : String) (pos : Position) : Except LexError Scanner :=
  match classify lexeme pos with
  | .ok token => .ok { s with tokens := s.tokens.push token }
  | .error e => .error e

/-- Record the growing lexeme, if there is one. -/
def flush (s : Scanner) : Except LexError Scanner :=
  if s.buffer.isEmpty then .ok s
  else commit { s with buffer := "" } s.buffer s.start

/-- Let the lexeme grow by a character that stands at `pos`. -/
def push (s : Scanner) (c : Char) (pos : Position) : Scanner :=
  let start := if s.buffer.isEmpty then pos else s.start
  { s with buffer := s.buffer.push c, start := start }

/-- Record the growing lexeme and then one that starts at `pos` and cannot grow. -/
def commitAlone (s : Scanner) (lexeme : String) (pos : Position) : Except LexError Scanner :=
  match s.flush with
  | .error e => .error e
  | .ok s => commit { s with mode := .empty } lexeme pos

/-- A character of a word, an operator, a blank or a punctuation mark: it joins a lexeme of its own
mode, and otherwise ends the growing one. Separators never join. -/
def ordinary (s : Scanner) (c : Char) (pos : Position) : Except LexError Scanner :=
  if Mode.ofChar? c = some s.mode ∧ s.mode ≠ .separator then .ok (s.push c pos)
  else
    match s.flush with
    | .error e => .error e
    | .ok s =>
      match Mode.ofChar? c with
      | none => .error (.unrecognizedCharacter pos c)
      | some mode =>
        let s := { s with mode := mode }
        .ok (if isSilent c then s else s.push c pos)

/-- A period: after digits and before a digit it belongs to the number, before another period the
two are the range operator, and otherwise it is punctuation. -/
def period (s : Scanner) (pos : Position) : Except LexError Scanner :=
  if s.mode = .word ∧ Decimal.isDigits s.buffer.toList ∧ s.cursor.peek?.any Decimal.isDigit then
    .ok { s with buffer := s.buffer.push '.' }
  else if s.cursor.peek? = some '.' then
    commitAlone { s with cursor := s.cursor.skip 1 } ".." pos
  else s.ordinary '.' pos

/-- A comment whose slash stands at `pos`, with the cursor on its second character. -/
def comment (s : Scanner) (pos : Position) : Except LexError Scanner :=
  match s.flush with
  | .error e => .error e
  | .ok s =>
    let inner := s.cursor.skip 1
    if s.cursor.peek? = some '/' then
      .ok { s with cursor := inner.skip (Span.lineComment inner.rest), mode := .empty }
    else
      match Span.blockComment? inner.rest with
      | some n => .ok { s with cursor := inner.skip n, mode := .empty }
      | none => .error (.unterminatedComment pos)

/-- A literal quoted by `q`, whose opening quote stands at `pos`. -/
def quotedLiteral (s : Scanner) (q : Char) (pos : Position) : Except LexError Scanner :=
  match s.flush with
  | .error e => .error e
  | .ok s =>
    let (body, closed) := Span.quoted q q s.cursor.rest
    let text := String.ofList (q :: body)
    if closed then
      commit { s with cursor := s.cursor.skip body.length, mode := .empty } text pos
    else .error (.unterminatedString pos text)

/-- Handle the character `c` at `pos`, which the cursor has just passed. -/
def dispatch (s : Scanner) (c : Char) (pos : Position) : Except LexError Scanner :=
  if isBracket c then s.commitAlone (String.singleton c) pos
  else if Text.isQuote c then s.quotedLiteral c pos
  else if c = '/' ∧ (s.cursor.peek? = some '/' ∨ s.cursor.peek? = some '*') then s.comment pos
  else if c = '.' then s.period pos
  else s.ordinary c pos

/-- Pass the next character, which is `c`, and handle it. -/
def step (s : Scanner) (c : Char) : Except LexError Scanner :=
  let pos := s.cursor.position
  dispatch { s with cursor := s.cursor.skip 1 } c pos

/-! ## Every step passes a character -/

theorem cursor_of_commit {s t : Scanner} {lexeme : String} {pos : Position}
    (h : s.commit lexeme pos = .ok t) : t.cursor = s.cursor := by
  unfold commit at h
  split at h
  · simp only [Except.ok.injEq] at h
    rw [← h]
  · simp at h

theorem cursor_of_flush {s t : Scanner} (h : s.flush = .ok t) : t.cursor = s.cursor := by
  unfold flush at h
  split at h
  · simp only [Except.ok.injEq] at h
    rw [h]
  · rw [cursor_of_commit h]

theorem cursor_of_commitAlone {s t : Scanner} {lexeme : String} {pos : Position}
    (h : s.commitAlone lexeme pos = .ok t) : t.cursor = s.cursor := by
  unfold commitAlone at h
  split at h
  · simp at h
  · next hf => rw [cursor_of_commit h, ← cursor_of_flush hf]

theorem cursor_of_ordinary {s t : Scanner} {c : Char} {pos : Position}
    (h : s.ordinary c pos = .ok t) : t.cursor = s.cursor := by
  unfold ordinary at h
  split at h
  · simp only [Except.ok.injEq] at h
    rw [← h]
    rfl
  · split at h
    · simp at h
    · next hf =>
      split at h
      · simp at h
      · simp only [Except.ok.injEq] at h
        rw [← h, ← cursor_of_flush hf]
        split <;> rfl

theorem rest_length_of_period {s t : Scanner} {pos : Position} (h : s.period pos = .ok t) :
    t.cursor.rest.length ≤ s.cursor.rest.length := by
  unfold period at h
  split at h
  · simp only [Except.ok.injEq] at h
    exact Nat.le_of_eq (by rw [← h])
  · split at h
    · rw [cursor_of_commitAlone h]
      exact Cursor.rest_length_skip_le _ _
    · exact Nat.le_of_eq (by rw [cursor_of_ordinary h])

theorem rest_length_of_comment {s t : Scanner} {pos : Position} (h : s.comment pos = .ok t) :
    t.cursor.rest.length ≤ s.cursor.rest.length := by
  unfold comment at h
  split at h
  · simp at h
  · next u hf =>
    rw [← cursor_of_flush hf]
    split at h
    · simp only [Except.ok.injEq] at h
      rw [← h]
      exact Nat.le_trans (Cursor.rest_length_skip_le _ _) (Cursor.rest_length_skip_le _ _)
    · dsimp only at h
      split at h
      · simp only [Except.ok.injEq] at h
        rw [← h]
        exact Nat.le_trans (Cursor.rest_length_skip_le _ _) (Cursor.rest_length_skip_le _ _)
      · simp at h

theorem rest_length_of_quotedLiteral {s t : Scanner} {q : Char} {pos : Position}
    (h : s.quotedLiteral q pos = .ok t) : t.cursor.rest.length ≤ s.cursor.rest.length := by
  unfold quotedLiteral at h
  split at h
  · simp at h
  · next u hf =>
    rw [← cursor_of_flush hf]
    dsimp only at h
    split at h
    · rw [cursor_of_commit h]
      exact Cursor.rest_length_skip_le _ _
    · simp at h

theorem rest_length_of_dispatch {s t : Scanner} {c : Char} {pos : Position}
    (h : s.dispatch c pos = .ok t) : t.cursor.rest.length ≤ s.cursor.rest.length := by
  unfold dispatch at h
  split at h
  · exact Nat.le_of_eq (by rw [cursor_of_commitAlone h])
  · split at h
    · exact rest_length_of_quotedLiteral h
    · split at h
      · exact rest_length_of_comment h
      · split at h
        · exact rest_length_of_period h
        · exact Nat.le_of_eq (by rw [cursor_of_ordinary h])

theorem rest_length_of_step {s t : Scanner} {c : Char} (hc : s.cursor.peek? = some c)
    (h : s.step c = .ok t) : t.cursor.rest.length < s.cursor.rest.length :=
  Nat.lt_of_le_of_lt (rest_length_of_dispatch h) (Cursor.rest_length_skip_one_lt _ hc)

/-! ## The whole text -/

/-- Handle the rest of the text, then record the last lexeme. -/
def run (s : Scanner) : Except LexError Scanner :=
  match _hc : s.cursor.peek? with
  | none => s.flush
  | some c =>
    match _h : s.step c with
    | .error e => .error e
    | .ok t => run t
termination_by s.cursor.rest.length
decreasing_by exact rest_length_of_step _hc _h

end Scanner

/-- The tokens of a text in order, or its first error. -/
def tokenize (source : String) (tabWidth : UInt32) : Except LexError (List Token) :=
  match (Scanner.ofString source tabWidth).run with
  | .ok s => .ok s.tokens.toList
  | .error e => .error e

end ProjectD
