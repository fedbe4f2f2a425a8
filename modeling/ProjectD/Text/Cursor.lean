/-! # Positions and cursors

A position is a line and a column, both 32-bit words counted from one. Moving over a character
never wraps: a coordinate that reaches the largest word stays there.

A cursor is the part of a text that is still to be read, with the position of its first
character. All movement goes through `Position.advance`, so the position of a cursor is a
function of the characters that were passed.
-/

set_option autoImplicit false

namespace ProjectD

/-! ## Positions -/

/-- Addition of words that stops at the largest word instead of wrapping. -/
def satAdd (a b : UInt32) : UInt32 :=
  if a.toNat + b.toNat < UInt32.size then a + b else 0xFFFFFFFF

structure Position where
  line : UInt32
  column : UInt32
deriving DecidableEq, Repr

namespace Position

/-- The first character of a text stands at line 1, column 1. -/
def start : Position := ⟨1, 1⟩

instance : Inhabited Position := ⟨start⟩

/-- Positions are ordered by line, then by column. -/
instance : Ord Position where
  compare p q := (compare p.line q.line).then (compare p.column q.column)

/-- The position after a character that stands at `p`: a newline opens the next line, a tab
takes `tabWidth` columns and every other character one. -/
def advance (tabWidth : UInt32) (p : Position) (c : Char) : Position :=
  if c = '\n' then ⟨satAdd p.line 1, 1⟩
  else if c = '\t' then ⟨p.line, satAdd p.column tabWidth⟩
  else ⟨p.line, satAdd p.column 1⟩

/-- The position after the characters `cs` that start at `p`. -/
def advanceOver (tabWidth : UInt32) (p : Position) (cs : List Char) : Position :=
  cs.foldl (advance tabWidth) p

/-- Line and column in decimal with a colon between them. -/
def render (p : Position) : String :=
  toString p.line.toNat ++ ":" ++ toString p.column.toNat

end Position

/-! ## Cursors -/

def defaultTabWidth : UInt32 := 4

/-- The unread part of a text and where it starts. -/
structure Cursor where
  rest : List Char
  position : Position
  tabWidth : UInt32
deriving DecidableEq, Repr

namespace Cursor

def ofString (source : String) (tabWidth : UInt32) : Cursor :=
  ⟨source.toList, Position.start, tabWidth⟩

/-- The next character, without passing it. -/
def peek? (k : Cursor) : Option Char :=
  k.rest.head?

def remaining (k : Cursor) : String :=
  String.ofList k.rest

/-- Pass up to `n` characters. -/
def skip (k : Cursor) (n : Nat) : Cursor :=
  { k with
    rest := k.rest.drop n
    position := k.position.advanceOver k.tabWidth (k.rest.take n) }

/-- Pass the next character and say which one it was. At the end of the text nothing moves. -/
def bump (k : Cursor) : Option Char × Cursor :=
  (k.peek?, k.skip 1)

/-- Pass the next character if it is `c`, and say whether it was. -/
def eat (k : Cursor) (c : Char) : Bool × Cursor :=
  if k.peek? = some c then (true, k.skip 1) else (false, k)

/-! ## What each movement does to the unread text -/

@[simp] theorem rest_skip (k : Cursor) (n : Nat) : (k.skip n).rest = k.rest.drop n := rfl

@[simp] theorem position_skip (k : Cursor) (n : Nat) :
    (k.skip n).position = k.position.advanceOver k.tabWidth (k.rest.take n) := rfl

@[simp] theorem tabWidth_skip (k : Cursor) (n : Nat) : (k.skip n).tabWidth = k.tabWidth := rfl

theorem rest_length_skip_le (k : Cursor) (n : Nat) :
    (k.skip n).rest.length ≤ k.rest.length := by
  simp

theorem rest_length_skip_one_lt (k : Cursor) {c : Char} (h : k.peek? = some c) :
    (k.skip 1).rest.length < k.rest.length := by
  cases hr : k.rest with
  | nil => simp [peek?, hr] at h
  | cons d cs => simp [hr]

end Cursor

end ProjectD
