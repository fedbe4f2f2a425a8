import Mathlib.Algebra.GroupWithZero.Nat
import ProjectD.Proofs.Positions

/-! # Runs of a cursor

A cursor is asked for its next character, moved past it, moved past a given character, or asked for
the unread text, in any order. Its answers alone tell which characters were passed
(`Cursor.passed`). Every call passes those and nothing else (`Cursor.call_passes`), so a run of
calls does too (`Cursor.calls_passes`), and what is left is the rest of the text.

The position is a sum that stops at the largest word. It may stop at every character, or once at the
end: the two are the same, because nothing is ever taken away from a coordinate before its line ends
(`Position.toNat_column_advanceOver`).
-/

set_option autoImplicit false

namespace ProjectD

namespace Position

variable {tabWidth : UInt32} {p : Position} {c : Char}

/-- The columns that a character takes on its line. -/
def columnsOf (tabWidth : UInt32) (c : Char) : Nat :=
  if c = '\t' then tabWidth.toNat else 1

theorem toNat_column_advance (hc : c ≠ '\n') :
    (p.advance tabWidth c).column.toNat =
      min 4294967295 (p.column.toNat + columnsOf tabWidth c) := by
  rw [advance, if_neg hc, columnsOf]
  split
  · exact toNat_satAdd p.column tabWidth
  · exact toNat_satAdd p.column 1

theorem toNat_column_advanceOver (tabWidth : UInt32) (cs : List Char) :
    (start.advanceOver tabWidth cs).column.toNat =
      min 4294967295 (1 + ((lastLine cs).map (columnsOf tabWidth)).sum) := by
  -- The last character decides whether the line goes on, so the text is taken from its end.
  induction cs using List.reverseRecOn with
  | nil => rfl
  | append_singleton cs c ih =>
    rw [advanceOver_append, advanceOver_cons, advanceOver_nil]
    by_cases hc : c = '\n'
    · subst hc
      rw [lastLine_newline]
      rfl
    · rw [toNat_column_advance hc, ih, lastLine_concat hc, List.map_append, List.sum_append,
        List.map_singleton, List.sum_singleton]
      omega

end Position

namespace Cursor

/-! ## Calls and their answers -/

inductive Call where
  | bump
  | peek
  | eat (c : Char)
  | remaining
deriving DecidableEq, Repr

inductive Answer where
  | character (c : Option Char)
  | eaten (passed : Bool)
  | text (s : String)
deriving DecidableEq, Repr

def call (k : Cursor) : Call → Answer × Cursor
  | .bump => (.character k.bump.1, k.bump.2)
  | .peek => (.character k.peek?, k)
  | .eat c => (.eaten (k.eat c).1, (k.eat c).2)
  | .remaining => (.text k.remaining, k)

/-- The answers to a sequence of calls, and the cursor after them. -/
def calls (k : Cursor) : List Call → List Answer × Cursor
  | [] => ([], k)
  | op :: ops =>
    ((k.call op).1 :: ((k.call op).2.calls ops).1, ((k.call op).2.calls ops).2)

/-- The characters that one call has passed, as its answer shows. -/
def passedBy : Call → Answer → List Char
  | .bump, .character (some c) => [c]
  | .eat c, .eaten true => [c]
  | _, _ => []

def passed (ops : List Call) (answers : List Answer) : List Char :=
  (List.zipWith passedBy ops answers).flatten

variable {k : Cursor}

theorem skip_of_end (h : k.rest = []) (n : Nat) : k.skip n = k := by
  obtain ⟨rest, position, tabWidth⟩ := k
  obtain rfl : rest = [] := h
  simp [skip]

theorem bump_of_end (h : k.rest = []) : k.bump = (none, k) := by
  rw [bump, peek?, h, skip_of_end h, List.head?_nil]

theorem eat_of_ne {c : Char} (h : k.rest.head? ≠ some c) : k.eat c = (false, k) :=
  if_neg h

theorem eat_of_head {c : Char} (h : k.rest.head? = some c) : k.eat c = (true, k.skip 1) :=
  if_pos h

/-! ## What is passed -/

/-- The cursor has passed `cs` and nothing else. -/
structure Passes (k : Cursor) (cs : List Char) (k' : Cursor) : Prop where
  rest : k.rest = cs ++ k'.rest
  position : k'.position = k.position.advanceOver k.tabWidth cs
  tabWidth : k'.tabWidth = k.tabWidth

theorem Passes.refl (k : Cursor) : k.Passes [] k := ⟨rfl, rfl, rfl⟩

theorem Passes.trans {k' k'' : Cursor} {x y : List Char} (h : k.Passes x k')
    (h' : k'.Passes y k'') : k.Passes (x ++ y) k'' where
  rest := by rw [h.rest, h'.rest, List.append_assoc]
  position := by
    rw [h'.position, h.position, h.tabWidth, Position.advanceOver_append]
  tabWidth := h'.tabWidth.trans h.tabWidth

theorem passes_skip_one {c : Char} {cs : List Char} (h : k.rest = c :: cs) :
    k.Passes [c] (k.skip 1) := by
  rw [skip_one k h]
  exact ⟨h, rfl, rfl⟩

theorem call_passes (k : Cursor) (op : Call) :
    k.Passes (passedBy op (k.call op).1) (k.call op).2 := by
  cases op with
  | bump =>
    cases hrest : k.rest with
    | nil =>
      rw [call, bump_of_end hrest]
      exact .refl k
    | cons c cs =>
      have hpeek : k.peek? = some c := by rw [peek?, hrest, List.head?_cons]
      rw [call, bump, hpeek]
      exact passes_skip_one hrest
  | peek => exact .refl k
  | eat c =>
    by_cases hhead : k.rest.head? = some c
    · obtain ⟨cs, hrest⟩ := List.head?_eq_some_iff.mp hhead
      rw [call, eat_of_head hhead]
      exact passes_skip_one hrest
    · rw [call, eat_of_ne hhead]
      exact .refl k
  | remaining => exact .refl k

theorem calls_passes (k : Cursor) (ops : List Call) :
    k.Passes (passed ops (k.calls ops).1) (k.calls ops).2 := by
  induction ops generalizing k with
  | nil => exact .refl k
  | cons op ops ih => exact (k.call_passes op).trans (ih (k.call op).2)

/-! ## Runs from the start of a text -/

/-- A cursor that has passed the characters `read` of a text. -/
structure Tracks (source : String) (tabWidth : UInt32) (read : List Char) (k : Cursor) :
    Prop where
  split : String.ofList read ++ k.remaining = source
  line : k.position.line.toNat = min 4294967295 (1 + read.count '\n')
  column : k.position.column.toNat =
    min 4294967295 (1 + ((lastLine read).map (Position.columnsOf tabWidth)).sum)
  /-- Looking moves nothing. -/
  peek : k.call .peek = (.character k.remaining.toList.head?, k)
  remaining : k.call .remaining = (.text k.remaining, k)
  /-- A character that does not come next is not passed, and one that does is. -/
  eat : ∀ c, (k.remaining.toList.head? ≠ some c ∧ k.call (.eat c) = (.eaten false, k)) ∨
    k.remaining.toList.head? = some c ∧ (k.call (.eat c)).1 = .eaten true
  bump : (k.call .bump).1 = .character k.remaining.toList.head?
  bump_end : k.remaining = "" → (k.call .bump).2 = k

theorem Passes.tracks {source : String} {tabWidth : UInt32} {read : List Char}
    (h : (ofString source tabWidth).Passes read k) : Tracks source tabWidth read k where
  split := by
    have hrest : source.toList = read ++ k.rest := h.rest
    rw [Cursor.remaining, ← String.ofList_append, ← hrest, String.ofList_toList]
  line := by
    rw [h.position]
    exact Position.toNat_line_advanceOver tabWidth Position.start read
  column := by
    rw [h.position]
    exact Position.toNat_column_advanceOver tabWidth read
  peek := by rw [call, Cursor.remaining, String.toList_ofList, peek?]
  remaining := rfl
  eat c := by
    rw [Cursor.remaining, String.toList_ofList, call]
    by_cases hhead : k.rest.head? = some c
    · exact .inr ⟨hhead, by rw [eat_of_head hhead]⟩
    · exact .inl ⟨hhead, by rw [eat_of_ne hhead]⟩
  bump := by rw [call, Cursor.bump, peek?, Cursor.remaining, String.toList_ofList]
  bump_end hend := by
    rw [Cursor.remaining, String.ofList_eq_empty_iff] at hend
    rw [call, bump_of_end hend]

/-- After any calls the characters passed and the unread text are the whole text, and the position
is given by what was passed. -/
theorem calls_tracks (source : String) (tabWidth : UInt32) (ops : List Call) :
    Tracks source tabWidth (passed ops ((ofString source tabWidth).calls ops).1)
      ((ofString source tabWidth).calls ops).2 :=
  (calls_passes (ofString source tabWidth) ops).tracks

-- Two tabs of the largest width stop at the largest column; the newline after them leaves it.
example : ((ofString "\t\t\nx" 4294967295).calls [.bump, .eat 'x', .bump]).2.position =
    ⟨1, 4294967295⟩ := by decide

end Cursor

end ProjectD
