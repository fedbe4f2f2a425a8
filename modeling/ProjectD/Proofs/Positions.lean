import Mathlib.Data.List.DropRight
import Mathlib.Order.Basic
import ProjectD.Text.Cursor

/-! # Moving over text

Passing one text and then another is passing both at once, for positions and for cursors. A line
number counts the newlines that were passed until it reaches the largest word, and a column depends
on the text of its line alone (`lastLine`), so a text that starts lower on the page has the same
columns.
-/

set_option autoImplicit false

namespace ProjectD

theorem toNat_satAdd (a b : UInt32) :
    (satAdd a b).toNat = min 4294967295 (a.toNat + b.toNat) := by
  have hsize : UInt32.size = 4294967296 := rfl
  unfold satAdd
  split
  · next h =>
    rw [UInt32.toNat_add, Nat.mod_eq_of_lt (by omega)]
    omega
  · next h =>
    have he : (0xFFFFFFFF : UInt32).toNat = 4294967295 := rfl
    omega

/-- The part of a text after its last newline. -/
def lastLine (cs : List Char) : List Char :=
  cs.rtakeWhile (· ≠ '\n')

theorem lastLine_newline (cs : List Char) : lastLine (cs ++ ['\n']) = [] := by
  rw [lastLine, List.rtakeWhile_concat, if_neg (by simp)]

theorem lastLine_concat {c : Char} (hc : c ≠ '\n') (cs : List Char) :
    lastLine (cs ++ [c]) = lastLine cs ++ [c] := by
  rw [lastLine, List.rtakeWhile_concat, if_pos (by simpa using hc), lastLine]

namespace Position

@[simp] theorem advanceOver_nil (tabWidth : UInt32) (p : Position) :
    p.advanceOver tabWidth [] = p := rfl

theorem advanceOver_cons (tabWidth : UInt32) (p : Position) (c : Char) (cs : List Char) :
    p.advanceOver tabWidth (c :: cs) = (p.advance tabWidth c).advanceOver tabWidth cs := rfl

theorem advanceOver_append (tabWidth : UInt32) (p : Position) (x y : List Char) :
    p.advanceOver tabWidth (x ++ y) = (p.advanceOver tabWidth x).advanceOver tabWidth y :=
  List.foldl_append

/-- The same column `k` lines further down, or in the last line that a word can count. -/
def down (k : Nat) (p : Position) : Position :=
  ⟨UInt32.ofNat (min 4294967295 (p.line.toNat + k)), p.column⟩

theorem toNat_line_down (k : Nat) (p : Position) :
    (p.down k).line.toNat = min 4294967295 (p.line.toNat + k) := by
  have hlt : min 4294967295 (p.line.toNat + k) < 4294967296 := by omega
  exact UInt32.toNat_ofNat_of_lt' hlt

theorem advance_down (tabWidth : UInt32) (k : Nat) (p : Position) (c : Char) :
    (p.down k).advance tabWidth c = (p.advance tabWidth c).down k := by
  unfold advance
  split
  · have hline : satAdd (p.down k).line 1 = UInt32.ofNat
        (min 4294967295 ((satAdd p.line 1).toNat + k)) := by
      have hlt : min 4294967295 ((satAdd p.line 1).toNat + k) < 4294967296 := by omega
      rw [← UInt32.toNat_inj, UInt32.toNat_ofNat_of_lt' hlt, toNat_satAdd, toNat_satAdd,
        toNat_line_down]
      have hone : (1 : UInt32).toNat = 1 := rfl
      omega
    exact congrArg (Position.mk · 1) hline
  · split <;> rfl

/-- The line after a text counts its newlines. -/
theorem toNat_line_advanceOver (tabWidth : UInt32) (p : Position) (cs : List Char) :
    (p.advanceOver tabWidth cs).line.toNat =
      min 4294967295 (p.line.toNat + cs.count '\n') := by
  induction cs generalizing p with
  | nil =>
    have hlt := p.line.toNat_lt
    rw [advanceOver_nil, List.count_nil]
    omega
  | cons c cs ih =>
    rw [advanceOver_cons, ih, List.count_cons]
    by_cases hc : c = '\n'
    · have hone : (1 : UInt32).toNat = 1 := rfl
      have hline : (p.advance tabWidth c).line.toNat = min 4294967295 (p.line.toNat + 1) := by
        rw [advance, if_pos hc, toNat_satAdd, hone]
      rw [hline, if_pos (by simpa using hc)]
      omega
    · have hline : (p.advance tabWidth c).line = p.line := by
        rw [advance, if_neg hc]
        split <;> rfl
      rw [hline, if_neg (by simpa using hc), Nat.add_zero]

/-- After a text that ends a line stands the first column, as many lines down as it has newlines. -/
theorem advanceOver_newline (tabWidth : UInt32) (p : Position) (cs : List Char) :
    p.advanceOver tabWidth (cs ++ ['\n']) = down ((cs ++ ['\n']).count '\n') ⟨p.line, 1⟩ := by
  have hline := toNat_line_advanceOver tabWidth p (cs ++ ['\n'])
  have hcolumn : (p.advanceOver tabWidth (cs ++ ['\n'])).column = 1 := by
    rw [advanceOver_append]
    rfl
  have hdown := toNat_line_down ((cs ++ ['\n']).count '\n') ⟨p.line, 1⟩
  generalize p.advanceOver tabWidth (cs ++ ['\n']) = q at hline hcolumn ⊢
  obtain ⟨line, column⟩ := q
  have hq : line = (down ((cs ++ ['\n']).count '\n') ⟨p.line, 1⟩).line := by
    rw [← UInt32.toNat_inj, hdown]
    exact hline
  exact congr (congrArg Position.mk hq) hcolumn

end Position

namespace Cursor

theorem skip_append (k : Cursor) {x rest : List Char} (h : k.rest = x ++ rest) :
    k.skip x.length = ⟨rest, k.position.advanceOver k.tabWidth x, k.tabWidth⟩ := by
  simp [skip, h]

theorem skip_one (k : Cursor) {c : Char} {cs : List Char} (h : k.rest = c :: cs) :
    k.skip 1 = ⟨cs, k.position.advanceOver k.tabWidth [c], k.tabWidth⟩ :=
  skip_append k (x := [c]) h

theorem skip_skip (k : Cursor) (m n : Nat) : (k.skip m).skip n = k.skip (m + n) := by
  simp only [skip, List.drop_drop, Cursor.mk.injEq, true_and, and_true]
  rw [List.take_add, Position.advanceOver_append]

end Cursor

end ProjectD
