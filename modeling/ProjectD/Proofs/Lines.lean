import ProjectD.Proofs.Classification
import ProjectD.Proofs.Lookahead
import ProjectD.Proofs.Simulation

/-! # Texts line by line

After the end of a line the scanner has nothing left to decide, so a text can be scanned in parts
that end with a newline. The later part is scanned as if it stood alone, only further down.

* `Piece.scan_moved`: a scan that starts elsewhere finds the same, moved along.
* `Piece.scan_append_line`: the scan of two parts is the scan of the first and then of the second.
-/

set_option autoImplicit false

namespace ProjectD

/-! ## Tokens and errors at other positions -/

/-- The token at another position. -/
def Token.moved (f : Position → Position) (t : Token) : Token :=
  { t with position := f t.position }

/-- The error at another position. -/
def LexError.moved (f : Position → Position) : LexError → LexError
  | unrecognizedCharacter pos c => .unrecognizedCharacter (f pos) c
  | unterminatedString pos text => .unterminatedString (f pos) text
  | unterminatedComment pos => .unterminatedComment (f pos)
  | malformedIdentifier pos lexeme => .malformedIdentifier (f pos) lexeme
  | malformedLiteral pos lexeme => .malformedLiteral (f pos) lexeme
  | unknownSeparator pos lexeme => .unknownSeparator (f pos) lexeme
  | unknownOperator pos lexeme => .unknownOperator (f pos) lexeme
  | unknownKeyword pos lexeme => .unknownKeyword (f pos) lexeme

theorem LexError.position_moved (f : Position → Position) (e : LexError) :
    (e.moved f).position = f e.position := by
  cases e <;> rfl

theorem LexError.position_of_moved {e : LexError} {p : Position} (h : e = e.moved fun _ => p) :
    e.position = p := by
  rw [h, position_moved]

theorem LexError.moved_moved (f g : Position → Position) (e : LexError) :
    (e.moved f).moved g = e.moved (g ∘ f) := by
  cases e <;> rfl

/-- A lexeme is the same token or the same error wherever it stands. -/
theorem classify_anywhere (lexeme : String) :
    (∃ kind, ∀ pos, classify lexeme pos = .ok ⟨lexeme, pos, kind⟩) ∨
      ∃ e : LexError, ∀ pos, classify lexeme pos = .error (e.moved fun _ => pos) := by
  obtain h | h | h := classify_cases lexeme
  · exact .inl h
  · exact .inr ⟨.malformedLiteral .start lexeme, h⟩
  · exact .inr ⟨.malformedIdentifier .start lexeme, h⟩

/-- The tokens or the error at other positions. -/
def moveResult (f : Position → Position) :
    Except LexError (List Token) → Except LexError (List Token)
  | .ok tokens => .ok (tokens.map (·.moved f))
  | .error e => .error (e.moved f)

namespace Piece

theorem moveResult_map_cons (f : Position → Position) (r : Except LexError (List Token))
    (token : Token) :
    moveResult f (r.map (token :: ·)) = (moveResult f r).map (token.moved f :: ·) := by
  cases r <;> rfl

theorem advanceOver_moved {f : Position → Position} {tabWidth : UInt32}
    (hf : ∀ p c, (f p).advance tabWidth c = f (p.advance tabWidth c)) (p : Position)
    (cs : List Char) : (f p).advanceOver tabWidth cs = f (p.advanceOver tabWidth cs) := by
  induction cs generalizing p with
  | nil => rfl
  | cons c cs ih => rw [Position.advanceOver_cons, Position.advanceOver_cons, hf, ih]

theorem scan_moved {f : Position → Position} {tabWidth : UInt32}
    (hf : ∀ p c, (f p).advance tabWidth c = f (p.advance tabWidth c)) (pos : Position)
    (cs : List Char) : scan tabWidth (f pos) cs = moveResult f (scan tabWidth pos cs) := by
  induction cs using pieces_induction generalizing pos with
  | nil =>
    rw [scan_nil, scan_nil]
    rfl
  | filler x rest hx ih => rw [scan_filler hx, scan_filler hx, advanceOver_moved hf, ih]
  | openLine x hx =>
    rw [scan_openLine hx, scan_openLine hx]
    rfl
  | lexeme x rest hx ih =>
    obtain ⟨kind, hk⟩ | hk | hk := classify_cases (String.ofList x)
    · rw [scan_lexeme_ok hx (hk (f pos)), scan_lexeme_ok hx (hk pos), advanceOver_moved hf, ih,
        moveResult_map_cons]
      rfl
    · rw [scan_lexeme_error hx (hk (f pos)), scan_lexeme_error hx (hk pos)]
      rfl
    · rw [scan_lexeme_error hx (hk (f pos)), scan_lexeme_error hx (hk pos)]
      rfl
  | fault cause cs hc =>
    rw [scan_fault hc, scan_fault hc]
    cases cause <;> rfl

/-! ## Scanning in parts -/

/-- What the scan of `cs ++ t` is, when that of `cs` is `r` and that of `t`, started after `cs`, is
`after`. A comment that `cs` leaves open may be closed by `t`: nothing is said then. -/
def Continues (r after whole : Except LexError (List Token)) : Prop :=
  match r with
  | .ok tokens => whole = after.map (tokens ++ ·)
  | .error (.unterminatedComment _) => True
  | .error e => whole = .error e

theorem continues_cons {r after whole : Except LexError (List Token)} (token : Token)
    (h : Continues r after whole) :
    Continues (r.map (token :: ·)) after (whole.map (token :: ·)) := by
  cases r with
  | ok tokens =>
    obtain rfl := h
    cases after <;> rfl
  | error e =>
    cases e with
    | unterminatedComment pos => trivial
    | _ =>
      obtain rfl := h
      rfl

theorem scan_append_line (tabWidth : UInt32) (pos : Position) {cs : List Char}
    (hline : cs = [] ∨ EndsLine cs) (t : List Char) :
    Continues (scan tabWidth pos cs) (scan tabWidth (pos.advanceOver tabWidth cs) t)
      (scan tabWidth pos (cs ++ t)) := by
  induction cs using pieces_induction generalizing pos with
  | nil =>
    rw [scan_nil]
    cases h : scan tabWidth pos t <;> simp [Continues, Except.map, h]
  | filler x rest hx ih =>
    have hrest : rest = [] ∨ EndsLine rest := by
      rcases hline with hnil | hline
      · exact .inl (List.append_eq_nil_iff.mp hnil).2
      · exact hline.of_append.imp And.left id
    rw [List.append_assoc, scan_filler hx, scan_filler hx, Position.advanceOver_append]
    exact ih _ hrest
  | openLine x hx =>
    rcases hline with rfl | hline
    · obtain ⟨body, -, hnil⟩ := hx
      simp at hnil
    · exact absurd hline hx.not_endsLine
  | lexeme x rest hx ih =>
    have hline' : EndsLine (x ++ rest) :=
      hline.resolve_left fun hnil => hx.ne_nil (List.append_eq_nil_iff.mp hnil).1
    have hrest : rest = [] ∨ EndsLine rest := hline'.of_append.imp And.left id
    have hx' : LexemeAt x (rest ++ t) := hx.extend hline' t
    rw [List.append_assoc]
    cases hc : classify (String.ofList x) pos with
    | error e =>
      rw [scan_lexeme_error hx hc, scan_lexeme_error hx' hc]
      rcases classify_error hc with rfl | rfl <;> rfl
    | ok token =>
      rw [scan_lexeme_ok hx hc, scan_lexeme_ok hx' hc, Position.advanceOver_append]
      exact continues_cons token (ih _ hrest)
  | fault f cs hf =>
    have hline' : EndsLine cs := by
      refine hline.resolve_left ?_
      rintro rfl
      cases hf
    rw [scan_fault hf]
    by_cases hcomment : f = .comment
    · subst hcomment
      trivial
    · rw [scan_fault (hf.extend hline' hcomment t)]
      cases f with
      | comment => exact absurd rfl hcomment
      | _ => rfl

end Piece

/-! ## Lines of a source -/

/-- The token `k` lines further down. -/
def Token.down (k : Nat) (t : Token) : Token :=
  t.moved (Position.down k)

/-- The error `k` lines further down. -/
def LexError.down (k : Nat) (e : LexError) : LexError :=
  e.moved (Position.down k)

/-- How many newlines a text holds. -/
def newlineCount (s : String) : Nat :=
  s.toList.count '\n'

open Piece

theorem tokenize_line_continues (s t : String) (tabWidth : UInt32) :
    Continues (tokenize (s ++ "\n") tabWidth)
      (moveResult (Position.down (newlineCount (s ++ "\n"))) (tokenize t tabWidth))
      (tokenize (s ++ "\n" ++ t) tabWidth) := by
  have htoList : (s ++ "\n").toList = s.toList ++ ['\n'] := String.toList_append
  have hline : EndsLine (s ++ "\n").toList := by
    rw [htoList, EndsLine, List.getLast?_concat]
  have hpos : Position.start.advanceOver tabWidth (s ++ "\n").toList =
      Position.start.down (newlineCount (s ++ "\n")) := by
    rw [newlineCount, htoList]
    exact Position.advanceOver_newline tabWidth Position.start s.toList
  have hscan := scan_append_line tabWidth Position.start (.inr hline) t.toList
  rw [hpos, scan_moved (fun p c => Position.advance_down tabWidth _ p c)] at hscan
  simpa only [tokenize_eq_map, Scanner.run_ofString, String.toList_append] using hscan

/-- Lines compose. When the lines `s` have tokens, what follows them is scanned as if it stood
alone, as many lines down as they have newlines. When they have an error other than an open comment,
it is the error of every longer text. -/
theorem tokenize_append_line (s t : String) (tabWidth : UInt32) :
    (∀ a, tokenize (s ++ "\n") tabWidth = .ok a →
      (∀ b, tokenize t tabWidth = .ok b →
        tokenize (s ++ "\n" ++ t) tabWidth =
          .ok (a ++ b.map (·.down (newlineCount (s ++ "\n"))))) ∧
      ∀ e, tokenize t tabWidth = .error e →
        tokenize (s ++ "\n" ++ t) tabWidth = .error (e.down (newlineCount (s ++ "\n")))) ∧
    ∀ e, tokenize (s ++ "\n") tabWidth = .error e → (∀ pos, e ≠ .unterminatedComment pos) →
      tokenize (s ++ "\n" ++ t) tabWidth = .error e := by
  have h := tokenize_line_continues s t tabWidth
  refine ⟨?_, ?_⟩
  · intro a ha
    rw [ha] at h
    refine ⟨?_, ?_⟩
    · intro b hb
      rw [hb] at h
      exact h
    · intro e he
      rw [he] at h
      exact h
  · intro e he hne
    rw [he] at h
    cases e with
    | unterminatedComment pos => exact absurd rfl (hne pos)
    | _ => exact h

/-- The tokens of two lines with a comment across them. -/
def blockLines : List Token :=
  [⟨"a", ⟨1, 1⟩, .identifier "a"⟩, ⟨"+", ⟨2, 3⟩, .operator .plus⟩,
    ⟨"\n", ⟨2, 4⟩, .separator .newline⟩]

theorem tokenize_append_line_block :
    tokenize ("a/*\n*/+" ++ "\n") 4 = .ok blockLines ∧
      tokenize ("a/*\n*/+" ++ "\n" ++ "\t+ //") 4 =
        .ok (blockLines ++ [⟨"+", ⟨3, 5⟩, .operator .plus⟩]) ∧
      tokenize ("a/*\n*/+" ++ "\n" ++ "\n'b") 4 =
        .error (.unterminatedString ⟨4, 1⟩ "'b") ∧
      tokenize ("1b" ++ "\n" ++ "/*") 4 = .error (.malformedLiteral ⟨1, 1⟩ "1b") := by
  have hlines : tokenize ("a/*\n*/+" ++ "\n") 4 = .ok blockLines := by decide +kernel
  have hplus : tokenize "\t+ //" 4 = .ok [⟨"+", ⟨1, 5⟩, .operator .plus⟩] := by decide +kernel
  have hquote : tokenize "\n'b" 4 = .error (.unterminatedString ⟨2, 1⟩ "'b") := by decide +kernel
  have hliteral : tokenize ("1b" ++ "\n") 4 = .error (.malformedLiteral ⟨1, 1⟩ "1b") := by
    decide +kernel
  refine ⟨hlines, ?_, ?_, ?_⟩
  · exact ((tokenize_append_line "a/*\n*/+" "\t+ //" 4).1 _ hlines).1 _ hplus
  · exact ((tokenize_append_line "a/*\n*/+" "\n'b" 4).1 _ hlines).2 _ hquote
  · exact (tokenize_append_line "1b" "/*" 4).2 _ hliteral (by simp)

end ProjectD
