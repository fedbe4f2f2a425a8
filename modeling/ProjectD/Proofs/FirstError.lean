import ProjectD.Proofs.Lines

/-! # Where the first error stands

A text with an error is a part that has tokens, followed by the text at fault. The position of the
error is the end of the first part, even when the scanner notices the fault only later, on the
character that ends a lexeme.
-/

set_option autoImplicit false

namespace ProjectD

/-- The text that an error complains about stands at the head of `rest`. -/
def LexError.StartsAt : LexError → List Char → Prop
  | .unrecognizedCharacter _ c, rest => rest.head? = some c
  | .malformedIdentifier _ lexeme, rest => lexeme ≠ "" ∧ lexeme.toList <+: rest
  | .malformedLiteral _ lexeme, rest => lexeme ≠ "" ∧ lexeme.toList <+: rest
  | .unterminatedString _ text, rest =>
    text.toList.head?.any Text.isQuote ∧ '\n' ∉ text.toList ∧
      ∃ after, rest = text.toList ++ after ∧ (after = [] ∨ after.head? = some '\n')
  | .unterminatedComment _, rest =>
    ∃ body, rest = '/' :: '*' :: body ∧ ¬ ['*', '/'] <:+: body
  | .unknownSeparator _ _, _ | .unknownOperator _ _, _ | .unknownKeyword _ _, _ => False

open Piece

theorem FaultAt.startsAt {f : Fault} {cs : List Char} (h : FaultAt f cs) (pos : Position) :
    (f.error pos).StartsAt cs := by
  cases h with
  | character hc => rfl
  | @string q body rest hq hline hbody hr =>
    refine ⟨?_, ?_, rest, ?_, hr⟩
    · simpa using hq
    · simpa using ⟨(isQuote_ne_newline hq).symm, hline⟩
    · simp
  | comment hb => exact ⟨_, rfl, hb⟩

theorem startsAt_of_classify {x : List Char} {pos : Position} {e : LexError} (hne : x ≠ [])
    (rest : List Char) (h : classify (String.ofList x) pos = .error e) :
    e.StartsAt (x ++ rest) := by
  have hne' : String.ofList x ≠ "" := by
    intro he
    apply hne
    rw [← String.toList_ofList (l := x), he]
    rfl
  have hpre : (String.ofList x).toList <+: x ++ rest := by
    rw [String.toList_ofList]
    exact List.prefix_append x rest
  rcases classify_error h with rfl | rfl
  · exact ⟨hne', hpre⟩
  · exact ⟨hne', hpre⟩

/-- The text before the first error of a scan has tokens of its own, and the error stands after it
whatever the tab width and wherever the text starts. The last clause carries the induction: the cut
never lies inside the opening of a comment. -/
theorem scan_error_uniform {tabWidth : UInt32} {pos : Position} {cs : List Char} {e : LexError}
    (h : scan tabWidth pos cs = .error e) :
    ∃ p rest, cs = p ++ rest ∧ e.StartsAt rest ∧
      (∀ tabWidth' pos', ∃ tokens, scan tabWidth' pos' p = .ok tokens) ∧
      (∀ tabWidth' pos', scan tabWidth' pos' cs =
        .error (e.moved fun _ => pos'.advanceOver tabWidth' p)) ∧
      (opensComment cs → p = [] ∨ opensComment p) := by
  induction cs using pieces_induction generalizing pos with
  | nil => simp at h
  | filler x cs hx ih =>
    rw [scan_filler hx] at h
    obtain ⟨p, rest, rfl, hrest, hp, herr, -⟩ := ih h
    refine ⟨x ++ p, rest, (List.append_assoc ..).symm, hrest, ?_, ?_, ?_⟩
    · intro tabWidth' pos'
      rw [scan_filler hx]
      exact hp _ _
    · intro tabWidth' pos'
      rw [scan_filler hx, herr, Position.advanceOver_append]
    · exact fun ho => .inr (hx.opensComment_append _ _ ho)
  | openLine x hx => simp [scan_openLine hx] at h
  | lexeme x cs hx ih =>
    obtain ⟨kind, hk⟩ | ⟨e', hk⟩ := classify_anywhere (String.ofList x)
    · rw [scan_lexeme_ok hx (hk pos)] at h
      cases hs : scan tabWidth (pos.advanceOver tabWidth x) cs with
      | ok tokens => simp [hs, Except.map] at h
      | error e' =>
        rw [hs] at h
        obtain rfl := Except.error.inj h
        obtain ⟨p, rest, rfl, hrest, hp, herr, hcut⟩ := ih hs
        have hx' : LexemeAt x p := hx.truncate hcut
        refine ⟨x ++ p, rest, (List.append_assoc ..).symm, hrest, ?_, ?_, ?_⟩
        · intro tabWidth' pos'
          obtain ⟨tokens, htokens⟩ := hp tabWidth' (pos'.advanceOver tabWidth' x)
          exact ⟨_, by rw [scan_lexeme_ok hx' (hk pos'), htokens]; rfl⟩
        · intro tabWidth' pos'
          rw [scan_lexeme_ok hx (hk pos'), herr, Position.advanceOver_append]
          rfl
        · intro ho
          simp [hx.opensComment_eq_false] at ho
    · rw [scan_lexeme_error hx (hk pos)] at h
      obtain rfl := Except.error.inj h
      have hstart := startsAt_of_classify hx.ne_nil cs (hk pos)
      refine ⟨[], x ++ cs, rfl, hstart, fun _ _ => ⟨[], scan_nil⟩, ?_, fun _ => .inl rfl⟩
      intro tabWidth' pos'
      rw [LexError.moved_moved]
      exact scan_lexeme_error hx (hk pos')
  | fault f cs hf =>
    rw [scan_fault hf] at h
    obtain rfl := Except.error.inj h
    refine ⟨[], cs, rfl, hf.startsAt pos, fun _ _ => ⟨[], scan_nil⟩, ?_, fun _ => .inl rfl⟩
    intro tabWidth' pos'
    rw [scan_fault hf]
    cases f <;> rfl

theorem scan_error_split {tabWidth : UInt32} {pos : Position} {cs : List Char} {e : LexError}
    (h : scan tabWidth pos cs = .error e) :
    ∃ p rest, cs = p ++ rest ∧ (∃ tokens, scan tabWidth pos p = .ok tokens) ∧
      e.position = pos.advanceOver tabWidth p ∧ e.StartsAt rest ∧
      (opensComment cs → p = [] ∨ opensComment p) := by
  obtain ⟨p, rest, hcs, hrest, hp, herr, hcut⟩ := scan_error_uniform h
  have hpos := LexError.position_of_moved (Except.error.inj (h.symm.trans (herr tabWidth pos)))
  exact ⟨p, rest, hcs, hp tabWidth pos, hpos, hrest, hcut⟩

/-- A text with an error is a text that has tokens, up to the position of the error, and then the
text that the error complains about. -/
theorem tokenize_error_split {source : String} {tabWidth : UInt32} {e : LexError}
    (h : tokenize source tabWidth = .error e) :
    ∃ p rest : String, source = p ++ rest ∧ (∃ tokens, tokenize p tabWidth = .ok tokens) ∧
      e.position = Position.start.advanceOver tabWidth p.toList ∧ e.StartsAt rest.toList := by
  rw [tokenize_eq_map, Scanner.run_ofString] at h
  obtain ⟨p, rest, hsource, ⟨tokens, hp⟩, hpos, hrest, -⟩ := scan_error_split h
  refine ⟨String.ofList p, String.ofList rest, ?_, ⟨tokens, ?_⟩, ?_, ?_⟩
  · rw [← String.toList_inj, String.toList_append, String.toList_ofList, String.toList_ofList,
      hsource]
  · rw [tokenize_eq_map, Scanner.run_ofString, String.toList_ofList, hp]
  · rw [String.toList_ofList, hpos]
  · rw [String.toList_ofList]
    exact hrest

/-- The number is at fault, not the character that ends it. -/
theorem tokenize_error_split_number :
    tokenize "x:=/* y\n */ 1.5z#" 4 = .error (.malformedLiteral ⟨2, 5⟩ "1.5z") ∧
      ∃ p rest : String, "x:=/* y\n */ 1.5z#" = p ++ rest ∧
        (∃ tokens, tokenize p 4 = .ok tokens) ∧
        (⟨2, 5⟩ : Position) = Position.start.advanceOver 4 p.toList ∧
        (LexError.malformedLiteral ⟨2, 5⟩ "1.5z").StartsAt rest.toList := by
  have h : tokenize "x:=/* y\n */ 1.5z#" 4 = .error (.malformedLiteral ⟨2, 5⟩ "1.5z") := by
    decide +kernel
  exact ⟨h, tokenize_error_split h⟩

end ProjectD
