import Mathlib.Data.List.Chain
import ProjectD.Proofs.Kinds
import ProjectD.Proofs.Simulation

/-! # Texts that can stand between quotes

Which texts make one literal of a whole source when a quote is put on either side
(`tokenize_quoted_iff`). A quote in the text must follow a backslash, whatever stands before that
one: the scanner looks one character back and no further.
-/

set_option autoImplicit false

namespace ProjectD

/-- The chain of pairs, said for each place of the quote. -/
theorem escaped_iff {q b : Char} {cs : List Char} :
    Escaped q b cs ↔
      ∀ before after, cs = before ++ q :: after → (b :: before).getLast? = some '\\' := by
  rw [Escaped, List.isChain_iff_forall_rel_of_append_cons_cons]
  constructor
  · rintro h before after rfl
    obtain ⟨front, x, hx⟩ : ∃ front x, b :: before = front ++ [x] :=
      ⟨_, _, (List.dropLast_append_getLast (List.cons_ne_nil b before)).symm⟩
    have hsplit : b :: (before ++ q :: after) = front ++ x :: q :: after := by
      rw [← List.cons_append, hx, List.append_assoc, List.singleton_append]
    rw [hx, List.getLast?_concat, h hsplit rfl]
  · rintro h x y front after hsplit rfl
    cases front with
    | nil =>
      obtain ⟨rfl, rfl⟩ := List.cons.inj hsplit
      simpa using h [] after rfl
    | cons d front =>
      obtain ⟨rfl, rfl⟩ := List.cons.inj hsplit
      have hlast := h (front ++ [x]) after (by simp)
      rw [← List.cons_append, List.getLast?_concat] at hlast
      exact Option.some.inj hlast

/-- No newline, no backslash at the end, and a backslash directly before each quote `q`. -/
structure IsQuotable (q : Char) (cs : List Char) : Prop where
  newline_not_mem : '\n' ∉ cs
  getLast?_ne : cs.getLast? ≠ some '\\'
  escaped (before after : List Char) (h : cs = before ++ q :: after) :
    before.getLast? = some '\\'

theorem isQuotable_iff {q : Char} (hq : Text.isQuote q) {cs : List Char} :
    IsQuotable q cs ↔ '\n' ∉ cs ∧ Escaped q q cs ∧ cs.getLast? ≠ some '\\' := by
  have hlast (before : List Char) :
      (q :: before).getLast? = some '\\' ↔ before.getLast? = some '\\' :=
    not_iff_not.mp (Piece.getLast?_cons_quote hq before)
  simp only [escaped_iff, hlast]
  exact ⟨fun ⟨hn, hl, he⟩ => ⟨hn, he, hl⟩, fun ⟨hn, he, hl⟩ => ⟨hn, hl, he⟩⟩

theorem scan_quoted {q : Char} (hq : Text.isQuote q) {cs : List Char} (h : IsQuotable q cs)
    (tabWidth : UInt32) (pos : Position) :
    Piece.scan tabWidth pos (q :: (cs ++ [q])) =
      .ok [⟨String.ofList (q :: (cs ++ [q])), pos, .literal (.string (String.ofList cs))⟩] := by
  obtain ⟨hline, hbody, hlast⟩ := (isQuotable_iff hq).mp h
  have hlexeme : LexemeAt (q :: (cs ++ [q])) [] := .quoted hq hline hbody hlast
  have hscan : Piece.scan tabWidth pos (q :: (cs ++ [q]) ++ []) = _ :=
    Piece.scan_lexeme_ok hlexeme (classify_quoted hq cs pos)
  rw [List.append_nil, Piece.scan_nil] at hscan
  exact hscan

/-- A scan that starts at a quote and whose first token is the whole text has closed no earlier. -/
theorem isQuotable_of_scan {q : Char} (hq : Text.isQuote q) {cs : List Char} {tabWidth : UInt32}
    {pos : Position} {token : Token} {tokens : List Token}
    (h : Piece.scan tabWidth pos (q :: (cs ++ [q])) = .ok (token :: tokens))
    (hwhole : token.lexeme = String.ofList (q :: (cs ++ [q]))) : IsQuotable q cs := by
  rcases Piece.quote_split hq (cs ++ [q]) with
    ⟨body, rest, hsplit, hline, hbody, hlast⟩ | ⟨body, rest, hsplit, hline, hbody, hrest⟩
  · have hlexeme : LexemeAt (q :: (body ++ [q])) rest := .quoted hq hline hbody hlast
    have htext : q :: (cs ++ [q]) = q :: (body ++ [q]) ++ rest := by
      rw [hsplit]
      simp
    rw [htext] at h
    obtain ⟨first, more, hclass, -, hcons⟩ := Piece.scan_lexeme_eq_ok hlexeme h
    obtain ⟨rfl, rfl⟩ := List.cons.inj hcons
    rw [(classify_ok hclass).1, String.ofList_inj] at hwhole
    obtain rfl : body = cs := List.append_cancel_right (List.cons.inj hwhole).2
    exact (isQuotable_iff hq).mpr ⟨hline, hbody, hlast⟩
  · rw [hsplit, Piece.scan_fault (.string hq hline hbody hrest)] at h
    cases h

/-- A text between two quotes is one literal, with that text as its value and the whole source as
its lexeme, exactly when it is quotable. -/
theorem tokenize_quoted_iff {q : Char} (hq : q = '"' ∨ q = '\'') (text : String)
    (tabWidth : UInt32) :
    tokenize (String.singleton q ++ text ++ String.singleton q) tabWidth =
        .ok [⟨String.singleton q ++ text ++ String.singleton q, ⟨1, 1⟩, .literal (.string text)⟩] ↔
      IsQuotable q text.toList := by
  have hquote : Text.isQuote q := (Piece.isQuote_iff q).mpr hq
  have hsource : (String.singleton q ++ text ++ String.singleton q).toList =
      q :: (text.toList ++ [q]) := by
    simp
  have hlexeme : String.ofList (q :: (text.toList ++ [q])) =
      String.singleton q ++ text ++ String.singleton q := by
    rw [← hsource, String.ofList_toList]
  rw [tokenize_eq_map, Scanner.run_ofString, hsource]
  constructor
  · intro h
    exact isQuotable_of_scan hquote h hlexeme.symm
  · intro h
    rw [scan_quoted hquote h, hlexeme, String.ofList_toList]
    rfl

/-- Two backslashes before a quote do not free it, and the other quote, a carriage return and the
opening of a comment are plain text. A quote without a backslash closes early, even if a comment
hides the rest. -/
theorem tokenize_quoted_iff_slashes :
    tokenize "\"a\\\\\"'\r//b\"" 4 =
        .ok [⟨"\"a\\\\\"'\r//b\"", ⟨1, 1⟩, .literal (.string "a\\\\\"'\r//b")⟩] ∧
      tokenize "\"a\"// \"" 4 ≠ .ok [⟨"\"a\"// \"", ⟨1, 1⟩, .literal (.string "a\"// ")⟩] := by
  constructor
  · refine (tokenize_quoted_iff (.inl rfl) "a\\\\\"'\r//b" 4).mpr ?_
    refine (isQuotable_iff (by decide)).mpr ⟨by decide, ?_, by decide⟩
    unfold Escaped
    decide
  · intro h
    have hquotable := (tokenize_quoted_iff (.inl rfl) "a\"// " 4).mp h
    exact absurd (hquotable.escaped ['a'] "// ".toList rfl) (by decide)

end ProjectD
