import Mathlib.Data.List.Chain
import Mathlib.Data.List.Infix
import Mathlib.Data.List.TakeWhile
import ProjectD.Proofs.Pieces
import ProjectD.Scanner

/-! # Runs, comments and quoted literals

The searches that find the end of a piece, each with its two readings: where the end lies when it is
there (`Piece.blockEnd?_closing`, `Piece.quoteEnd?_line`), and what the text is like when it is not.
A text splits accordingly (`Piece.line_split`, `Piece.block_split`, `Piece.quote_split`). The spans
that the scanner takes are the same searches.
-/

set_option autoImplicit false

namespace ProjectD

/-- Every `q` of a text stands directly after a backslash. `before` is what stands before the
text. -/
def Escaped (q before : Char) (cs : List Char) : Prop :=
  (before :: cs).IsChain fun b c => c = q → b = '\\'

/-! ## Runs of a class -/

theorem takeWhile_append_stop {p : Char → Bool} {x rest : List Char} (hx : ∀ c ∈ x, p c)
    (hr : rest.head?.any p = false) : (x ++ rest).takeWhile p = x := by
  rw [List.takeWhile_append_of_pos hx]
  cases rest with
  | nil => simp
  | cons c cs =>
    have hc : p c = false := by simpa using hr
    simp [hc]

theorem dropWhile_append_stop {p : Char → Bool} {x rest : List Char} (hx : ∀ c ∈ x, p c)
    (hr : rest.head?.any p = false) : (x ++ rest).dropWhile p = rest := by
  rw [List.dropWhile_append_of_pos hx]
  cases rest with
  | nil => simp
  | cons c cs =>
    have hc : p c = false := by simpa using hr
    simp [hc]

theorem head?_dropWhile_any (p : Char → Bool) (cs : List Char) :
    (cs.dropWhile p).head?.any p = false := by
  have h := List.head?_dropWhile_not p cs
  cases hd : (cs.dropWhile p).head? with
  | none => rfl
  | some c =>
    rw [hd] at h
    simpa using h

theorem not_mem_takeWhile_ne (c : Char) (cs : List Char) : c ∉ cs.takeWhile (· ≠ c) := by
  intro h
  simpa using List.mem_takeWhile_imp h

theorem takeWhile_ne_append {c : Char} {x rest : List Char} (hx : c ∉ x)
    (hr : rest = [] ∨ rest.head? = some c) : (x ++ rest).takeWhile (· ≠ c) = x := by
  apply takeWhile_append_stop
  · intro a ha
    have : a ≠ c := fun e => hx (e ▸ ha)
    simpa using this
  · rcases hr with rfl | hr
    · rfl
    · simp [hr]

/-- What follows the first line of a text is nothing or a newline. -/
theorem dropWhile_ne_cases (c : Char) (cs : List Char) :
    cs.dropWhile (· ≠ c) = [] ∨ (cs.dropWhile (· ≠ c)).head? = some c := by
  have h := head?_dropWhile_any (· ≠ c) cs
  cases hd : cs.dropWhile (· ≠ c) with
  | nil => exact .inl rfl
  | cons a as =>
    rw [hd] at h
    right
    simpa using h

/-! ## Where a comment and a quoted literal end -/

namespace Piece

theorem blockEnd?_cons (c : Char) (cs : List Char) :
    blockEnd? (c :: cs) =
      if c = '*' ∧ cs.head? = some '/' then some 0 else (blockEnd? cs).map (· + 1) := by
  cases cs with
  | nil => simp [blockEnd?]
  | cons d ds => simp [blockEnd?, List.findIdx?_cons]

theorem closing_infix_cons (c : Char) (cs : List Char) :
    ['*', '/'] <:+: c :: cs ↔ (c = '*' ∧ cs.head? = some '/') ∨ ['*', '/'] <:+: cs := by
  rw [List.infix_cons_iff]
  cases cs with
  | nil => simp
  | cons d ds => simp [List.cons_prefix_cons, eq_comm]

theorem blockEnd?_eq_none_iff (cs : List Char) : blockEnd? cs = none ↔ ¬ ['*', '/'] <:+: cs := by
  induction cs with
  | nil => simp [blockEnd?]
  | cons c cs ih =>
    rw [blockEnd?_cons, closing_infix_cons]
    split
    · next h => simp [h]
    · next h => simp [h, ih]

/-- A block comment ends at the first closing. -/
theorem blockEnd?_closing {body : List Char} (rest : List Char)
    (h : ¬ ['*', '/'] <:+: body ++ ['*']) :
    blockEnd? (body ++ '*' :: '/' :: rest) = some body.length := by
  induction body with
  | nil => simp [blockEnd?_cons]
  | cons c body ih =>
    rw [List.cons_append, closing_infix_cons, not_or] at h
    have hc : ¬ (c = '*' ∧ (body ++ '*' :: '/' :: rest).head? = some '/') := by
      intro hc
      apply h.1
      refine ⟨hc.1, ?_⟩
      cases body with
      | nil => simp at hc
      | cons d ds => simpa using hc.2
    rw [List.cons_append, blockEnd?_cons, if_neg hc, ih h.2]
    simp

theorem exists_closing_of_blockEnd? {cs : List Char} {n : Nat} (h : blockEnd? cs = some n) :
    ∃ body rest, cs = body ++ '*' :: '/' :: rest ∧ n = body.length ∧
      ¬ ['*', '/'] <:+: body ++ ['*'] := by
  induction cs generalizing n with
  | nil => simp [blockEnd?] at h
  | cons c cs ih =>
    rw [blockEnd?_cons] at h
    split at h
    · next hc =>
      obtain ⟨rfl, hs⟩ := hc
      obtain ⟨rest, rfl⟩ := List.head?_eq_some_iff.mp hs
      simp only [Option.some.injEq] at h
      exact ⟨[], rest, rfl, h.symm, by decide⟩
    · next hc =>
      obtain ⟨m, hm, rfl⟩ := Option.map_eq_some_iff.mp h
      obtain ⟨body, rest, rfl, rfl, hb⟩ := ih hm
      refine ⟨c :: body, rest, rfl, rfl, ?_⟩
      rw [List.cons_append, closing_infix_cons, not_or]
      refine ⟨?_, hb⟩
      rintro ⟨rfl, hs⟩
      apply hc
      refine ⟨rfl, ?_⟩
      cases body with
      | nil => simp at hs
      | cons d ds => simpa using hs

theorem quoteEnd?_cons (q b c : Char) (cs : List Char) :
    quoteEnd? q b (c :: cs) =
      if c = q ∧ b ≠ '\\' then some 0 else (quoteEnd? q c cs).map (· + 1) := by
  simp [quoteEnd?, List.findIdx?_cons]

theorem quoteEnd?_eq_none_iff (q b : Char) (cs : List Char) :
    quoteEnd? q b cs = none ↔ Escaped q b cs := by
  induction cs generalizing b with
  | nil => simp [quoteEnd?, Escaped]
  | cons c cs ih =>
    rw [quoteEnd?_cons, Escaped, List.isChain_cons_cons]
    split
    · next h => simp [h]
    · next h =>
      rw [Option.map_eq_none_iff, ih c]
      simp only [ne_eq, not_and, Decidable.not_not] at h
      exact (and_iff_right h).symm

/-- A quoted literal ends at the first quote that is not escaped. -/
theorem quoteEnd?_closing {q b : Char} {body : List Char} (rest : List Char)
    (hb : Escaped q b body) (hl : (b :: body).getLast? ≠ some '\\') :
    quoteEnd? q b (body ++ q :: rest) = some body.length := by
  induction body generalizing b with
  | nil =>
    have : b ≠ '\\' := by simpa using hl
    simp [quoteEnd?_cons, this]
  | cons c body ih =>
    rw [Escaped, List.isChain_cons_cons] at hb
    have hc : ¬ (c = q ∧ b ≠ '\\') := fun h => h.2 (hb.1 h.1)
    have hl' : (c :: body).getLast? ≠ some '\\' := by simpa [List.getLast?_cons] using hl
    rw [List.cons_append, quoteEnd?_cons, if_neg hc, ih hb.2 hl']
    simp

theorem exists_closing_of_quoteEnd? {q b : Char} {cs : List Char} {n : Nat}
    (h : quoteEnd? q b cs = some n) :
    ∃ body rest, cs = body ++ q :: rest ∧ n = body.length ∧ Escaped q b body ∧
      (b :: body).getLast? ≠ some '\\' := by
  induction cs generalizing b n with
  | nil => simp [quoteEnd?] at h
  | cons c cs ih =>
    rw [quoteEnd?_cons] at h
    split at h
    · next hc =>
      obtain ⟨rfl, hb⟩ := hc
      simp only [Option.some.injEq] at h
      exact ⟨[], cs, rfl, h.symm, List.isChain_singleton b, by simpa using hb⟩
    · next hc =>
      obtain ⟨m, hm, rfl⟩ := Option.map_eq_some_iff.mp h
      obtain ⟨body, rest, rfl, rfl, hb, hl⟩ := ih hm
      refine ⟨c :: body, rest, rfl, rfl, ?_, by simpa [List.getLast?_cons] using hl⟩
      rw [Escaped, List.isChain_cons_cons]
      refine ⟨?_, hb⟩
      intro hq
      by_contra hne
      exact hc ⟨hq, hne⟩

theorem isQuote_iff (q : Char) : Text.isQuote q ↔ q = '"' ∨ q = '\'' := by
  simp [Text.isQuote]

theorem isQuote_ne_newline {q : Char} (hq : Text.isQuote q) : q ≠ '\n' := by
  rintro rfl
  simp [Text.isQuote] at hq

theorem getLast?_cons_quote {q : Char} (hq : Text.isQuote q) (body : List Char) :
    (q :: body).getLast? ≠ some '\\' ↔ body.getLast? ≠ some '\\' := by
  cases body with
  | nil => rcases (isQuote_iff q).mp hq with rfl | rfl <;> simp
  | cons c cs => rw [List.getLast?_cons_cons]

/-- The line after an opening quote, when the literal is closed on it. -/
theorem quoteEnd?_line {q : Char} {body : List Char} (rest : List Char) (hq : Text.isQuote q)
    (hline : '\n' ∉ body) (hbody : Escaped q q body) (hlast : body.getLast? ≠ some '\\') :
    quoteEnd? q q ((body ++ q :: rest).takeWhile (· ≠ '\n')) = some body.length ∧
      ((body ++ q :: rest).takeWhile (· ≠ '\n')).take (body.length + 1) = body ++ [q] := by
  have hline' : ∀ a ∈ body, decide (a ≠ '\n') = true := by
    intro a ha
    have : a ≠ '\n' := fun e => hline (e ▸ ha)
    simpa using this
  have hl : (body ++ q :: rest).takeWhile (· ≠ '\n') =
      body ++ q :: rest.takeWhile (· ≠ '\n') := by
    rw [List.takeWhile_append_of_pos hline',
      List.takeWhile_cons_of_pos (by simpa using isQuote_ne_newline hq)]
  rw [hl]
  refine ⟨quoteEnd?_closing _ hbody ((getLast?_cons_quote hq body).mpr hlast), ?_⟩
  simp [List.take_append]

/-! ## Splitting a text -/

/-- A text has a first line that a newline ends, or no newline. -/
theorem line_split (cs : List Char) :
    (∃ body rest, cs = body ++ '\n' :: rest ∧ '\n' ∉ body) ∨ '\n' ∉ cs := by
  have hsplit := List.takeWhile_append_dropWhile (p := (· ≠ '\n')) (l := cs)
  have hline := not_mem_takeWhile_ne '\n' cs
  rcases dropWhile_ne_cases '\n' cs with hnil | hcons
  · right
    rw [hnil, List.append_nil] at hsplit
    rwa [hsplit] at hline
  · left
    obtain ⟨rest, hrest⟩ := List.head?_eq_some_iff.mp hcons
    rw [hrest] at hsplit
    exact ⟨_, rest, hsplit.symm, hline⟩

/-- A text has a first closing of a block comment, or none. -/
theorem block_split (cs : List Char) :
    (∃ body rest, cs = body ++ '*' :: '/' :: rest ∧ ¬ ['*', '/'] <:+: body ++ ['*']) ∨
      ¬ ['*', '/'] <:+: cs := by
  cases he : blockEnd? cs with
  | none => exact .inr ((blockEnd?_eq_none_iff cs).mp he)
  | some n =>
    obtain ⟨body, rest, heq, -, hb⟩ := exists_closing_of_blockEnd? he
    exact .inl ⟨body, rest, heq, hb⟩

/-- After an opening quote, the line has a first quote that is not escaped, or none. -/
theorem quote_split {q : Char} (hq : Text.isQuote q) (cs : List Char) :
    (∃ body rest, cs = body ++ q :: rest ∧ '\n' ∉ body ∧ Escaped q q body ∧
        body.getLast? ≠ some '\\') ∨
      ∃ body rest, cs = body ++ rest ∧ '\n' ∉ body ∧ Escaped q q body ∧
        (rest = [] ∨ rest.head? = some '\n') := by
  have hsplit := List.takeWhile_append_dropWhile (p := (· ≠ '\n')) (l := cs)
  have hline := not_mem_takeWhile_ne '\n' cs
  have hrest := dropWhile_ne_cases '\n' cs
  generalize cs.takeWhile (· ≠ '\n') = line at hsplit hline
  generalize cs.dropWhile (· ≠ '\n') = rest at hsplit hrest
  subst hsplit
  cases he : quoteEnd? q q line with
  | none => exact .inr ⟨line, rest, rfl, hline, (quoteEnd?_eq_none_iff _ _ _).mp he, hrest⟩
  | some n =>
    obtain ⟨body, more, rfl, -, hbody, hlast⟩ := exists_closing_of_quoteEnd? he
    have hb : '\n' ∉ body := fun hmem => hline (List.mem_append_left _ hmem)
    exact .inl ⟨body, more ++ rest, by simp, hb, hbody, (getLast?_cons_quote hq body).mp hlast⟩

/-! ## The spans of the scanner -/

theorem lineComment_line {body rest : List Char} (h : '\n' ∉ body) :
    Span.lineComment (body ++ '\n' :: rest) = body.length + 1 := by
  rw [Span.lineComment, takeWhile_ne_append h (.inr rfl)]

theorem lineComment_open {cs : List Char} (h : '\n' ∉ cs) :
    Span.lineComment cs = cs.length + 1 := by
  have hl := takeWhile_ne_append h (.inl rfl)
  rw [List.append_nil] at hl
  rw [Span.lineComment, hl]

theorem blockComment?_eq (cs : List Char) :
    Span.blockComment? cs = (blockEnd? cs).map (· + 2) := by
  fun_induction Span.blockComment? cs with
  | case1 => rfl
  | case2 cs => simp [blockEnd?_cons]
  | case3 c cs hne ih =>
    have hc : ¬ (c = '*' ∧ cs.head? = some '/') := by
      rintro ⟨rfl, hs⟩
      obtain ⟨ds, rfl⟩ := List.head?_eq_some_iff.mp hs
      exact hne ds rfl rfl
    rw [ih, blockEnd?_cons, if_neg hc, Option.map_map, Option.map_map]
    rfl

theorem quoted_eq {q : Char} (hq : q ≠ '\n') (b : Char) (cs : List Char) :
    Span.quoted q b cs =
      match quoteEnd? q b (cs.takeWhile (· ≠ '\n')) with
      | some n => ((cs.takeWhile (· ≠ '\n')).take (n + 1), true)
      | none => (cs.takeWhile (· ≠ '\n'), false) := by
  induction cs generalizing b with
  | nil => rfl
  | cons c cs ih =>
    by_cases hn : c = '\n'
    · subst hn
      simp [Span.quoted, hq.symm, quoteEnd?]
    · rw [List.takeWhile_cons_of_pos (by simpa using hn), Span.quoted, quoteEnd?_cons]
      by_cases hc : c = q ∧ b ≠ '\\'
      · rw [if_pos hc, if_pos hc]
        rfl
      · rw [if_neg hc, if_neg hc, if_neg hn, ih]
        cases quoteEnd? q c (cs.takeWhile (· ≠ '\n')) <;> rfl

end Piece

end ProjectD
