import ProjectD.Proofs.Continuation
import ProjectD.Proofs.Vocabulary

/-! # Line endings

A carriage return before every newline changes nothing but the column of the newlines themselves. At
every other place the return is a blank, or stands in a comment, or is the last character of a
literal that its line does not close.

* `Filler.crlf`, `LexemeAt.crlf`, `FaultAt.crlf`: what becomes of each shape of piece.
* `Piece.scan_crlf`: what becomes of a scan.
-/

set_option autoImplicit false

namespace ProjectD

open Piece

/-- A text with a carriage return before every newline. -/
def crlf (cs : List Char) : List Char :=
  cs.flatMap fun c => if c = '\n' then ['\r', '\n'] else [c]

/-- The position one column further right, or in the last column that a word can count. -/
def Position.right (p : Position) : Position :=
  ⟨p.line, UInt32.ofNat (min 4294967295 (p.column.toNat + 1))⟩

/-- A newline stands one column further right, every other token where it was. -/
def Token.afterReturn (t : Token) : Token :=
  if t.kind = .separator .newline then { t with position := t.position.right } else t

/-! ## Texts and positions -/

@[simp] theorem crlf_nil : crlf [] = [] := rfl

theorem crlf_newline (cs : List Char) : crlf ('\n' :: cs) = '\r' :: '\n' :: crlf cs := rfl

theorem crlf_cons {c : Char} (h : c ≠ '\n') (cs : List Char) : crlf (c :: cs) = c :: crlf cs := by
  simp [crlf, h]

theorem crlf_append (x y : List Char) : crlf (x ++ y) = crlf x ++ crlf y :=
  List.flatMap_append

theorem crlf_of_not_mem {x : List Char} (h : '\n' ∉ x) : crlf x = x := by
  induction x with
  | nil => rfl
  | cons c x ih =>
    rw [List.mem_cons, not_or] at h
    rw [crlf_cons (Ne.symm h.1), ih h.2]

/-- The head of a text stays, unless it is a newline. -/
theorem head?_crlf (cs : List Char) :
    (crlf cs).head? = cs.head? ∨ cs.head? = some '\n' ∧ (crlf cs).head? = some '\r' := by
  cases cs with
  | nil => exact .inl rfl
  | cons c cs =>
    by_cases hc : c = '\n'
    · subst hc
      exact .inr ⟨rfl, rfl⟩
    · rw [crlf_cons hc]
      exact .inl rfl

theorem head?_crlf_eq_iff {c : Char} (hnewline : c ≠ '\n') (hreturn : c ≠ '\r') (cs : List Char) :
    (crlf cs).head? = some c ↔ cs.head? = some c := by
  rcases head?_crlf cs with h | ⟨h, h'⟩
  · rw [h]
  · simp [h, h', hnewline.symm, hreturn.symm]

theorem Position.advance_return (w : UInt32) (p : Position) : p.advance w '\r' = p.right := by
  have hlt : min 4294967295 (p.column.toNat + 1) < 4294967296 := by omega
  have hone : (1 : UInt32).toNat = 1 := rfl
  have hcolumn : satAdd p.column 1 = UInt32.ofNat (min 4294967295 (p.column.toNat + 1)) := by
    rw [← UInt32.toNat_inj, UInt32.toNat_ofNat_of_lt' hlt, toNat_satAdd, hone]
  exact congrArg (Position.mk p.line) hcolumn

theorem Position.advanceOver_crlf (w : UInt32) (p : Position) (cs : List Char) :
    p.advanceOver w (crlf cs) = p.advanceOver w cs := by
  induction cs generalizing p with
  | nil => rfl
  | cons c cs ih =>
    by_cases hc : c = '\n'
    · subst hc
      rw [crlf_newline, advanceOver_cons, advanceOver_cons, advanceOver_cons, ih]
      rfl
    · rw [crlf_cons hc, advanceOver_cons, advanceOver_cons, ih]

/-! ## Pieces -/

namespace Piece

theorem closing_infix_crlf {cs : List Char} (h : ['*', '/'] <:+: crlf cs) :
    ['*', '/'] <:+: cs := by
  induction cs with
  | nil => exact h
  | cons c cs ih =>
    rw [closing_infix_cons]
    by_cases hc : c = '\n'
    · subst hc
      rw [crlf_newline, closing_infix_cons, closing_infix_cons] at h
      simp only [Char.reduceEq, false_and, false_or] at h
      exact .inr (ih h)
    · rw [crlf_cons hc, closing_infix_cons] at h
      rcases h with ⟨rfl, hslash⟩ | h
      · exact .inl ⟨rfl, (head?_crlf_eq_iff (by decide) (by decide) cs).mp hslash⟩
      · exact .inr (ih h)

theorem opensComment_crlf (c : Char) (cs : List Char) :
    opensComment (c :: crlf cs) = opensComment (c :: cs) := by
  rw [Bool.eq_iff_iff, opensComment_iff, opensComment_iff,
    head?_crlf_eq_iff (by decide) (by decide), head?_crlf_eq_iff (by decide) (by decide)]

theorem opensFraction_crlf {cs : List Char} (h : opensFraction cs = false) :
    opensFraction (crlf cs) = false := by
  cases cs with
  | nil => rfl
  | cons c cs =>
    rw [← Bool.not_eq_true, opensFraction_iff] at h
    rw [← Bool.not_eq_true]
    by_cases hc : c = '\n'
    · subst hc
      rw [crlf_newline, opensFraction_iff]
      simp
    · rw [crlf_cons hc, opensFraction_iff]
      rintro ⟨rfl, hdigit⟩
      refine h ⟨rfl, ?_⟩
      rcases head?_crlf cs with hhead | ⟨-, hhead⟩
      · rwa [hhead] at hdigit
      · rw [hhead] at hdigit
        exact absurd hdigit (by decide)

theorem operatorRun_crlf (cs : List Char) : operatorRun (crlf cs) = operatorRun cs := by
  induction cs with
  | nil => rfl
  | cons c cs ih =>
    by_cases hc : c = '\n'
    · subst hc
      rfl
    · rw [crlf_cons hc, operatorRun, operatorRun, opensComment_crlf, ih]

end Piece

theorem Filler.crlf {x : List Char} (h : Filler x) : Filler (crlf x) := by
  cases h with
  | @blank c hc =>
    have hne : c ≠ '\n' := by
      rintro rfl
      exact absurd hc (by decide)
    rw [crlf_cons hne]
    exact .blank hc
  | @line body hb =>
    have he : ProjectD.crlf ('/' :: '/' :: (body ++ ['\n'])) =
        '/' :: '/' :: ((body ++ ['\r']) ++ ['\n']) := by
      rw [crlf_cons (by decide), crlf_cons (by decide), crlf_append, crlf_of_not_mem hb,
        List.append_assoc]
      rfl
    rw [he]
    exact .line (by simpa using hb)
  | @block body hb =>
    rw [crlf_cons (by decide), crlf_cons (by decide), crlf_append]
    refine .block fun hclose => hb (closing_infix_crlf ?_)
    rwa [crlf_append]

/-- A lexeme other than the newline stays one. -/
theorem LexemeAt.crlf {x rest : List Char} (h : LexemeAt x rest) (hx : '\n' ∉ x) :
    LexemeAt x (crlf rest) := by
  refine h.follow ?_ opensFraction_crlf ?_
  · intro c hc
    rcases head?_crlf rest with hhead | ⟨-, hhead⟩
    · exact .inl (hhead ▸ hc)
    · obtain rfl : '\r' = c := Option.some.inj (hhead.symm.trans hc)
      exact .inr (by decide)
  · intro ho
    have hrun := operatorRun_crlf (x ++ rest)
    rwa [crlf_append, crlf_of_not_mem hx, ho] at hrun

/-- A fault other than an open literal stays one. -/
theorem FaultAt.crlf {f : Fault} {cs : List Char} (h : FaultAt f cs)
    (hf : ∀ text, f ≠ .string text) : FaultAt f (crlf cs) := by
  cases h with
  | @character c rest hc =>
    have hne : c ≠ '\n' := by
      rintro rfl
      exact absurd hc.2.2.1 (by decide)
    rw [crlf_cons hne]
    exact .character hc
  | string => exact absurd rfl (hf _)
  | comment hb =>
    rw [crlf_cons (by decide), crlf_cons (by decide)]
    exact .comment fun hclose => hb (closing_infix_crlf hclose)

/-- A literal that a newline cuts off takes the return as its last character. -/
theorem faultAt_return {q : Char} {body : List Char} (hq : Text.isQuote q) (hline : '\n' ∉ body)
    (hbody : Escaped q q body) (after : List Char) :
    FaultAt (.string (q :: (body ++ ['\r']))) (crlf (q :: (body ++ '\n' :: after))) := by
  have hreturn : '\r' ≠ q := by
    rintro rfl
    exact absurd hq (by decide)
  have hbody' : Escaped q q (body ++ ['\r']) := by
    rw [Escaped, ← List.cons_append, List.isChain_append]
    refine ⟨hbody, List.isChain_singleton _, ?_⟩
    rintro b - c hc he
    obtain rfl : '\r' = c := by simpa using hc
    exact absurd he hreturn
  have htext : crlf (q :: (body ++ '\n' :: after)) =
      q :: ((body ++ ['\r']) ++ '\n' :: crlf after) := by
    rw [crlf_cons (isQuote_ne_newline hq), crlf_append, crlf_of_not_mem hline, crlf_newline]
    simp
  rw [htext]
  exact .string hq (by simpa using hline) hbody' (.inr rfl)

/-! ## Scans -/

namespace Piece

theorem opensComment_of_append_quote {q : Char} (hq : Text.isQuote q) {p cs : List Char}
    (h : opensComment (p ++ q :: cs)) : opensComment p := by
  have hne : q ≠ '/' ∧ q ≠ '*' := by
    rcases (isQuote_iff q).mp hq with rfl | rfl <;> decide
  cases p with
  | nil =>
    rw [List.nil_append, opensComment_iff] at h
    exact absurd h.1 hne.1
  | cons c p =>
    rw [List.cons_append, opensComment_iff] at h
    cases p with
    | nil => simp [hne.1, hne.2] at h
    | cons d p => exact opensComment_iff.mpr h

/-- On its way through `cs` the scan comes to the open literal `text`, with `rest` after it. -/
inductive StopsAt (w : UInt32) :
    Position → List Char → Position → String → List Char → Prop where
  | here {pos : Position} {q : Char} {body : List Char} (hq : Text.isQuote q) (hline : '\n' ∉ body)
    (hbody : Escaped q q body) (rest : List Char) :
    StopsAt w pos (q :: (body ++ rest)) pos (String.ofList (q :: body)) rest
  | filler {pos pos' : Position} {x cs rest : List Char} {text : String} (hx : Filler x)
    (h : StopsAt w (pos.advanceOver w x) cs pos' text rest) :
    StopsAt w pos (x ++ cs) pos' text rest
  | lexeme {pos pos' : Position} {x cs rest : List Char} {text : String} {token : Token}
    (hx : LexemeAt x cs) (hc : classify (String.ofList x) pos = .ok token)
    (h : StopsAt w (pos.advanceOver w x) cs pos' text rest) :
    StopsAt w pos (x ++ cs) pos' text rest

section Steps

variable {w : UInt32} {pos pos' : Position} {x cs rest : List Char} {text : String}

theorem StopsAt.quote (h : StopsAt w pos cs pos' text rest) :
    ∃ q body, Text.isQuote q ∧ text.toList = q :: body := by
  induction h with
  | @here _ q body hq => exact ⟨q, body, hq, String.toList_ofList⟩
  | filler _ _ ih => exact ih
  | lexeme _ _ _ ih => exact ih

theorem StopsAt.newline_not_mem (h : StopsAt w pos cs pos' text rest) : '\n' ∉ text.toList := by
  induction h with
  | here hq hline => simpa using ⟨(isQuote_ne_newline hq).symm, hline⟩
  | filler _ _ ih => exact ih
  | lexeme _ _ _ ih => exact ih

/-- What stands before the open literal has tokens, and the literal stays open without `rest`. -/
theorem StopsAt.split (h : StopsAt w pos cs pos' text rest) :
    ∃ before, cs = before ++ (text.toList ++ rest) ∧ (∃ ts, scan w pos before = .ok ts) ∧
      scan w pos (before ++ text.toList) = .error (.unterminatedString pos' text) := by
  induction h with
  | @here _ q body hq hline hbody rest =>
    have hfault : FaultAt (.string (q :: body)) (q :: (body ++ [])) :=
      .string hq hline hbody (.inl rfl)
    rw [List.append_nil] at hfault
    refine ⟨[], by simp, ⟨[], scan_nil⟩, ?_⟩
    rw [String.toList_ofList, List.nil_append, scan_fault hfault]
    rfl
  | @filler _ _ x _ _ _ hx _ ih =>
    obtain ⟨before, rfl, ⟨ts, hbefore⟩, hstop⟩ := ih
    refine ⟨x ++ before, (List.append_assoc ..).symm, ⟨ts, ?_⟩, ?_⟩
    · rw [scan_filler hx, hbefore]
    · rw [List.append_assoc, scan_filler hx, hstop]
  | @lexeme _ _ x _ rest text token hx hc h ih =>
    obtain ⟨before, rfl, ⟨ts, hbefore⟩, hstop⟩ := ih
    -- No comment opens across the quote, so the lexeme stays one before either part.
    obtain ⟨q, body, hq, htext⟩ := h.quote
    have hcut : opensComment (before ++ (text.toList ++ rest)) → opensComment before := by
      rw [htext, List.cons_append]
      exact opensComment_of_append_quote hq
    have hx' : LexemeAt x before := hx.truncate fun ho => .inr (hcut ho)
    have hx'' : LexemeAt x (before ++ text.toList) := by
      rw [← List.append_assoc] at hx hcut
      exact hx.truncate fun ho => .inr (opensComment_append text.toList (hcut ho))
    refine ⟨x ++ before, (List.append_assoc ..).symm, ⟨token :: ts, ?_⟩, ?_⟩
    · rw [scan_lexeme_ok hx' hc, hbefore]
      rfl
    · rw [List.append_assoc, scan_lexeme_ok hx'' hc, hstop]
      rfl

/-- What the scan of `cs` with returns is, when the scan of `cs` is the given one. -/
def Returned (w : UInt32) (pos : Position) (cs : List Char) :
    Except LexError (List Token) → Prop
  | .ok ts => scan w pos (crlf cs) = .ok (ts.map Token.afterReturn)
  | .error (.unterminatedString pos' text) =>
    (StopsAt w pos cs pos' text [] ∧
      scan w pos (crlf cs) = .error (.unterminatedString pos' text)) ∨
    ∃ after, StopsAt w pos cs pos' text ('\n' :: after) ∧
      scan w pos (crlf cs) = .error (.unterminatedString pos' (text ++ "\r"))
  | .error e => scan w pos (crlf cs) = .error e

theorem Returned.filler {r : Except LexError (List Token)} (hx : Filler x)
    (h : Returned w (pos.advanceOver w x) cs r) : Returned w pos (x ++ cs) r := by
  have hscan : scan w pos (crlf (x ++ cs)) = scan w (pos.advanceOver w x) (crlf cs) := by
    rw [crlf_append, scan_filler hx.crlf, Position.advanceOver_crlf]
  cases r with
  | ok ts => exact hscan.trans h
  | error e =>
    cases e with
    | unterminatedString pos' text =>
      rcases h with ⟨hs, h⟩ | ⟨after, hs, h⟩
      · exact .inl ⟨hs.filler hx, hscan.trans h⟩
      · exact .inr ⟨after, hs.filler hx, hscan.trans h⟩
    | _ => exact hscan.trans h

/-- The newline has a return before it now, which moves it; every other lexeme stands where it
was. -/
theorem scan_crlf_lexeme {token : Token} (hx : LexemeAt x cs)
    (hc : classify (String.ofList x) pos = .ok token) :
    scan w pos (crlf (x ++ cs)) =
      (scan w (pos.advanceOver w x) (crlf cs)).map (token.afterReturn :: ·) := by
  by_cases hmem : '\n' ∈ x
  · obtain rfl := hx.eq_newline hmem
    have hreturn : Filler ['\r'] := .blank rfl
    have hnewline : LexemeAt ['\n'] (crlf cs) := .mark rfl
    have hright : pos.advanceOver w ['\r'] = pos.right := pos.advance_return w
    have hmoved : classify (String.ofList ['\n']) pos.right = .ok token.afterReturn := by
      have hspelled : classify (String.ofList ['\n']) pos = .ok ⟨"\n", pos, .separator .newline⟩ :=
        classify_of_spelledBy (.separator .newline) pos
      obtain rfl := Except.ok.inj (hc.symm.trans hspelled)
      exact classify_of_spelledBy (.separator .newline) pos.right
    have hnext : pos.right.advanceOver w ['\n'] = pos.advanceOver w ['\n'] := rfl
    have hsplit : crlf (['\n'] ++ cs) = ['\r'] ++ (['\n'] ++ crlf cs) := rfl
    rw [hsplit, scan_filler hreturn, hright, scan_lexeme_ok hnewline hmoved, hnext]
  · have hkeep : token.afterReturn = token := by
      rw [Token.afterReturn, if_neg]
      intro hkind
      rcases hx.settled pos with ⟨kind, hk, hclass⟩ | ⟨e, -, hclass⟩
      · obtain rfl := Except.ok.inj (hc.symm.trans hclass)
        obtain rfl : kind = .separator .newline := hkind
        generalize hlexeme : String.ofList x = lexeme at hk
        cases hk
        rw [← String.toList_inj, String.toList_ofList] at hlexeme
        exact hmem (by simp [hlexeme, Separator.spelling, Separator.char])
      · simp [hc] at hclass
    rw [crlf_append, crlf_of_not_mem hmem, scan_lexeme_ok (hx.crlf hmem) hc, hkeep]

theorem Returned.lexeme {r : Except LexError (List Token)} {token : Token} (hx : LexemeAt x cs)
    (hc : classify (String.ofList x) pos = .ok token)
    (h : Returned w (pos.advanceOver w x) cs r) :
    Returned w pos (x ++ cs) (r.map (token :: ·)) := by
  have hscan := scan_crlf_lexeme (w := w) hx hc
  cases r with
  | ok ts =>
    rw [Returned] at h
    rw [h] at hscan
    exact hscan
  | error e =>
    cases e with
    | unterminatedString pos' text =>
      rcases h with ⟨hs, h⟩ | ⟨after, hs, h⟩
      · rw [h] at hscan
        exact .inl ⟨hs.lexeme hx hc, hscan⟩
      · rw [h] at hscan
        exact .inr ⟨after, hs.lexeme hx hc, hscan⟩
    | _ =>
      rw [Returned] at h
      · rw [h] at hscan
        exact hscan
      · simp

end Steps

theorem scan_crlf (w : UInt32) (pos : Position) (cs : List Char) :
    Returned w pos cs (scan w pos cs) := by
  induction cs using pieces_induction generalizing pos with
  | nil =>
    rw [scan_nil]
    exact scan_nil
  | filler x rest hx ih =>
    rw [scan_filler hx]
    exact (ih _).filler hx
  | openLine x hx =>
    have hx' : crlf x = x := by
      obtain ⟨body, hb, rfl⟩ := hx
      exact crlf_of_not_mem (by simpa using hb)
    rw [scan_openLine hx, Returned, hx', scan_openLine hx]
    rfl
  | lexeme x rest hx ih =>
    cases hc : classify (String.ofList x) pos with
    | ok token =>
      rw [scan_lexeme_ok hx hc]
      exact (ih _).lexeme hx hc
    | error e =>
      have hmem : '\n' ∉ x := by
        intro hmem
        obtain rfl := hx.eq_newline hmem
        have hspelled : classify (String.ofList ['\n']) pos =
            .ok ⟨"\n", pos, .separator .newline⟩ := classify_of_spelledBy (.separator .newline) pos
        simp [hspelled] at hc
      have hscan : scan w pos (crlf (x ++ rest)) = .error e := by
        rw [crlf_append, crlf_of_not_mem hmem, scan_lexeme_error (hx.crlf hmem) hc]
      rw [scan_lexeme_error hx hc]
      rcases classify_error hc with rfl | rfl <;> exact hscan
  | fault f cs hf =>
    have hfault := hf
    rw [scan_fault hf]
    cases hf with
    | character => exact scan_fault (hfault.crlf (by simp))
    | @string q body rest hq hline hbody hr =>
      have hstop : StopsAt w pos (q :: (body ++ rest)) pos (String.ofList (q :: body)) rest :=
        .here hq hline hbody rest
      rcases hr with rfl | hr
      · have hsame : crlf (q :: (body ++ [])) = q :: (body ++ []) :=
          crlf_of_not_mem (by simpa using ⟨(isQuote_ne_newline hq).symm, hline⟩)
        refine .inl ⟨hstop, ?_⟩
        rw [hsame, scan_fault hfault]
        rfl
      · obtain ⟨after, rfl⟩ := List.head?_eq_some_iff.mp hr
        refine .inr ⟨after, hstop, ?_⟩
        rw [scan_fault (faultAt_return hq hline hbody after), Fault.error, ← List.cons_append,
          String.ofList_append]
    | comment => exact scan_fault (hfault.crlf (by simp))

/-- A literal that the end of the text leaves open is not cut off by a newline: what stands before
it has tokens. -/
theorem StopsAt.not_cut {w : UInt32} {pos pos' : Position} {cs before after : List Char}
    {text : String} (h : StopsAt w pos cs pos' text [])
    (hcs : cs = before ++ text.toList ++ '\n' :: after) :
    scan w pos (before ++ text.toList) ≠ .error (.unterminatedString pos' text) := by
  intro hcut
  have hline := h.newline_not_mem
  obtain ⟨before', hsplit, ⟨ts, hbefore⟩, -⟩ := h.split
  rw [hcs, List.append_nil, List.append_eq_append_iff] at hsplit
  rcases hsplit with ⟨between, rfl, hrest⟩ | ⟨between, -, htext⟩
  · cases between with
    | nil => exact hline (by rw [← List.nil_append text.toList, ← hrest]; simp)
    | cons c between =>
      obtain ⟨rfl, -⟩ := List.cons.inj hrest
      have herror := scan_append_fault (t := '\n' :: between) hcut
        (.inr ⟨⟨pos', text, rfl⟩, rfl⟩)
      rw [hbefore] at herror
      cases herror
  · exact hline (by simp [htext])

end Piece

/-! ## Whole texts -/

/-- A source with a carriage return before every newline. -/
def withReturns (source : String) : String :=
  String.ofList (crlf source.toList)

theorem cutByNewline_iff {source : String} {w : UInt32} {pos : Position} {text : String} :
    CutByNewline source w pos text ↔
      ∃ before after, source.toList = before ++ text.toList ++ '\n' :: after ∧
        (∃ ts, scan w Position.start before = .ok ts) ∧
        scan w Position.start (before ++ text.toList) = .error (.unterminatedString pos text) := by
  simp only [CutByNewline, tokenize_eq_map, Scanner.run_ofString, String.toList_append]
  constructor
  · rintro ⟨before, after, rfl, hbefore, hcut⟩
    exact ⟨before.toList, after.toList, by simp, hbefore, hcut⟩
  · rintro ⟨before, after, hsource, hbefore, hcut⟩
    refine ⟨String.ofList before, String.ofList after, ?_, ?_, ?_⟩
    · rw [← String.toList_inj, hsource]
      simp
    · rwa [String.toList_ofList]
    · rwa [String.toList_ofList]

theorem Piece.StopsAt.not_cutByNewline {source text : String} {w : UInt32} {pos : Position}
    (h : StopsAt w Position.start source.toList pos text []) :
    ¬ CutByNewline source w pos text := by
  intro hcut
  obtain ⟨before, after, hsource, -, hopen⟩ := cutByNewline_iff.mp hcut
  exact h.not_cut hsource hopen

/-- An open literal is cut off by a newline exactly if the scan stops there with a newline next. -/
theorem cutByNewline_iff_stopsAt {source text : String} {w : UInt32} {pos : Position}
    (h : tokenize source w = .error (.unterminatedString pos text)) :
    CutByNewline source w pos text ↔
      ∃ after, StopsAt w Position.start source.toList pos text ('\n' :: after) := by
  constructor
  · intro hcut
    rw [tokenize_eq_map, Scanner.run_ofString] at h
    have hscan := scan_crlf w Position.start source.toList
    rw [h] at hscan
    rcases hscan with ⟨hstop, -⟩ | ⟨after, hstop, -⟩
    · exact absurd hcut hstop.not_cutByNewline
    · exact ⟨after, hstop⟩
  · rintro ⟨after, hstop⟩
    obtain ⟨before, hsource, hbefore, hopen⟩ := hstop.split
    exact cutByNewline_iff.mpr ⟨before, after, by rw [hsource, List.append_assoc], hbefore, hopen⟩

/-- Returns before the newlines change nothing but the columns of the newlines, and the text of a
literal that a newline cuts off. -/
theorem tokenize_withReturns (source : String) (w : UInt32) :
    (∀ ts, tokenize source w = .ok ts →
      tokenize (withReturns source) w = .ok (ts.map Token.afterReturn)) ∧
    (∀ pos text, tokenize source w = .error (.unterminatedString pos text) →
      CutByNewline source w pos text →
      tokenize (withReturns source) w = .error (.unterminatedString pos (text ++ "\r"))) ∧
    ∀ e, tokenize source w = .error e →
      (∀ pos text, e = .unterminatedString pos text → ¬ CutByNewline source w pos text) →
      tokenize (withReturns source) w = .error e := by
  have hreturns : tokenize (withReturns source) w = scan w Position.start (crlf source.toList) := by
    rw [tokenize_eq_map, Scanner.run_ofString, withReturns, String.toList_ofList]
  have hscan : Returned w Position.start source.toList (tokenize source w) := by
    rw [tokenize_eq_map, Scanner.run_ofString]
    exact scan_crlf w Position.start source.toList
  rw [hreturns]
  refine ⟨?_, ?_, ?_⟩
  · intro ts h
    rw [h] at hscan
    exact hscan
  · intro pos text h hcut
    rw [h] at hscan
    rcases hscan with ⟨hstop, -⟩ | ⟨-, -, hreturn⟩
    · exact absurd hcut hstop.not_cutByNewline
    · exact hreturn
  · intro e h huncut
    rw [h] at hscan
    cases e with
    | unterminatedString pos text =>
      rcases hscan with ⟨-, hsame⟩ | ⟨after, hstop, -⟩
      · exact hsame
      · have hcut := (cutByNewline_iff_stopsAt h).mpr ⟨after, hstop⟩
        exact absurd hcut (huncut pos text rfl)
    | _ => exact hscan

/-- The tokens of a line that ends in a period, with its newline at a column. -/
def lineTokens (newline : UInt32) : List Token :=
  [⟨"1", ⟨1, 1⟩, .literal (.integer 1)⟩, ⟨".", ⟨1, 2⟩, .separator .period⟩,
    ⟨"\n", ⟨1, newline⟩, .separator .newline⟩]

theorem tokenize_withReturns_line :
    tokenize "1.\n//'\n" 4 = .ok (lineTokens 3) ∧
      tokenize (withReturns "1.\n//'\n") 4 = .ok (lineTokens 4) ∧
      CutByNewline "x 'b\n" 4 ⟨1, 3⟩ "'b" ∧
      tokenize (withReturns "x 'b\n") 4 = .error (.unterminatedString ⟨1, 3⟩ "'b\r") := by
  have hok : tokenize "1.\n//'\n" 4 = .ok (lineTokens 3) := by decide +kernel
  have hopen : tokenize "x 'b\n" 4 = .error (.unterminatedString ⟨1, 3⟩ "'b") := by decide +kernel
  have hcut : CutByNewline "x 'b\n" 4 ⟨1, 3⟩ "'b" :=
    ⟨"x ", "", by decide, ⟨[⟨"x", ⟨1, 1⟩, .identifier "x"⟩], by decide +kernel⟩, by decide +kernel⟩
  exact ⟨hok, (tokenize_withReturns _ 4).1 _ hok, hcut,
    (tokenize_withReturns _ 4).2.1 _ _ hopen hcut⟩

end ProjectD
