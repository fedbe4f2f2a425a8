import ProjectD.Proofs.Positions
import ProjectD.Proofs.Waiting

/-! # The scanner finds the pieces of a text

The scanner keeps a growing lexeme in its buffer, a mode, and one character of lookahead. What it
will still answer is a function of the text alone: the scan of the buffer followed by the unread
text, from where the buffer starts (`Scanner.meaning`).

* `Scanner.Sound`: the buffer holds what may wait there, and it reaches up to the cursor.
* `Scanner.step_meaning`: a step keeps a state sound and does not change the meaning; a step that
  fails fails with it.
* `Scanner.run_meaning`: so a whole run answers the meaning of its first state.
-/

set_option autoImplicit false

namespace ProjectD

open Piece

namespace Scanner

/-- Where the text that is not yet recorded starts. -/
def origin (s : Scanner) : Position :=
  if s.buffer.isEmpty then s.cursor.position else s.start

/-- What the scanner will answer: the tokens found so far, then the scan of what waits and what is
unread. -/
def meaning (s : Scanner) : Except LexError (List Token) :=
  (scan s.cursor.tabWidth s.origin (s.buffer.toList ++ s.cursor.rest)).map (s.tokens.toList ++ ·)

/-- The state of a scanner between two steps. -/
structure Sound (s : Scanner) : Prop where
  waiting : Waiting s.mode s.buffer.toList s.cursor.rest
  position : s.cursor.position = s.origin.advanceOver s.cursor.tabWidth s.buffer.toList

/-- A step from `s` agrees with the meaning of `s`: it reaches a sound state of the same meaning, or
it fails as the meaning says. -/
def Agrees (s : Scanner) : Except LexError Scanner → Prop
  | .ok t => t.Sound ∧ t.meaning = s.meaning
  | .error e => s.meaning = .error e

/-- Nothing waits, or a whole lexeme that the unread text does not continue. -/
def Ended (s : Scanner) : Prop :=
  s.buffer.toList = [] ∨ LexemeAt s.buffer.toList s.cursor.rest

/-- The meaning of `s`, once what waits in it is recorded and gives the tokens `ts`. -/
def MeansAfter (s : Scanner) (ts : Array Token) : Prop :=
  s.meaning = (scan s.cursor.tabWidth s.cursor.position s.cursor.rest).map (ts.toList ++ ·)

theorem map_append_map_cons (r : Except LexError (List Token)) (ts : Array Token) (token : Token) :
    (r.map (token :: ·)).map (ts.toList ++ ·) = r.map ((ts.push token).toList ++ ·) := by
  cases r with
  | error e => rfl
  | ok tokens => simp [Except.map]

/-- Recording a whole waiting lexeme moves it from the text into the tokens. The cursor has no part
in that, so it may have moved on. -/
theorem flush_meaning {s : Scanner} (hs : s.Sound) (k : Cursor) (hl : s.Ended) :
    (∃ ts : Array Token,
      flush { s with cursor := k } = .ok { s with cursor := k, buffer := "", tokens := ts } ∧
      s.MeansAfter ts) ∨
      ∃ e, flush { s with cursor := k } = .error e ∧ s.meaning = .error e := by
  obtain ⟨cursor, mode, buffer, start, tokens⟩ := s
  have hpos := hs.position
  simp only [Ended, MeansAfter, origin, meaning, flush, commit] at hl hpos ⊢
  by_cases hb : buffer = ""
  · subst hb
    exact .inl ⟨tokens, rfl, rfl⟩
  · have he : buffer.isEmpty = false := by
      rw [← Bool.not_eq_true, String.isEmpty_iff]
      exact hb
    have hne : buffer.toList ≠ [] := fun h => hb (String.toList_inj.mp h)
    have hlex := hl.resolve_left hne
    simp only [he, Bool.false_eq_true, if_false] at hpos ⊢
    cases hc : classify buffer start with
    | error e =>
      refine .inr ⟨e, rfl, ?_⟩
      rw [scan_lexeme_error hlex (by rw [String.ofList_toList, hc])]
      rfl
    | ok token =>
      refine .inl ⟨tokens.push token, rfl, ?_⟩
      rw [scan_lexeme_ok hlex (by rw [String.ofList_toList, hc]), ← hpos]
      exact map_append_map_cons _ _ _

theorem fault_meaning {s : Scanner} {ts : Array Token} {f : Fault} {cs : List Char}
    (hm : s.MeansAfter ts) (hrest : s.cursor.rest = cs) (hf : FaultAt f cs) :
    s.meaning = .error (f.error s.cursor.position) := by
  rw [hm, hrest, scan_fault hf]
  rfl

/-! ## Lexemes that stand alone -/

theorem meaning_of_idle {s : Scanner} (h : s.buffer = "") :
    s.meaning = (scan s.cursor.tabWidth s.cursor.position s.cursor.rest).map
      (s.tokens.toList ++ ·) := by
  simp [meaning, origin, h]

theorem sound_of_idle {s : Scanner} (hb : s.buffer = "") (hm : s.mode = .empty) : s.Sound where
  waiting := by
    rw [hb, hm]
    exact .empty
  position := by simp [origin, hb]

theorem commitAlone_meaning {s : Scanner} (hs : s.Sound) {x rest : List Char}
    (hl : s.Ended) (hrest : s.cursor.rest = x ++ rest) (hx : LexemeAt x rest) :
    Agrees s (commitAlone { s with cursor := s.cursor.skip x.length } (String.ofList x)
      s.cursor.position) := by
  unfold commitAlone
  obtain ⟨ts, hf, hm⟩ | ⟨e, hf, hm⟩ := flush_meaning hs (s.cursor.skip x.length) hl
  · simp only [hf, commit]
    rw [MeansAfter, hrest] at hm
    cases hc : classify (String.ofList x) s.cursor.position with
    | error e =>
      rw [scan_lexeme_error hx hc] at hm
      exact hm
    | ok token =>
      refine ⟨sound_of_idle rfl rfl, ?_⟩
      rw [hm, scan_lexeme_ok hx hc, map_append_map_cons, meaning_of_idle rfl]
      simp only [Cursor.skip_append _ hrest]
  · simp only [hf]
    exact hm

/-! ## Comments -/

theorem filler_meaning {s : Scanner} {ts : Array Token} {x : List Char} {n : Nat}
    (rest : List Char) (hm : s.MeansAfter ts) (hx : Filler x)
    (hrest : s.cursor.rest = x ++ rest) (hn : n = x.length) :
    Agrees s (.ok { s with cursor := s.cursor.skip n, mode := .empty, buffer := "",
                           tokens := ts }) := by
  refine ⟨sound_of_idle rfl rfl, ?_⟩
  rw [hm, hn, meaning_of_idle rfl, Cursor.skip_append _ hrest, hrest, scan_filler hx]

theorem openLine_meaning {s : Scanner} {ts : Array Token} {n : Nat}
    (hm : s.MeansAfter ts) (hx : OpenLine s.cursor.rest) (hn : s.cursor.rest.length ≤ n) :
    Agrees s (.ok { s with cursor := s.cursor.skip n, mode := .empty, buffer := "",
                           tokens := ts }) := by
  refine ⟨sound_of_idle rfl rfl, ?_⟩
  rw [hm, scan_openLine hx, meaning_of_idle rfl, Cursor.rest_skip, List.drop_eq_nil_of_le hn,
    scan_nil]

theorem comment_meaning {s : Scanner} (hs : s.Sound) {d : Char} {cs : List Char}
    (hl : s.Ended) (hrest : s.cursor.rest = '/' :: d :: cs) (hd : d = '/' ∨ d = '*') :
    Agrees s (comment { s with cursor := s.cursor.skip 1 } s.cursor.position) := by
  have hpeek : (s.cursor.skip 1).peek? = some d := by simp [Cursor.peek?, hrest]
  have hinner : (s.cursor.skip (1 + 1)).rest = cs := by simp [hrest]
  unfold comment
  obtain ⟨ts, hf, hm⟩ | ⟨e, hf, hm⟩ := flush_meaning hs (s.cursor.skip 1) hl
  · simp only [hf, hpeek, Option.some.injEq, Cursor.skip_skip, hinner]
    rcases hd with rfl | rfl
    · rw [if_pos rfl]
      rcases line_split cs with ⟨body, rest, rfl, hb⟩ | hb
      · refine filler_meaning rest hm (.line hb) (by simp [hrest]) ?_
        rw [lineComment_line hb]
        simp only [List.length_cons, List.length_append, List.length_nil]
        omega
      · refine openLine_meaning hm ⟨cs, hb, hrest⟩ ?_
        rw [lineComment_open hb, hrest]
        simp only [List.length_cons]
        omega
    · rw [if_neg (by decide), blockComment?_eq]
      rcases block_split cs with ⟨body, rest, rfl, hb⟩ | hb
      · rw [blockEnd?_closing rest hb]
        refine filler_meaning rest hm (.block hb) (by simp [hrest]) ?_
        simp only [List.length_cons, List.length_append, List.length_nil]
        omega
      · rw [(blockEnd?_eq_none_iff cs).mpr hb]
        exact fault_meaning hm hrest (.comment hb)
  · simp only [hf]
    exact hm

/-! ## Quoted literals -/

/-- A closed literal is recorded like every lexeme that stands alone. -/
theorem quotedLiteral_of_closed {s : Scanner} {q : Char} {body : List Char} (pos : Position)
    (h : Span.quoted q q s.cursor.rest = (body, true)) :
    s.quotedLiteral q pos =
      commitAlone { s with cursor := s.cursor.skip body.length } (String.ofList (q :: body))
        pos := by
  unfold quotedLiteral commitAlone
  by_cases hb : s.buffer.isEmpty
  · simp only [flush, hb, if_true, h]
  · simp only [flush, hb, if_false, commit, Bool.false_eq_true]
    cases classify s.buffer s.start with
    | error e => rfl
    | ok token => simp only [h, if_true]

theorem quotedLiteral_meaning {s : Scanner} (hs : s.Sound) {q : Char} {cs : List Char}
    (hl : s.Ended) (hrest : s.cursor.rest = q :: cs) (hq : Text.isQuote q) :
    Agrees s (quotedLiteral { s with cursor := s.cursor.skip 1 } q s.cursor.position) := by
  have hinner : (s.cursor.skip 1).rest = cs := by simp [hrest]
  rcases quote_split hq cs with
    ⟨body, rest, rfl, hline, hbody, hlast⟩ | ⟨body, rest, rfl, hline, hbody, hr⟩
  · have hx : LexemeAt (q :: (body ++ [q])) rest := .quoted hq hline hbody hlast
    obtain ⟨hend, htake⟩ := quoteEnd?_line rest hq hline hbody hlast
    have hspan : Span.quoted q q (body ++ q :: rest) = (body ++ [q], true) := by
      rw [quoted_eq (isQuote_ne_newline hq), hend]
      simp only [htake]
    have hlen : (q :: (body ++ [q])).length = 1 + (body ++ [q]).length := by
      rw [List.length_cons, Nat.add_comm]
    have hcommit := commitAlone_meaning hs hl (by simp [hrest]) hx
    rw [hlen, ← Cursor.skip_skip] at hcommit
    rw [quotedLiteral_of_closed _ (by rw [hinner, hspan])]
    exact hcommit
  · have hspan : Span.quoted q q (body ++ rest) = (body, false) := by
      rw [quoted_eq (isQuote_ne_newline hq), takeWhile_ne_append hline hr,
        (quoteEnd?_eq_none_iff q q body).mpr hbody]
    unfold quotedLiteral
    obtain ⟨ts, hf, hm⟩ | ⟨e, hf, hm⟩ := flush_meaning hs (s.cursor.skip 1) hl
    · simp only [hf, hinner, hspan]
      exact fault_meaning hm hrest (.string hq hline hbody hr)
    · simp only [hf]
      exact hm

/-! ## Characters that wait -/

theorem Agrees.trans {s u : Scanner} {r : Except LexError Scanner} (h : Agrees u r)
    (hm : u.meaning = s.meaning) : Agrees s r := by
  cases r with
  | error e => exact hm.symm.trans h
  | ok t => exact ⟨h.1, h.2.trans hm⟩

/-- A character that joins the waiting text leaves the text as it is. -/
theorem push_meaning {s : Scanner} {c : Char} {cs : List Char} {mode : Mode}
    (hpos : s.cursor.position = s.origin.advanceOver s.cursor.tabWidth s.buffer.toList)
    (hrest : s.cursor.rest = c :: cs) (hw : Waiting mode (s.buffer.toList ++ [c]) cs) :
    Agrees s (.ok (push { s with cursor := s.cursor.skip 1, mode := mode } c
      s.cursor.position)) := by
  have hskip := s.cursor.skip_one hrest
  have horigin : (push { s with cursor := s.cursor.skip 1, mode := mode } c
      s.cursor.position).origin = s.origin := by
    simp [origin, push]
  refine ⟨⟨?_, ?_⟩, ?_⟩
  · simpa [push, hskip] using hw
  · rw [horigin]
    simp only [push, hskip, String.toList_push]
    rw [Position.advanceOver_append, ← hpos]
  · simp only [meaning, horigin]
    simp [push, hskip, hrest]

theorem ordinary_meaning {s : Scanner} (hs : s.Sound) {c : Char} {cs : List Char}
    (hrest : s.cursor.rest = c :: cs) (hb : isBracket c = false) (hq : Text.isQuote c = false)
    (ho : opensComment (c :: cs) = false) (hp : c = '.' → cs.head? ≠ some '.')
    (hd : s.mode = .word → Decimal.isDigits s.buffer.toList → opensFraction (c :: cs) = false) :
    Agrees s (ordinary { s with cursor := s.cursor.skip 1 } c s.cursor.position) := by
  unfold ordinary
  split
  · next hj =>
    have hw := hs.waiting
    rw [hrest] at hw
    exact push_meaning hs.position hrest (hw.push hj.1 hj.2 ho)
  · next hj =>
    have hjoin : Mode.ofChar? c = some s.mode → s.mode = .separator := by
      intro h
      by_contra hne
      exact hj ⟨h, hne⟩
    have hl : s.Ended := by
      apply hs.waiting.lexemeAt
      · intro hm
        rw [hrest]
        refine ⟨?_, hd hm⟩
        rw [hm] at hjoin
        cases hc : isWordChar c with
        | false => simpa using hc
        | true => simpa using hjoin (by simp [Mode.ofChar?, hc])
      · intro hm
        rw [hrest]
        rw [hm] at hjoin
        left
        cases hc : isOperatorChar c with
        | false => simpa using hc
        | true => simpa using hjoin (ofChar?_of_isOperatorChar hc)
    obtain ⟨ts, hf, hm⟩ | ⟨e, hf, hm⟩ := flush_meaning hs (s.cursor.skip 1) hl
    · simp only [hf]
      -- The waiting lexeme is recorded; `u` is the state before `c` with nothing waiting.
      let u : Scanner := { s with buffer := "", tokens := ts }
      have hu : u.meaning = s.meaning := (meaning_of_idle rfl).trans hm.symm
      cases hc : Mode.ofChar? c with
      | none => exact fault_meaning hm hrest (.character (isStray_of_ofChar? hc hb hq))
      | some mode =>
        by_cases hsil : isSilent c
        · rw [ofChar?_of_isSilent hsil] at hc
          obtain rfl := Option.some.inj hc
          simp only [hsil, if_true]
          refine ⟨⟨.blank, by simp [origin]⟩, ?_⟩
          rw [← hu, meaning_of_idle rfl, meaning_of_idle rfl]
          simp only [u, s.cursor.skip_one hrest, hrest]
          rw [← scan_filler (.blank hsil)]
          rfl
        · simp only [hsil, if_false, Bool.false_eq_true]
          refine Agrees.trans (u := u) ?_ hu
          refine push_meaning (s := u) (by simp [u, origin]) hrest ?_
          exact waiting_first hc (by simpa using hsil) ho hp
    · simp only [hf]
      exact hm

/-- A character that no word, number or operator holds ends what waits. -/
theorem Sound.ended_of_char {s : Scanner} (hs : s.Sound) {c : Char} {cs : List Char}
    (hrest : s.cursor.rest = c :: cs) (hw : isWordChar c = false) (ho : isOperatorChar c = false)
    (hd : s.mode = .word → Decimal.isDigits s.buffer.toList → opensFraction (c :: cs) = false) :
    s.Ended := by
  apply hs.waiting.lexemeAt
  · intro hm
    rw [hrest]
    exact ⟨by simpa using hw, hd hm⟩
  · intro _
    rw [hrest]
    exact .inl (by simpa using ho)

theorem isEmpty_of_isDigits {x : String} (h : Decimal.isDigits x.toList) : x.isEmpty = false := by
  rw [← Bool.not_eq_true, String.isEmpty_iff]
  rintro rfl
  simp [Decimal.isDigits] at h

theorem period_meaning {s : Scanner} (hs : s.Sound) {cs : List Char}
    (hrest : s.cursor.rest = '.' :: cs) :
    Agrees s (period { s with cursor := s.cursor.skip 1 } s.cursor.position) := by
  have hpeek : (s.cursor.skip 1).peek? = cs.head? := by simp [Cursor.peek?, hrest]
  unfold period
  simp only [hpeek]
  split
  · next h =>
    obtain ⟨hmode, hdigits, hnext⟩ := h
    have hne := isEmpty_of_isDigits hdigits
    have hw : Waiting s.mode (s.buffer.toList ++ ['.']) cs := by
      rw [hmode]
      exact .number hdigits (by simp) (by simpa using hnext)
    have h := push_meaning hs.position hrest hw
    simpa only [push, hne, Bool.false_eq_true, if_false] using h
  · next h =>
    have hd : s.mode = .word → Decimal.isDigits s.buffer.toList →
        opensFraction ('.' :: cs) = false := by
      intro hm hdigits
      cases cs with
      | nil => rfl
      | cons d ds =>
        by_contra hf
        exact h ⟨hm, hdigits, by simpa [opensFraction] using hf⟩
    split
    · next hnext =>
      obtain ⟨rest, rfl⟩ := List.head?_eq_some_iff.mp hnext
      have hl := hs.ended_of_char hrest rfl rfl hd
      have hcommit := commitAlone_meaning hs hl (x := ['.', '.']) hrest .range
      rw [Cursor.skip_skip]
      exact hcommit
    · next hnext => exact ordinary_meaning hs hrest rfl rfl rfl (fun _ => hnext) hd

/-! ## Steps and runs -/

theorem dispatch_meaning {s : Scanner} (hs : s.Sound) {c : Char} {cs : List Char}
    (hrest : s.cursor.rest = c :: cs) :
    Agrees s (dispatch { s with cursor := s.cursor.skip 1 } c s.cursor.position) := by
  have hpeek : (s.cursor.skip 1).peek? = cs.head? := by simp [Cursor.peek?, hrest]
  have hfrac : c ≠ '.' → opensFraction (c :: cs) = false := by
    intro hc
    rw [← Bool.not_eq_true, opensFraction_iff]
    exact fun h => hc h.1
  unfold dispatch
  simp only [hpeek]
  by_cases hb : isBracket c
  · rw [if_pos hb]
    have hx : LexemeAt [c] cs := .mark (by simp [isMark, hb])
    have hl : s.Ended := by
      simp only [isBracket, Bool.or_eq_true, decide_eq_true_eq] at hb
      obtain ((((rfl | rfl) | rfl) | rfl) | rfl) | rfl := hb
      all_goals exact hs.ended_of_char hrest rfl rfl fun _ _ => rfl
    have hcommit := commitAlone_meaning hs hl (x := [c]) hrest hx
    simpa using hcommit
  rw [if_neg hb]
  by_cases hq : Text.isQuote c
  · rw [if_pos hq]
    have hl : s.Ended := by
      rcases (isQuote_iff c).mp hq with rfl | rfl
      all_goals exact hs.ended_of_char hrest rfl rfl fun _ _ => rfl
    exact quotedLiteral_meaning hs hl hrest hq
  rw [if_neg hq]
  by_cases ho : opensComment (c :: cs)
  · rw [if_pos (opensComment_iff.mp ho)]
    obtain ⟨rfl, hd⟩ := opensComment_iff.mp ho
    have hl : s.Ended := by
      apply hs.waiting.lexemeAt
      · intro _
        rw [hrest]
        exact ⟨rfl, fun _ => rfl⟩
      · intro _
        rw [hrest]
        exact .inr ho
    obtain ⟨d, ds, rfl⟩ : ∃ d ds, cs = d :: ds := by
      cases cs with
      | nil => simp at hd
      | cons d ds => exact ⟨d, ds, rfl⟩
    exact comment_meaning hs hl hrest (by simpa using hd)
  rw [if_neg (fun h => ho (opensComment_iff.mpr h))]
  by_cases hp : c = '.'
  · subst hp
    rw [if_pos rfl]
    exact period_meaning hs hrest
  rw [if_neg hp]
  exact ordinary_meaning hs hrest (by simpa using hb) (by simpa using hq) (by simpa using ho)
    (fun h => absurd h hp) (fun _ _ => hfrac hp)

/-- One step keeps the meaning, or fails as the meaning says. -/
theorem step_meaning {s : Scanner} (hs : s.Sound) {c : Char} (hc : s.cursor.peek? = some c) :
    Agrees s (s.step c) := by
  obtain ⟨cs, hrest⟩ := List.head?_eq_some_iff.mp hc
  exact dispatch_meaning hs hrest

/-- At the end of the text the meaning is what the last flush gives. -/
theorem flush_meaning_of_end {s : Scanner} (hs : s.Sound) (hc : s.cursor.peek? = none) :
    s.flush.map (·.tokens.toList) = s.meaning := by
  have hrest : s.cursor.rest = [] := List.head?_eq_none_iff.mp hc
  have hl : s.Ended := by
    apply hs.waiting.lexemeAt
    · intro _
      rw [hrest]
      exact ⟨rfl, fun _ => rfl⟩
    · intro _
      rw [hrest]
      exact .inl rfl
  obtain ⟨ts, hf, hm⟩ | ⟨e, hf, hm⟩ := flush_meaning hs s.cursor hl
  · rw [hm, hrest, scan_nil]
    rw [show s.flush = _ from hf]
    simp [Except.map]
  · rw [hm, show s.flush = _ from hf]
    rfl

/-- A whole run answers the meaning of its first state. -/
theorem run_meaning {s : Scanner} (hs : s.Sound) :
    s.run.map (·.tokens.toList) = s.meaning := by
  fun_induction run s with
  | case1 s hc => exact flush_meaning_of_end hs hc
  | case2 s c hc e he =>
    have h := step_meaning hs hc
    rw [he] at h
    exact h.symm
  | case3 s c hc t ht ih =>
    have h := step_meaning hs hc
    rw [ht] at h
    rw [ih h.1, h.2]

theorem run_ofString (source : String) (tabWidth : UInt32) :
    (ofString source tabWidth).run.map (·.tokens.toList) =
      scan tabWidth Position.start source.toList := by
  rw [run_meaning (sound_of_idle rfl rfl), meaning_of_idle rfl]
  simp only [ofString, Cursor.ofString]
  cases scan tabWidth Position.start source.toList <;> rfl

end Scanner

theorem tokenize_eq_map (source : String) (tabWidth : UInt32) :
    tokenize source tabWidth =
      (Scanner.ofString source tabWidth).run.map (·.tokens.toList) := by
  unfold tokenize
  cases (Scanner.ofString source tabWidth).run <;> rfl

/-- The scanner with its buffer, its mode and its lookahead finds exactly what the scanner without
memory finds: the same tokens at the same positions, or the same first error. -/
theorem tokenize_eq_scan (source : String) (tabWidth : UInt32) :
    tokenize source tabWidth = Piece.scan tabWidth Position.start source.toList := by
  rw [tokenize_eq_map, Scanner.run_ofString]

end ProjectD
