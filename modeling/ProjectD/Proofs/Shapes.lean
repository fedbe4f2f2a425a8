import ProjectD.Proofs.Spans

/-! # The shapes of the pieces of a text

What `Piece.head` finds, said without the searches that find it:

* `Filler x`: `x` is a blank or a comment with its end.
* `OpenLine x`: `x` is a line comment that the text ends before its newline.
* `LexemeAt x rest`: `x` is the lexeme at the head of `x ++ rest`. What may follow is part of the
  shape, so a lexeme is never a part of a longer one.
* `FaultAt f cs`: nothing can be read at the head of `cs`.

`Piece.head_shape` says that the head of every nonempty text has one of these shapes, and
`Piece.head_filler` and its companions that each shape is found. From the two, `Piece.scan` has one
equation for each shape, and `Piece.pieces_induction` is induction over the pieces of a text.
-/

set_option autoImplicit false

namespace ProjectD

/-! ## Shapes -/

/-- A blank, or a comment with its end. A block comment ends at the first closing after its
opening. -/
inductive Filler : List Char → Prop where
  | blank {c : Char} (h : isSilent c) : Filler [c]
  | line {body : List Char} (h : '\n' ∉ body) : Filler ('/' :: '/' :: (body ++ ['\n']))
  | block {body : List Char} (h : ¬ ['*', '/'] <:+: body ++ ['*']) :
    Filler ('/' :: '*' :: (body ++ ['*', '/']))

/-- A line comment without its newline. -/
def OpenLine (x : List Char) : Prop :=
  ∃ body, '\n' ∉ body ∧ x = '/' :: '/' :: body

/-- A text is the lexeme at the head of itself and what follows it. -/
inductive LexemeAt : List Char → List Char → Prop where
  | quoted {q : Char} {body rest : List Char} (hq : Text.isQuote q) (hline : '\n' ∉ body)
    (hbody : Escaped q q body) (hlast : body.getLast? ≠ some '\\') :
    LexemeAt (q :: (body ++ [q])) rest
  | mark {c : Char} {rest : List Char} (h : Piece.isMark c) : LexemeAt [c] rest
  | period {rest : List Char} (h : rest.head? ≠ some '.') : LexemeAt ['.'] rest
  | range {rest : List Char} : LexemeAt ['.', '.'] rest
  | word {x rest : List Char} (hne : x ≠ []) (hx : ∀ c ∈ x, isWordChar c)
    (hr : rest.head?.any isWordChar = false)
    (hd : Decimal.isDigits x → Piece.opensFraction rest = false) : LexemeAt x rest
  | number {whole fraction rest : List Char} (hw : Decimal.isDigits whole)
    (hd : fraction.head?.any Decimal.isDigit) (hf : ∀ c ∈ fraction, isWordChar c)
    (hr : rest.head?.any isWordChar = false) : LexemeAt (whole ++ '.' :: fraction) rest
  | operator {x rest : List Char} (hne : x ≠ []) (h : Piece.operatorRun (x ++ rest) = x) :
    LexemeAt x rest

/-- A character of no class. -/
def IsStray (c : Char) : Prop :=
  isSilent c = false ∧ Text.isQuote c = false ∧ Piece.isMark c = false ∧ c ≠ '.' ∧
    isWordChar c = false ∧ isOperatorChar c = false

/-- A text at whose head nothing can be read. -/
inductive FaultAt : Fault → List Char → Prop where
  | character {c : Char} {rest : List Char} (h : IsStray c) : FaultAt (.character c) (c :: rest)
  | string {q : Char} {body rest : List Char} (hq : Text.isQuote q) (hline : '\n' ∉ body)
    (hbody : Escaped q q body) (hr : rest = [] ∨ rest.head? = some '\n') :
    FaultAt (.string (q :: body)) (q :: (body ++ rest))
  | comment {body : List Char} (h : ¬ ['*', '/'] <:+: body) : FaultAt .comment ('/' :: '*' :: body)

namespace Piece

/-! ## Classes of characters -/

theorem isWordChar_of_isDigit {c : Char} (h : Decimal.isDigit c) : isWordChar c := by
  simp [isWordChar, h]

theorem exists_cons_of_isDigits {x : List Char} (h : Decimal.isDigits x) :
    ∃ c cs, x = c :: cs ∧ ∀ a ∈ c :: cs, Decimal.isDigit a := by
  cases x with
  | nil => simp [Decimal.isDigits] at h
  | cons c cs =>
    rw [Decimal.isDigits, Bool.and_eq_true, List.all_eq_true] at h
    exact ⟨c, cs, rfl, h.2⟩

theorem isWordChar_ne {c d : Char} (hc : isWordChar c) (hd : isWordChar d = false) : c ≠ d := by
  rintro rfl
  simp [hd] at hc

theorem apart_of_isWordChar {c : Char} (h : isWordChar c) :
    isSilent c = false ∧ isOperatorChar c = false ∧ isMark c = false ∧ Text.isQuote c = false ∧
      c ≠ '.' := by
  have hclass : ∀ d ∈ [' ', '\t', '\r', '+', '-', '*', '/', '=', '<', '>', ':', '(', ')', '[', ']',
      '\x7b', '\x7d', ';', ',', '\n', '"', '\'', '.'], isWordChar d = false := by
    simp only [List.mem_cons, List.not_mem_nil, or_false, forall_eq_or_imp, forall_eq]
    decide
  have ne := fun d hd => isWordChar_ne h (hclass d hd)
  simp only [List.mem_cons, List.not_mem_nil, or_false, forall_eq_or_imp, forall_eq] at ne
  simp [isSilent, isOperatorChar, isMark, isBracket, Text.isQuote, ne]

theorem apart_of_isOperatorChar {c : Char} (h : isOperatorChar c) :
    isSilent c = false ∧ isWordChar c = false ∧ isMark c = false ∧ Text.isQuote c = false ∧
      c ≠ '.' := by
  simp only [isOperatorChar, Bool.or_eq_true, decide_eq_true_eq] at h
  obtain ((((((rfl | rfl) | rfl) | rfl) | rfl) | rfl) | rfl) | rfl := h <;> decide

theorem apart_of_isSilent {c : Char} (h : isSilent c) :
    isWordChar c = false ∧ isOperatorChar c = false ∧ c ≠ '.' := by
  simp only [isSilent, Bool.or_eq_true, decide_eq_true_eq] at h
  obtain ((rfl | rfl) | rfl) := h <;> decide

theorem apart_of_isMark {c : Char} (h : isMark c) : isSilent c = false ∧ c ≠ '.' := by
  simp only [isMark, isBracket, Bool.or_eq_true, decide_eq_true_eq] at h
  obtain ((((((((rfl | rfl) | rfl) | rfl) | rfl) | rfl) | rfl) | rfl) | rfl) := h <;> decide

theorem apart_of_isQuote {q : Char} (h : Text.isQuote q) : isSilent q = false ∧ q ≠ '.' := by
  rcases (isQuote_iff q).mp h with rfl | rfl <;> decide

/-! ## Operators, words and numbers -/

theorem opensComment_iff {c : Char} {cs : List Char} :
    opensComment (c :: cs) ↔ c = '/' ∧ (cs.head? = some '/' ∨ cs.head? = some '*') := by
  unfold opensComment
  split
  · next d ds heq =>
    obtain ⟨rfl, rfl⟩ := List.cons.inj heq
    simp
  · next hne =>
    simp only [Bool.false_eq_true, false_iff, not_and, not_or]
    rintro rfl
    cases cs with
    | nil => simp
    | cons d ds => exact absurd rfl (hne d ds)

theorem opensFraction_iff {c : Char} {cs : List Char} :
    opensFraction (c :: cs) ↔ c = '.' ∧ cs.head?.any Decimal.isDigit := by
  unfold opensFraction
  split
  · next d ds heq =>
    obtain ⟨rfl, rfl⟩ := List.cons.inj heq
    simp
  · next hne =>
    simp only [Bool.false_eq_true, false_iff, not_and]
    rintro rfl
    cases cs with
    | nil => simp
    | cons d ds => exact absurd rfl (hne d ds)

theorem operatorRun_prefix (cs : List Char) : operatorRun cs <+: cs := by
  induction cs with
  | nil => exact List.nil_prefix
  | cons c cs ih =>
    rw [operatorRun]
    split
    · exact (List.prefix_cons_inj c).mpr ih
    · exact List.nil_prefix

theorem wordTail_word {c : Char} {tail rest : List Char} (ht : ∀ a ∈ tail, isWordChar a)
    (hr : rest.head?.any isWordChar = false)
    (hd : Decimal.isDigits (c :: tail) → opensFraction rest = false) :
    wordTail c (tail ++ rest) = tail := by
  rw [wordTail, takeWhile_append_stop ht hr, dropWhile_append_stop ht hr]
  by_cases hc : Decimal.isDigits (c :: tail)
  · simp [hd hc]
  · simp [hc]

theorem wordTail_number {c : Char} {tail fraction rest : List Char}
    (hw : Decimal.isDigits (c :: tail)) (hd : fraction.head?.any Decimal.isDigit)
    (hf : ∀ a ∈ fraction, isWordChar a) (hr : rest.head?.any isWordChar = false) :
    wordTail c (tail ++ '.' :: (fraction ++ rest)) = tail ++ '.' :: fraction := by
  have hall : ∀ a ∈ c :: tail, Decimal.isDigit a := by simpa [Decimal.isDigits] using hw
  have ht : ∀ a ∈ tail, isWordChar a := fun a ha =>
    isWordChar_of_isDigit (hall a (List.mem_cons_of_mem c ha))
  have hp : ('.' :: (fraction ++ rest)).head?.any isWordChar = false := rfl
  have hfr : opensFraction ('.' :: (fraction ++ rest)) = true := by
    cases fraction with
    | nil => simp at hd
    | cons d ds => simpa [opensFraction] using hd
  rw [wordTail, takeWhile_append_stop ht hp, dropWhile_append_stop ht hp]
  simp [hw, hfr, takeWhile_append_stop hf hr]

/-! ## Each shape is found -/

theorem head_word {c : Char} (h : isWordChar c) (cs : List Char) :
    head c cs = .lexeme (wordTail c cs) := by
  obtain ⟨hsilent, -, hmark, hquote, hperiod⟩ := apart_of_isWordChar h
  have hslash : c ≠ '/' := isWordChar_ne h (by decide)
  simp [head, hsilent, hslash, hquote, hmark, hperiod, h]

theorem head_operator {c : Char} {cs : List Char} (h : isOperatorChar c)
    (ho : opensComment (c :: cs) = false) : head c cs = .lexeme (operatorRun cs) := by
  obtain ⟨hsilent, hword, hmark, hquote, hperiod⟩ := apart_of_isOperatorChar h
  rw [← Bool.not_eq_true, opensComment_iff, and_or_left, not_or] at ho
  simp only [head, hsilent, ho.1, ho.2, hquote, hmark, hperiod, hword, h, Bool.false_eq_true,
    if_false, if_true]

theorem head_filler {c : Char} {tail : List Char} (h : Filler (c :: tail)) (rest : List Char) :
    head c (tail ++ rest) = .gap tail := by
  cases h with
  | blank hc => simp [head, hc]
  | @line body hb =>
    have hl : ('/' :: (body ++ '\n' :: rest)).takeWhile (· ≠ '\n') = '/' :: body :=
      takeWhile_ne_append (x := '/' :: body) (by simpa using hb) (.inr rfl)
    have ht : throughNewline ('/' :: (body ++ '\n' :: rest)) = '/' :: (body ++ ['\n']) := by
      rw [throughNewline, hl]
      simp [List.take_append]
    simpa [head, isSilent] using ht
  | @block body hb =>
    have he := blockEnd?_closing rest hb
    simp [head, isSilent, he, List.take_append]

theorem head_openLine {c : Char} {tail : List Char} (h : OpenLine (c :: tail)) :
    head c tail = .gap tail := by
  obtain ⟨body, hb, he⟩ := h
  obtain ⟨rfl, rfl⟩ := List.cons.inj he
  have hl := takeWhile_ne_append (c := '\n') (x := '/' :: body) (by simpa using hb) (.inl rfl)
  rw [List.append_nil] at hl
  have ht : throughNewline ('/' :: body) = '/' :: body := by
    rw [throughNewline, hl]
    exact List.take_of_length_le (Nat.le_succ _)
  simpa [head, isSilent] using ht

theorem head_quote {q : Char} (hq : Text.isQuote q) (cs : List Char) :
    head q cs =
      match quoteEnd? q q (cs.takeWhile (· ≠ '\n')) with
      | some n => .lexeme ((cs.takeWhile (· ≠ '\n')).take (n + 1))
      | none => .fault (.string (q :: cs.takeWhile (· ≠ '\n'))) := by
  rcases (isQuote_iff q).mp hq with rfl | rfl <;> rfl

theorem head_mark {c : Char} (h : isMark c) (cs : List Char) : head c cs = .lexeme [] := by
  have hc := h
  simp only [isMark, isBracket, Bool.or_eq_true, decide_eq_true_eq] at hc
  obtain ((((((((rfl | rfl) | rfl) | rfl) | rfl) | rfl) | rfl) | rfl) | rfl) := hc <;> rfl

theorem head_lexeme {c : Char} {tail rest : List Char} (h : LexemeAt (c :: tail) rest) :
    head c (tail ++ rest) = .lexeme tail := by
  generalize hx : c :: tail = x at h
  cases h with
  | @quoted q body _ hq hline hbody hlast =>
    obtain ⟨rfl, rfl⟩ := List.cons.inj hx
    obtain ⟨hend, htake⟩ := quoteEnd?_line rest hq hline hbody hlast
    rw [head_quote hq, List.append_assoc, List.singleton_append, hend]
    simp only [htake]
  | mark hm =>
    obtain ⟨rfl, rfl⟩ := List.cons.inj hx
    exact head_mark hm _
  | period hr =>
    obtain ⟨rfl, rfl⟩ := List.cons.inj hx
    simp [head, isSilent, Text.isQuote, isMark, isBracket, hr]
  | range =>
    obtain ⟨rfl, rfl⟩ := List.cons.inj hx
    simp [head, isSilent, Text.isQuote, isMark, isBracket]
  | word _ hw hr hd =>
    subst hx
    have ht : ∀ a ∈ tail, isWordChar a := fun a ha => hw a (List.mem_cons_of_mem c ha)
    rw [head_word (hw c (List.mem_cons_self ..)), wordTail_word ht hr hd]
  | @number whole fraction _ hw hd hf hr =>
    obtain ⟨d, ds, rfl, hall⟩ := exists_cons_of_isDigits hw
    rw [List.cons_append] at hx
    obtain ⟨rfl, rfl⟩ := List.cons.inj hx
    have hc : Decimal.isDigit c := hall c (List.mem_cons_self ..)
    rw [head_word (isWordChar_of_isDigit hc), List.append_assoc, List.cons_append,
      wordTail_number hw hd hf hr]
  | operator _ ho =>
    subst hx
    rw [List.cons_append, operatorRun] at ho
    split at ho
    · next hc =>
      rw [Bool.and_eq_true, Bool.not_eq_true'] at hc
      rw [head_operator hc.1 hc.2, (List.cons.inj ho).2]
    · simp at ho

theorem head_fault {f : Fault} {c : Char} {cs : List Char} (h : FaultAt f (c :: cs)) :
    head c cs = .fault f := by
  cases h with
  | character hc =>
    obtain ⟨hs, hq, hm, hp, hw, ho⟩ := hc
    have hslash : c ≠ '/' := by
      rintro rfl
      simp [isOperatorChar] at ho
    simp [head, hs, hslash, hq, hm, hp, hw, ho]
  | @string q body rest hq hline hbody hr =>
    rw [head_quote hq, takeWhile_ne_append hline hr, (quoteEnd?_eq_none_iff _ _ _).mpr hbody]
  | @comment body hb =>
    have he := (blockEnd?_eq_none_iff body).mpr hb
    simp [head, isSilent, he]

/-! ## Every head has a shape -/

theorem shape_wordTail {c : Char} (hc : isWordChar c) (cs : List Char) :
    ∃ rest, cs = wordTail c cs ++ rest ∧ LexemeAt (c :: wordTail c cs) rest := by
  have hsplit := List.takeWhile_append_dropWhile (p := isWordChar) (l := cs)
  have hrest := head?_dropWhile_any isWordChar cs
  have hrun : ∀ a ∈ c :: cs.takeWhile isWordChar, isWordChar a := by
    intro a ha
    rcases List.mem_cons.mp ha with rfl | ha
    · exact hc
    · exact List.mem_takeWhile_imp ha
  rw [wordTail]
  generalize cs.takeWhile isWordChar = run at hsplit hrun ⊢
  generalize cs.dropWhile isWordChar = rest at hsplit hrest ⊢
  subst hsplit
  by_cases hf : Decimal.isDigits (c :: run) && opensFraction rest
  · rw [Bool.and_eq_true] at hf
    obtain ⟨hd, ho⟩ := hf
    unfold opensFraction at ho
    split at ho
    · next d ds =>
      have hw : isWordChar d := isWordChar_of_isDigit ho
      have hsplit := List.takeWhile_append_dropWhile (p := isWordChar) (l := d :: ds)
      refine ⟨(d :: ds).dropWhile isWordChar, ?_, ?_⟩
      · simp [hd, opensFraction, ho, hsplit]
      · have hl : LexemeAt ((c :: run) ++ '.' :: (d :: ds).takeWhile isWordChar)
            ((d :: ds).dropWhile isWordChar) := by
          refine .number hd ?_ (fun a ha => List.mem_takeWhile_imp ha)
            (head?_dropWhile_any isWordChar _)
          simpa [hw] using ho
        simpa [hd, opensFraction, ho] using hl
    · simp at ho
  · refine ⟨rest, by simp [hf], ?_⟩
    have hl : LexemeAt (c :: run) rest := by
      refine .word (by simp) hrun hrest ?_
      intro hd
      simpa [hd] using hf
    simpa [hf] using hl

/-- The head of a nonempty text is filler, a line comment at the end of the text, a lexeme or a
fault. -/
theorem head_shape (c : Char) (cs : List Char) :
    (∃ tail rest, cs = tail ++ rest ∧ Filler (c :: tail)) ∨ OpenLine (c :: cs) ∨
      (∃ tail rest, cs = tail ++ rest ∧ LexemeAt (c :: tail) rest) ∨ ∃ f, FaultAt f (c :: cs) := by
  -- The cases come in the order in which `head` tests for them.
  by_cases hs : isSilent c
  · exact .inl ⟨[], cs, rfl, .blank hs⟩
  by_cases ho : opensComment (c :: cs)
  · unfold opensComment at ho
    split at ho
    · next d ds heq =>
      obtain ⟨rfl, rfl⟩ := List.cons.inj heq
      simp only [Bool.or_eq_true, decide_eq_true_eq] at ho
      rcases ho with rfl | rfl
      · rcases line_split ds with ⟨body, rest, rfl, hb⟩ | hb
        · exact .inl ⟨'/' :: (body ++ ['\n']), rest, by simp, .line hb⟩
        · exact .inr (.inl ⟨ds, hb, rfl⟩)
      · rcases block_split ds with ⟨body, rest, rfl, hb⟩ | hb
        · exact .inl ⟨'*' :: (body ++ ['*', '/']), rest, by simp, .block hb⟩
        · exact .inr (.inr (.inr ⟨_, .comment hb⟩))
    · simp at ho
  by_cases hq : Text.isQuote c
  · rcases quote_split hq cs with ⟨body, rest, rfl, hl, hb, he⟩ | ⟨body, rest, rfl, hl, hb, hr⟩
    · exact .inr (.inr (.inl ⟨body ++ [c], rest, by simp, .quoted hq hl hb he⟩))
    · exact .inr (.inr (.inr ⟨_, .string hq hl hb hr⟩))
  by_cases hm : isMark c
  · exact .inr (.inr (.inl ⟨[], cs, rfl, .mark hm⟩))
  by_cases hp : c = '.'
  · subst hp
    by_cases hr : cs.head? = some '.'
    · obtain ⟨rest, rfl⟩ := List.head?_eq_some_iff.mp hr
      exact .inr (.inr (.inl ⟨['.'], rest, rfl, .range⟩))
    · exact .inr (.inr (.inl ⟨[], cs, rfl, .period hr⟩))
  by_cases hw : isWordChar c
  · obtain ⟨rest, heq, hl⟩ := shape_wordTail hw cs
    exact .inr (.inr (.inl ⟨_, rest, heq, hl⟩))
  by_cases hop : isOperatorChar c
  · obtain ⟨rest, heq⟩ := operatorRun_prefix cs
    refine .inr (.inr (.inl ⟨operatorRun cs, rest, heq.symm, .operator (by simp) ?_⟩))
    rw [List.cons_append, heq, operatorRun]
    simp [hop, ho]
  · exact .inr (.inr (.inr ⟨_, .character ⟨by simpa using hs, by simpa using hq, by simpa using hm,
      hp, by simpa using hw, by simpa using hop⟩⟩))

end Piece

/-! ## Scanning, shape by shape -/

theorem Filler.ne_nil {x : List Char} (h : Filler x) : x ≠ [] := by
  cases h <;> simp

theorem LexemeAt.ne_nil {x rest : List Char} (h : LexemeAt x rest) : x ≠ [] := by
  cases h with
  | quoted => simp
  | mark => simp
  | period => simp
  | range => simp
  | word hne => exact hne
  | number => simp
  | operator hne => exact hne

namespace Piece

variable {tabWidth : UInt32} {pos : Position}

@[simp] theorem scan_nil : scan tabWidth pos [] = .ok [] := by
  rw [scan]

theorem scan_filler {x : List Char} (h : Filler x) (rest : List Char) :
    scan tabWidth pos (x ++ rest) = scan tabWidth (pos.advanceOver tabWidth x) rest := by
  obtain ⟨c, tail, rfl⟩ := List.exists_cons_of_ne_nil h.ne_nil
  rw [List.cons_append, scan, head_filler h rest]
  simp

theorem scan_openLine {x : List Char} (h : OpenLine x) : scan tabWidth pos x = .ok [] := by
  obtain ⟨body, hb, rfl⟩ := h
  rw [scan, head_openLine ⟨body, hb, rfl⟩]
  simp

theorem scan_lexeme_ok {x rest : List Char} {token : Token} (h : LexemeAt x rest)
    (hx : classify (String.ofList x) pos = .ok token) :
    scan tabWidth pos (x ++ rest) =
      (scan tabWidth (pos.advanceOver tabWidth x) rest).map (token :: ·) := by
  obtain ⟨c, tail, rfl⟩ := List.exists_cons_of_ne_nil h.ne_nil
  rw [List.cons_append, scan, head_lexeme h]
  simp only [hx, List.drop_left]
  cases scan tabWidth (pos.advanceOver tabWidth (c :: tail)) rest <;> rfl

theorem scan_lexeme_error {x rest : List Char} {e : LexError} (h : LexemeAt x rest)
    (hx : classify (String.ofList x) pos = .error e) :
    scan tabWidth pos (x ++ rest) = .error e := by
  obtain ⟨c, tail, rfl⟩ := List.exists_cons_of_ne_nil h.ne_nil
  rw [List.cons_append, scan, head_lexeme h]
  simp only [hx]

theorem scan_lexeme_eq_ok {x rest : List Char} {tokens : List Token} (h : LexemeAt x rest)
    (hs : scan tabWidth pos (x ++ rest) = .ok tokens) :
    ∃ token ts, classify (String.ofList x) pos = .ok token ∧
      scan tabWidth (pos.advanceOver tabWidth x) rest = .ok ts ∧ token :: ts = tokens := by
  cases hx : classify (String.ofList x) pos with
  | error e => simp [scan_lexeme_error h hx] at hs
  | ok token =>
    rw [scan_lexeme_ok h hx] at hs
    cases hrest : scan tabWidth (pos.advanceOver tabWidth x) rest with
    | error e => simp [hrest, Except.map] at hs
    | ok ts =>
      rw [hrest] at hs
      exact ⟨token, ts, rfl, rfl, Except.ok.inj hs⟩

theorem scan_fault {f : Fault} {cs : List Char} (h : FaultAt f cs) :
    scan tabWidth pos cs = .error (f.error pos) := by
  obtain ⟨c, cs, rfl⟩ : ∃ c ds, cs = c :: ds := by cases h <;> exact ⟨_, _, rfl⟩
  rw [scan, head_fault h]

/-- Induction over the pieces of a text. -/
@[elab_as_elim]
theorem pieces_induction {motive : List Char → Prop} (nil : motive [])
    (filler : ∀ x rest, Filler x → motive rest → motive (x ++ rest))
    (openLine : ∀ x, OpenLine x → motive x)
    (lexeme : ∀ x rest, LexemeAt x rest → motive rest → motive (x ++ rest))
    (fault : ∀ f cs, FaultAt f cs → motive cs) (cs : List Char) : motive cs := by
  induction hn : cs.length using Nat.strong_induction_on generalizing cs with
  | h n ih =>
    cases cs with
    | nil => exact nil
    | cons c cs =>
      -- A piece is never empty, so what follows it is shorter.
      have shorter : ∀ tail rest : List Char, cs = tail ++ rest → motive rest := by
        intro tail rest heq
        refine ih rest.length ?_ rest rfl
        rw [← hn, heq, List.length_cons, List.length_append]
        omega
      rcases head_shape c cs with ⟨tail, rest, heq, h⟩ | h | ⟨tail, rest, heq, h⟩ | ⟨f, h⟩
      · rw [heq, ← List.cons_append]
        exact filler _ _ h (shorter tail rest heq)
      · exact openLine _ h
      · rw [heq, ← List.cons_append]
        exact lexeme _ _ h (shorter tail rest heq)
      · exact fault f _ h

end Piece

end ProjectD
