import ProjectD.Proofs.Kinds
import ProjectD.Proofs.Waiting

/-! # Lexemes and what may stand next to them

`IsLexeme` lists the lexemes of the language, each on its own. Before a given text a lexeme is found
whole (`LexemeAt`) exactly when the text does not go on with it: no word goes on after a word, no
operator symbol after an operator, no period after a period, and no fraction after digits.

* `IsLexeme.classify_ok`: every lexeme is a token.
* `IsLexeme.lexemeAt`: a lexeme that is not continued is found whole.
* `LexemeAt.of_word`, `LexemeAt.of_symbols`, `LexemeAt.of_period`: what is found whole is not
  continued.
-/

set_option autoImplicit false

namespace ProjectD

open Piece

/-- Operators written with symbols; the range operator, written with periods, is not among them. -/
def Operator.isSymbolic : Operator → Bool
  | .not | .or | .and | .xor | .is | .range => false
  | _ => true

example : (Operator.all.filter Operator.isSymbolic).map Operator.spelling =
    [":=", "<", "<=", ">", ">=", "=", "/=", "+", "-", "*", "/", "=>"] := rfl

inductive IsLexeme : List Char → Prop where
  | word {x : List Char} (h : isIdentifier x) : IsLexeme x
  | digits {x : List Char} (h : Decimal.isDigits x)
    (hmax : (Decimal.value x : Int) ≤ Numeral.greatestInteger) : IsLexeme x
  | real {whole fraction : List Char} (hw : Decimal.isDigits whole)
    (hf : Decimal.isDigits fraction) : IsLexeme (whole ++ '.' :: fraction)
  | operator {o : Operator} (h : o.isSymbolic) : IsLexeme o.spelling.toList
  | range : IsLexeme ['.', '.']
  | period : IsLexeme ['.']
  | mark {c : Char} (h : isMark c) : IsLexeme [c]
  | quoted {q : Char} {body : List Char} (hq : Text.isQuote q) (hline : '\n' ∉ body)
    (hbody : Escaped q q body) (hlast : body.getLast? ≠ some '\\') : IsLexeme (q :: (body ++ [q]))

/-- One of the symbol operators. -/
def IsSymbolOperator (x : List Char) : Prop :=
  ∃ o : Operator, o.isSymbolic ∧ x = o.spelling.toList

/-! ## Lexemes on their own -/

theorem IsSymbolOperator.head {x : List Char} (h : IsSymbolOperator x) :
    x.head?.any isOperatorChar := by
  obtain ⟨o, ho, rfl⟩ := h
  revert ho
  cases o <;> decide

/-- What the first character says about a lexeme. -/
theorem IsLexeme.head {x : List Char} (h : IsLexeme x) :
    ∃ c cs, x = c :: cs ∧ isSilent c = false ∧ (isOperatorChar c → IsSymbolOperator x) ∧
      (c = '.' → x = ['.'] ∨ x = ['.', '.']) := by
  have of_word : ∀ c cs, isWordChar c → ∃ d ds, c :: cs = d :: ds ∧ isSilent d = false ∧
      (isOperatorChar d → IsSymbolOperator (c :: cs)) ∧
      (d = '.' → c :: cs = ['.'] ∨ c :: cs = ['.', '.']) := by
    intro c cs hc
    obtain ⟨hs, ho, -, -, hp⟩ := apart_of_isWordChar hc
    exact ⟨c, cs, rfl, hs, by simp [ho], fun e => absurd e hp⟩
  cases h with
  | word h =>
    cases x with
    | nil => simp [isIdentifier] at h
    | cons c cs => exact of_word c cs ((isIdentifier_cons_iff.mp h).2 c (List.mem_cons_self ..))
  | digits h =>
    obtain ⟨c, cs, rfl, hall⟩ := exists_cons_of_isDigits h
    exact of_word c cs (isWordChar_of_isDigit (hall c (List.mem_cons_self ..)))
  | real hw =>
    obtain ⟨c, cs, rfl, hall⟩ := exists_cons_of_isDigits hw
    exact of_word c _ (isWordChar_of_isDigit (hall c (List.mem_cons_self ..)))
  | @operator o ho =>
    have hx : IsSymbolOperator o.spelling.toList := ⟨o, ho, rfl⟩
    have hhead := hx.head
    cases hl : o.spelling.toList with
    | nil => simp [hl] at hhead
    | cons c cs =>
      rw [hl] at hx hhead
      have hc : isOperatorChar c := by simpa using hhead
      obtain ⟨hs, -, -, -, hp⟩ := apart_of_isOperatorChar hc
      exact ⟨c, cs, rfl, hs, fun _ => hx, fun e => absurd e hp⟩
  | range => exact ⟨'.', ['.'], rfl, rfl, fun ho => absurd ho (by decide), fun _ => .inr rfl⟩
  | period => exact ⟨'.', [], rfl, rfl, fun ho => absurd ho (by decide), fun _ => .inl rfl⟩
  | @mark c hm =>
    obtain ⟨hs, hp⟩ := apart_of_isMark hm
    refine ⟨c, [], rfl, hs, fun ho => ?_, fun e => absurd e hp⟩
    rw [(apart_of_isOperatorChar ho).2.2.1] at hm
    exact absurd hm (by decide)
  | @quoted q body hq =>
    obtain ⟨hs, hp⟩ := apart_of_isQuote hq
    refine ⟨q, body ++ [q], rfl, hs, fun ho => ?_, fun e => absurd e hp⟩
    rw [(apart_of_isOperatorChar ho).2.2.2.1] at hq
    exact absurd hq (by decide)

theorem IsLexeme.classify_ok {x : List Char} (h : IsLexeme x) :
    ∃ kind, ∀ pos, classify (String.ofList x) pos = .ok ⟨String.ofList x, pos, kind⟩ := by
  cases h with
  | word h =>
    rcases classify_identifier h with ⟨kind, hk⟩ | ⟨-, hclass⟩
    · exact ⟨kind, classify_of_spelledBy hk⟩
    · exact ⟨_, hclass⟩
  | digits h hmax =>
    obtain ⟨c, cs, rfl, hall⟩ := exists_cons_of_isDigits h
    refine ⟨.literal (.integer (Decimal.value (c :: cs))), fun pos => ?_⟩
    rw [classify_numeral (hall c (List.mem_cons_self ..)) cs pos, Numeral.parse?_digits h,
      if_pos hmax, Option.elim_some]
  | @real whole fraction hw hf =>
    have hparse := Numeral.parse?_number hw fraction
    obtain ⟨c, cs, rfl, hall⟩ := exists_cons_of_isDigits hw
    refine ⟨.literal (Numeral.real false (c :: cs) fraction), fun pos => ?_⟩
    rw [List.cons_append] at hparse ⊢
    rw [classify_numeral (hall c (List.mem_cons_self ..)) _ pos, hparse, if_pos hf,
      Option.elim_some]
  | @operator o =>
    rw [String.ofList_toList]
    exact ⟨_, classify_of_spelledBy (.operator o)⟩
  | range => exact ⟨_, classify_of_spelledBy (.operator .range)⟩
  | period => exact ⟨_, classify_of_spelledBy (.separator .period)⟩
  | mark hm =>
    obtain ⟨s, hs⟩ := exists_separator_of_isMark hm
    exact ⟨_, classify_of_spelledBy hs⟩
  | @quoted q body hq => exact ⟨_, classify_quoted hq body⟩

/-! ## A lexeme that is not continued -/

theorem IsSymbolOperator.operatorRun_append {x rest : List Char} (h : IsSymbolOperator x)
    (hr : rest.head?.any isOperatorChar = false) : operatorRun (x ++ rest) = x := by
  have hcomment : opensComment ('/' :: rest) = false := by
    rw [← Bool.not_eq_true, opensComment_iff]
    rintro ⟨-, hc | hc⟩ <;> simp [hc, isOperatorChar] at hr
  obtain ⟨o, ho, rfl⟩ := h
  apply operatorRun_stop _ (.inl hr)
  cases o with
  | not | or | and | xor | is | range => simp [Operator.isSymbolic] at ho
  | div => simp [Operator.spelling, operatorRun, isOperatorChar, hcomment]
  | _ => simp [Operator.spelling, operatorRun, isOperatorChar, opensComment]

theorem IsLexeme.lexemeAt {x rest : List Char} (h : IsLexeme x)
    (hword : x.head?.any isWordChar → rest.head?.any isWordChar = false)
    (hfraction : Decimal.isDigits x → opensFraction rest = false)
    (hsymbol : IsSymbolOperator x → rest.head?.any isOperatorChar = false)
    (hperiod : x = ['.'] → rest.head? ≠ some '.') : LexemeAt x rest := by
  cases h with
  | word h =>
    cases x with
    | nil => simp [isIdentifier] at h
    | cons c cs =>
      have hx := (isIdentifier_cons_iff.mp h).2
      refine .word (by simp) hx (hword ?_) hfraction
      simpa using hx c (List.mem_cons_self ..)
  | digits h =>
    obtain ⟨c, cs, rfl, hall⟩ := exists_cons_of_isDigits h
    have hx : ∀ a ∈ c :: cs, isWordChar a := fun a ha => isWordChar_of_isDigit (hall a ha)
    refine .word (by simp) hx (hword ?_) hfraction
    simpa using hx c (List.mem_cons_self ..)
  | @real whole fraction hw hf =>
    obtain ⟨d, ds, rfl, hall⟩ := exists_cons_of_isDigits hf
    refine .number hw ?_ (fun a ha => isWordChar_of_isDigit (hall a ha)) (hword ?_)
    · simpa using hall d (List.mem_cons_self ..)
    · obtain ⟨c, cs, rfl, hcall⟩ := exists_cons_of_isDigits hw
      simpa using isWordChar_of_isDigit (hcall c (List.mem_cons_self ..))
  | @operator o ho =>
    have hx : IsSymbolOperator o.spelling.toList := ⟨o, ho, rfl⟩
    refine .operator ?_ (hx.operatorRun_append (hsymbol hx))
    intro hnil
    have hhead := hx.head
    simp [hnil] at hhead
  | range => exact .range
  | period => exact .period (hperiod rfl)
  | mark hm => exact .mark hm
  | quoted hq hline hbody hlast => exact .quoted hq hline hbody hlast

/-! ## What is found whole is not continued -/

/-- The first character of a lexeme settles its shape; the others are excluded one by one. -/
theorem LexemeAt.of_word {x rest : List Char} (h : LexemeAt x rest)
    (hx : x.head?.any isWordChar) :
    rest.head?.any isWordChar = false ∧ (Decimal.isDigits x → opensFraction rest = false) := by
  cases h with
  | @quoted q body _ hq =>
    rw [(apart_of_isWordChar (c := q) (by simpa using hx)).2.2.2.1] at hq
    exact absurd hq (by decide)
  | @mark c _ hm =>
    rw [(apart_of_isWordChar (c := c) (by simpa using hx)).2.2.1] at hm
    exact absurd hm (by decide)
  | period => exact absurd hx (by decide)
  | range => exact absurd hx (by decide)
  | word hne hw hr hd => exact ⟨hr, hd⟩
  | @number whole fraction _ hw hd hf hr =>
    refine ⟨hr, fun hdigits => ?_⟩
    obtain ⟨c, cs, heq, hall⟩ := exists_cons_of_isDigits hdigits
    rw [← heq] at hall
    exact absurd (hall '.' (by simp)) (by decide)
  | operator hne ho =>
    cases x with
    | nil => exact absurd rfl hne
    | cons c cs =>
      have hc : c ∈ operatorRun (c :: cs ++ rest) := by
        rw [ho]
        exact List.mem_cons_self ..
      have hop := isOperatorChar_of_mem_operatorRun hc
      rw [(apart_of_isWordChar (c := c) (by simpa using hx)).2.1] at hop
      exact absurd hop (by decide)

theorem LexemeAt.of_symbols {x rest : List Char} (h : LexemeAt x rest)
    (hx : x.head?.any isOperatorChar) : operatorRun (x ++ rest) = x := by
  have of_word : ∀ c, isWordChar c → isOperatorChar c → False := by
    intro c hw ho
    rw [(apart_of_isOperatorChar ho).2.1] at hw
    exact absurd hw (by decide)
  cases h with
  | @quoted q body _ hq =>
    rw [(apart_of_isOperatorChar (c := q) (by simpa using hx)).2.2.2.1] at hq
    exact absurd hq (by decide)
  | @mark c _ hm =>
    rw [(apart_of_isOperatorChar (c := c) (by simpa using hx)).2.2.1] at hm
    exact absurd hm (by decide)
  | period => exact absurd hx (by decide)
  | range => exact absurd hx (by decide)
  | word hne hw =>
    obtain ⟨c, cs, rfl⟩ := List.exists_cons_of_ne_nil hne
    exact (of_word c (hw c (List.mem_cons_self ..)) (by simpa using hx)).elim
  | number hw =>
    obtain ⟨c, cs, rfl, hall⟩ := exists_cons_of_isDigits hw
    have hc := isWordChar_of_isDigit (hall c (List.mem_cons_self ..))
    exact (of_word c hc (by simpa using hx)).elim
  | operator _ ho => exact ho

theorem LexemeAt.of_period {rest : List Char} (h : LexemeAt ['.'] rest) :
    rest.head? ≠ some '.' := by
  generalize hx : ['.'] = x at h
  cases h with
  | quoted => simp at hx
  | mark hm =>
    obtain rfl := (List.cons.inj hx).1
    exact absurd hm (by decide)
  | period hr => exact hr
  | range => simp at hx
  | word hne hw =>
    subst hx
    exact absurd (hw '.' (List.mem_cons_self ..)) (by decide)
  | number hw =>
    obtain ⟨c, cs, rfl, hall⟩ := exists_cons_of_isDigits hw
    rw [List.cons_append] at hx
    obtain rfl := (List.cons.inj hx).1
    exact absurd (hall '.' (List.mem_cons_self ..)) (by decide)
  | operator hne ho =>
    subst hx
    simp [operatorRun, isOperatorChar] at ho

/-- After a whole run of operator symbols stands no symbol but the first of a comment. -/
theorem Piece.operatorRun_rest {x rest : List Char} (h : operatorRun (x ++ rest) = x) :
    operatorRun rest = [] := by
  induction x with
  | nil => exact h
  | cons c x ih =>
    rw [List.cons_append, operatorRun] at h
    split at h
    · exact ih (List.cons.inj h).2
    · simp at h

end ProjectD
