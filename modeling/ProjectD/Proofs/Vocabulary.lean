import ProjectD.Proofs.Classification
import ProjectD.Proofs.Kinds
import ProjectD.Proofs.Simulation

/-! # What a scan can find

Every token of a scan has a kind and a lexeme that agree exactly (`Kind.WrittenAs`), and every error
of a scan is one of five, with a text that is really at fault (`LexError.Possible`). Both are facts
about one lexeme or one fault; `scan_findings` carries such facts over the whole scan.
-/

set_option autoImplicit false

namespace ProjectD

/-- A kind of token and a lexeme that writes it. -/
inductive Kind.WrittenAs : Kind → String → Prop where
  | separator {s : Separator} (h : s.isPersistent) : WrittenAs (.separator s) s.spelling
  | operator (o : Operator) : WrittenAs (.operator o) o.spelling
  | keyword {k : Keyword} (his : k ≠ .is) (hempty : k ≠ .empty) : WrittenAs (.keyword k) k.spelling
  | integer {x : List Char} (h : Decimal.isDigits x)
    (hmax : (Decimal.value x : Int) ≤ Numeral.greatestInteger) :
    WrittenAs (.literal (.integer (Decimal.value x))) (String.ofList x)
  | real {whole fraction : List Char} (hw : Decimal.isDigits whole)
    (hf : Decimal.isDigits fraction) :
    WrittenAs (.literal (Numeral.real false whole fraction))
      (String.ofList (whole ++ '.' :: fraction))
  | string {q : Char} {body : List Char} (hq : Text.isQuote q) (hline : '\n' ∉ body)
    (hbody : Escaped q q body) (hlast : body.getLast? ≠ some '\\') :
    WrittenAs (.literal (.string (String.ofList body))) (String.ofList (q :: (body ++ [q])))
  | empty : WrittenAs (.literal .empty) "empty"
  /-- The keywords of the table include `is` and `empty`. -/
  | identifier {x : List Char} (h : isIdentifier x)
    (ho : ∀ o : Operator, String.ofList x ≠ o.spelling)
    (hk : ∀ k : Keyword, String.ofList x ≠ k.spelling) :
    WrittenAs (.identifier (String.ofList x)) (String.ofList x)

/-- The errors that a scan can end with. -/
inductive LexError.Possible : LexError → Prop where
  | character {pos : Position} {c : Char} (hs : ∀ s : Separator, c ≠ s.char)
    (hq : Text.isQuote c = false) (hw : isWordChar c = false) (ho : isOperatorChar c = false) :
    Possible (.unrecognizedCharacter pos c)
  | string {pos : Position} {q : Char} {body : List Char} (hq : Text.isQuote q)
    (hline : '\n' ∉ body) (hbody : Escaped q q body) :
    Possible (.unterminatedString pos (String.ofList (q :: body)))
  | comment {pos : Position} : Possible (.unterminatedComment pos)
  /-- Operator symbols that spell no operator. -/
  | identifier {pos : Position} {x : List Char} (hne : x ≠ []) (hx : ∀ c ∈ x, isOperatorChar c)
    (ho : ∀ o : Operator, String.ofList x ≠ o.spelling) :
    Possible (.malformedIdentifier pos (String.ofList x))
  /-- A word that starts with a digit and is no integer, or too large a one. -/
  | word {pos : Position} {x : List Char} (hd : x.head?.any Decimal.isDigit)
    (hx : ∀ c ∈ x, isWordChar c)
    (hn : Decimal.isDigits x → Numeral.greatestInteger < Decimal.value x) :
    Possible (.malformedLiteral pos (String.ofList x))
  /-- Digits and a fraction that starts with a digit and goes on with something else. -/
  | number {pos : Position} {whole fraction : List Char} (hw : Decimal.isDigits whole)
    (hd : fraction.head?.any Decimal.isDigit) (hf : ∀ c ∈ fraction, isWordChar c)
    (hn : Decimal.isDigits fraction = false) :
    Possible (.malformedLiteral pos (String.ofList (whole ++ '.' :: fraction)))

/-- What a lexeme at `pos` is classified as: a token whose kind it writes, or a possible error. -/
def Settled (x : List Char) (pos : Position) : Prop :=
  (∃ kind : Kind, kind.WrittenAs (String.ofList x) ∧
      classify (String.ofList x) pos = .ok ⟨String.ofList x, pos, kind⟩) ∨
    ∃ e : LexError, e.Possible ∧ classify (String.ofList x) pos = .error e

/-! ## Lexemes, shape by shape -/

/-- Blanks alone are separators without a token. -/
theorem Kind.SpelledBy.writtenAs {kind : Kind} {c : Char} {cs : List Char}
    (h : kind.SpelledBy (String.ofList (c :: cs))) (hc : isSilent c = false) :
    kind.WrittenAs (String.ofList (c :: cs)) := by
  generalize hx : String.ofList (c :: cs) = lexeme at h
  cases h with
  | separator s =>
    refine .separator ?_
    have hchar : s.char = c := by
      have hlist := congrArg (fun l => l.toList.head?) hx
      simpa [Separator.spelling] using hlist.symm
    rw [← hchar] at hc
    revert hc
    cases s <;> decide
  | operator o => exact .operator o
  | keyword his hempty => exact .keyword his hempty
  | empty => exact .empty

theorem settled_of_spelledBy {kind : Kind} {c : Char} {cs : List Char} (pos : Position)
    (h : kind.SpelledBy (String.ofList (c :: cs))) (hc : isSilent c = false) :
    Settled (c :: cs) pos :=
  .inl ⟨kind, h.writtenAs hc, classify_of_spelledBy h pos⟩

theorem settled_mark {c : Char} (h : Piece.isMark c) (pos : Position) : Settled [c] pos := by
  obtain ⟨s, hs⟩ := exists_separator_of_isMark h
  exact settled_of_spelledBy pos hs (Piece.apart_of_isMark h).1

theorem settled_digits {x : List Char} (h : Decimal.isDigits x) (pos : Position) :
    Settled x pos := by
  obtain ⟨c, cs, rfl, hall⟩ := Piece.exists_cons_of_isDigits h
  have hc := hall c (List.mem_cons_self ..)
  have hclass := classify_numeral hc cs pos
  rw [Numeral.parse?_digits h] at hclass
  by_cases hmax : (Decimal.value (c :: cs) : Int) ≤ Numeral.greatestInteger
  · rw [if_pos hmax] at hclass
    exact .inl ⟨_, .integer h hmax, hclass⟩
  · rw [if_neg hmax] at hclass
    refine .inr ⟨_, .word (by simpa using hc) ?_ (fun _ => Int.lt_of_not_ge hmax), hclass⟩
    exact fun a ha => Piece.isWordChar_of_isDigit (hall a ha)

/-- A word is in the vocabulary, an identifier, an integer, or starts with a digit and is no
numeral. -/
theorem settled_word {x : List Char} (hne : x ≠ []) (hx : ∀ c ∈ x, isWordChar c)
    (pos : Position) : Settled x pos := by
  obtain ⟨c, cs, rfl⟩ := List.exists_cons_of_ne_nil hne
  have hc : isWordChar c := hx c (List.mem_cons_self ..)
  by_cases hd : Decimal.isDigit c
  · by_cases hdigits : Decimal.isDigits (c :: cs)
    · exact settled_digits hdigits pos
    · rw [Bool.not_eq_true] at hdigits
      have hperiod : '.' ∉ c :: cs := fun hmem => absurd (hx _ hmem) (by decide)
      have hclass := classify_numeral hd cs pos
      rw [Numeral.parse?_eq_none_of_word hd hperiod hdigits] at hclass
      exact .inr ⟨_, .word (by simpa using hd) hx (by simp [hdigits]), hclass⟩
  · rw [Bool.not_eq_true] at hd
    have hid : isIdentifier (c :: cs) := isIdentifier_cons_iff.mpr ⟨hd, hx⟩
    rcases classify_identifier hid with ⟨kind, hk⟩ | ⟨hv, hclass⟩
    · exact settled_of_spelledBy pos hk (Piece.apart_of_isWordChar hc).1
    · exact .inl ⟨_, .identifier hid (Operator.ne_spelling hv) (Keyword.ne_spelling hv), hclass pos⟩

theorem settled_number {whole fraction : List Char} (hw : Decimal.isDigits whole)
    (hd : fraction.head?.any Decimal.isDigit) (hf : ∀ c ∈ fraction, isWordChar c)
    (pos : Position) : Settled (whole ++ '.' :: fraction) pos := by
  have hparse := Numeral.parse?_number hw fraction
  obtain ⟨c, cs, rfl, hall⟩ := Piece.exists_cons_of_isDigits hw
  have hclass := classify_numeral (hall c (List.mem_cons_self ..)) (cs ++ '.' :: fraction) pos
  rw [List.cons_append] at hparse
  rw [hparse] at hclass
  by_cases hdigits : Decimal.isDigits fraction
  · rw [if_pos hdigits] at hclass
    exact .inl ⟨_, .real hw hdigits, hclass⟩
  · rw [if_neg hdigits] at hclass
    exact .inr ⟨_, .number hw hd hf (by simpa using hdigits), hclass⟩

theorem settled_symbols {x : List Char} (hne : x ≠ []) (hx : ∀ c ∈ x, isOperatorChar c)
    (pos : Position) : Settled x pos := by
  rcases classify_symbols hne hx with ⟨o, ho⟩ | ⟨hv, hclass⟩
  · refine .inl ⟨.operator o, ho ▸ .operator o, ?_⟩
    exact classify_of_spelledBy (ho ▸ .operator o) pos
  · exact .inr ⟨_, .identifier hne hx (Operator.ne_spelling hv), hclass pos⟩

theorem LexemeAt.settled {x rest : List Char} (h : LexemeAt x rest) (pos : Position) :
    Settled x pos := by
  cases h with
  | @quoted q body _ hq hline hbody hlast =>
    exact .inl ⟨_, .string hq hline hbody hlast, classify_quoted hq body pos⟩
  | mark hm => exact settled_mark hm pos
  | period => exact settled_of_spelledBy pos (.separator .period) rfl
  | range => exact settled_of_spelledBy pos (.operator .range) rfl
  | word hne hx => exact settled_word hne hx pos
  | number hw hd hf => exact settled_number hw hd hf pos
  | operator hne ho =>
    refine settled_symbols hne (fun c hc => ?_) pos
    rw [← ho] at hc
    exact Piece.isOperatorChar_of_mem_operatorRun hc

/-! ## Faults -/

theorem IsStray.ne_separator {c : Char} (h : IsStray c) (s : Separator) : c ≠ s.char := by
  obtain ⟨hs, -, hm, hp, -, -⟩ := h
  rintro rfl
  cases s with
  | period => exact hp rfl
  | space => exact absurd hs (by decide)
  | tab => exact absurd hs (by decide)
  | carriageReturn => exact absurd hs (by decide)
  | _ => exact absurd hm (by decide)

theorem FaultAt.possible {f : Fault} {cs : List Char} (h : FaultAt f cs) (pos : Position) :
    (f.error pos).Possible := by
  cases h with
  | character hc =>
    have hs := hc.ne_separator
    obtain ⟨-, hq, -, -, hw, ho⟩ := hc
    exact .character hs hq hw ho
  | string hq hline hbody => exact .string hq hline hbody
  | comment => exact .comment

/-! ## The whole scan -/

namespace Piece

/-- What holds of every classified lexeme and of every fault holds of all that a scan finds. -/
theorem scan_findings {P : Token → Prop} {Q : LexError → Prop}
    (htoken : ∀ x rest pos token, LexemeAt x rest → classify (String.ofList x) pos = .ok token →
      P token)
    (herror : ∀ x rest pos e, LexemeAt x rest → classify (String.ofList x) pos = .error e → Q e)
    (hfault : ∀ f cs pos, FaultAt f cs → Q (f.error pos)) (tabWidth : UInt32) (pos : Position)
    (cs : List Char) :
    (∀ tokens, scan tabWidth pos cs = .ok tokens → ∀ t ∈ tokens, P t) ∧
      ∀ e, scan tabWidth pos cs = .error e → Q e := by
  induction cs using pieces_induction generalizing pos with
  | nil => simp
  | filler x rest hx ih =>
    rw [scan_filler hx]
    exact ih _
  | openLine x hx => simp [scan_openLine hx]
  | lexeme x rest hx ih =>
    cases hc : classify (String.ofList x) pos with
    | error e =>
      rw [scan_lexeme_error hx hc]
      simpa using herror x rest pos e hx hc
    | ok token =>
      have ht := htoken x rest pos token hx hc
      rw [scan_lexeme_ok hx hc]
      obtain ⟨hok, herr⟩ := ih (pos.advanceOver tabWidth x)
      cases hs : scan tabWidth (pos.advanceOver tabWidth x) rest with
      | error e => simpa [Except.map] using herr e hs
      | ok ts => simpa [Except.map, ht] using hok ts hs
  | fault f cs hf =>
    rw [scan_fault hf]
    simpa using hfault f cs pos hf

end Piece

/-- What holds of every classified lexeme holds of every token of a source. -/
theorem forall_mem_of_tokenize {P : Token → Prop} {source : String} {tabWidth : UInt32}
    {tokens : List Token} (h : tokenize source tabWidth = .ok tokens)
    (htoken : ∀ x rest pos token, LexemeAt x rest → classify (String.ofList x) pos = .ok token →
      P token) : ∀ t ∈ tokens, P t := by
  rw [tokenize_eq_map, Scanner.run_ofString] at h
  exact (Piece.scan_findings htoken (fun _ _ _ _ _ _ => trivial) (fun _ _ _ _ => trivial) tabWidth
    Position.start source.toList).1 tokens h

/-- The kind and the lexeme of every token agree, and every error is a possible one. -/
theorem tokenize_vocabulary (source : String) (tabWidth : UInt32) :
    (∀ tokens, tokenize source tabWidth = .ok tokens →
      ∀ t ∈ tokens, t.kind.WrittenAs t.lexeme) ∧
    ∀ e, tokenize source tabWidth = .error e → e.Possible := by
  rw [tokenize_eq_map, Scanner.run_ofString]
  apply Piece.scan_findings
  · intro x rest pos token hx hc
    rcases hx.settled pos with ⟨kind, hk, hclass⟩ | ⟨e, -, hclass⟩
    · rw [hclass] at hc
      obtain rfl := Except.ok.inj hc
      exact hk
    · simp [hclass] at hc
  · intro x rest pos e hx hc
    rcases hx.settled pos with ⟨kind, -, hclass⟩ | ⟨e', he, hclass⟩
    · simp [hclass] at hc
    · rw [hclass] at hc
      obtain rfl := Except.error.inj hc
      exact he
  · exact fun f cs pos hf => hf.possible pos

/-- The tokens of a text with words, symbols and literals of every type. -/
def mixedTokens : List Token :=
  [⟨"if", ⟨1, 1⟩, .keyword .ifWord⟩, ⟨"x_1", ⟨1, 4⟩, .identifier "x_1"⟩,
    ⟨">=", ⟨1, 7⟩, .operator .ge⟩, ⟨"007", ⟨1, 9⟩, .literal (.integer 7)⟩,
    ⟨"is", ⟨1, 13⟩, .operator .is⟩,
    ⟨"2.50", ⟨1, 16⟩, .literal (Numeral.real false ['2'] ['5', '0'])⟩,
    ⟨"'a\\'b'", ⟨1, 24⟩, .literal (.string "a\\'b")⟩, ⟨"..", ⟨1, 30⟩, .operator .range⟩,
    ⟨"empty", ⟨1, 32⟩, .literal .empty⟩]

theorem tokenize_vocabulary_kinds :
    tokenize "if x_1>=007 is 2.50\t'a\\'b'..empty" 4 = .ok mixedTokens ∧
      (Kind.literal (.string "a\\'b")).WrittenAs "'a\\'b'" ∧
      (Kind.literal (.integer 7)).WrittenAs "007" ∧
      tokenize "a <- 1" 4 = .error (.malformedIdentifier ⟨1, 3⟩ "<-") ∧
      (LexError.malformedIdentifier ⟨1, 3⟩ "<-").Possible := by
  have hok : tokenize "if x_1>=007 is 2.50\t'a\\'b'..empty" 4 = .ok mixedTokens := by
    decide +kernel
  have herr : tokenize "a <- 1" 4 = .error (.malformedIdentifier ⟨1, 3⟩ "<-") := by decide +kernel
  have hkinds := (tokenize_vocabulary _ _).1 _ hok
  refine ⟨hok, ?_, ?_, herr, (tokenize_vocabulary _ _).2 _ herr⟩
  · exact hkinds ⟨"'a\\'b'", ⟨1, 24⟩, .literal (.string "a\\'b")⟩ (by simp [mixedTokens])
  · exact hkinds ⟨"007", ⟨1, 9⟩, .literal (.integer 7)⟩ (by simp [mixedTokens])

end ProjectD
