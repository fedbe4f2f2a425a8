import ProjectD.Proofs.Classification
import ProjectD.Proofs.Lookahead

/-! # The kind of each shape of lexeme

The tables of the fixed vocabulary are read backwards (`Kind.SpelledBy`): a text is found in them
exactly when it spells the kind that is found. With that, what `classify` makes of a lexeme follows
from the shape of the lexeme, one equation for each shape: quoted literals, numerals, identifiers
and runs of operator symbols.
-/

set_option autoImplicit false

namespace ProjectD

/-! ## The fixed vocabulary -/

/-- A kind of the fixed vocabulary and the text that spells it. The keyword tables hold `is` and
`empty` too, but as tokens these are an operator and a literal. -/
inductive Kind.SpelledBy : Kind → String → Prop where
  | separator (s : Separator) : SpelledBy (.separator s) s.spelling
  | operator (o : Operator) : SpelledBy (.operator o) o.spelling
  | keyword {k : Keyword} (his : k ≠ .is) (hempty : k ≠ .empty) : SpelledBy (.keyword k) k.spelling
  | empty : SpelledBy (.literal .empty) "empty"

theorem Kind.SpelledBy.ofVocabulary? {kind : Kind} {lexeme : String} (h : kind.SpelledBy lexeme) :
    Kind.ofVocabulary? lexeme = some kind := by
  cases h with
  | separator s => cases s <;> decide
  | operator o => cases o <;> decide
  | @keyword k his hempty =>
    cases k with
    | is => exact absurd rfl his
    | empty => exact absurd rfl hempty
    | _ => decide
  | empty => decide

theorem Kind.spelledBy_of_ofVocabulary? {kind : Kind} {lexeme : String}
    (h : Kind.ofVocabulary? lexeme = some kind) : kind.SpelledBy lexeme := by
  unfold Kind.ofVocabulary? at h
  split at h
  · next s hs =>
    obtain rfl := Option.some.inj h
    obtain rfl : s.spelling = lexeme := Separator.ofSpelling?_eq_some_iff.mp hs
    exact .separator s
  · split at h
    · next o ho =>
      obtain rfl := Option.some.inj h
      obtain rfl : o.spelling = lexeme := Operator.ofSpelling?_eq_some_iff.mp ho
      exact .operator o
    · next ho =>
      split at h
      · next hk =>
        obtain rfl := Option.some.inj h
        obtain rfl : Keyword.empty.spelling = lexeme := Keyword.ofSpelling?_eq_some_iff.mp hk
        exact .empty
      · next k hempty hk =>
        obtain rfl := Option.some.inj h
        obtain rfl : k.spelling = lexeme := Keyword.ofSpelling?_eq_some_iff.mp hk
        refine .keyword ?_ hempty
        -- The word `is` is found among the operators, which come first.
        rintro rfl
        exact absurd ho (by decide)
      · simp at h

theorem Kind.ofVocabulary?_eq_some_iff {kind : Kind} {lexeme : String} :
    Kind.ofVocabulary? lexeme = some kind ↔ kind.SpelledBy lexeme :=
  ⟨Kind.spelledBy_of_ofVocabulary?, Kind.SpelledBy.ofVocabulary?⟩

theorem Kind.ofVocabulary?_eq_none_iff {lexeme : String} :
    Kind.ofVocabulary? lexeme = none ↔ ∀ kind : Kind, ¬ kind.SpelledBy lexeme := by
  simp only [Option.eq_none_iff_forall_ne_some, ne_eq, Kind.ofVocabulary?_eq_some_iff]

/-- A text outside the vocabulary spells no operator. -/
theorem Operator.ne_spelling {lexeme : String} (h : Kind.ofVocabulary? lexeme = none)
    (o : Operator) : lexeme ≠ o.spelling := by
  rintro rfl
  exact Kind.ofVocabulary?_eq_none_iff.mp h _ (.operator o)

/-- A text outside the vocabulary spells no keyword, in either reading of the two double words. -/
theorem Keyword.ne_spelling {lexeme : String} (h : Kind.ofVocabulary? lexeme = none)
    (k : Keyword) : lexeme ≠ k.spelling := by
  rintro rfl
  have hnone := Kind.ofVocabulary?_eq_none_iff.mp h
  by_cases his : k = .is
  · subst his
    exact hnone _ (.operator .is)
  by_cases hempty : k = .empty
  · subst hempty
    exact hnone _ .empty
  exact hnone _ (.keyword his hempty)

/-- No text of the vocabulary starts like a numeral or like a quoted literal, and only operators
start with an operator symbol. -/
theorem Kind.SpelledBy.head {kind : Kind} {c : Char} {cs : List Char}
    (h : kind.SpelledBy (String.ofList (c :: cs))) :
    Decimal.isDigit c = false ∧ Text.isQuote c = false ∧
      (isOperatorChar c → ∃ o : Operator, kind = .operator o) := by
  generalize hx : String.ofList (c :: cs) = lexeme at h
  have hc : lexeme.toList.head? = some c := by
    rw [← hx, String.toList_ofList]
    rfl
  clear hx
  cases h with
  | separator s =>
    cases s <;> obtain rfl := Option.some.inj hc <;>
      exact ⟨by decide, by decide, fun h => absurd h (by decide)⟩
  | operator o =>
    cases o <;> obtain rfl := Option.some.inj hc <;> exact ⟨by decide, by decide, fun _ => ⟨_, rfl⟩⟩
  | @keyword k =>
    cases k <;> obtain rfl := Option.some.inj hc <;>
      exact ⟨by decide, by decide, fun h => absurd h (by decide)⟩
  | empty =>
    obtain rfl := Option.some.inj hc
    exact ⟨by decide, by decide, fun h => absurd h (by decide)⟩

theorem ofVocabulary?_eq_none_of_head {c : Char} (cs : List Char)
    (h : Decimal.isDigit c ∨ Text.isQuote c) :
    Kind.ofVocabulary? (String.ofList (c :: cs)) = none := by
  rw [Kind.ofVocabulary?_eq_none_iff]
  intro kind hk
  obtain ⟨hd, hq, -⟩ := hk.head
  simp [hd, hq] at h

theorem classify_of_spelledBy {kind : Kind} {lexeme : String} (h : kind.SpelledBy lexeme)
    (pos : Position) : classify lexeme pos = .ok ⟨lexeme, pos, kind⟩ :=
  classify_of_ofVocabulary? h.ofVocabulary? pos

theorem exists_separator_of_isMark {c : Char} (h : Piece.isMark c) :
    ∃ s : Separator, (Kind.separator s).SpelledBy (String.ofList [c]) := by
  simp only [Piece.isMark, isBracket, Bool.or_eq_true, decide_eq_true_eq] at h
  obtain ((((((((rfl | rfl) | rfl) | rfl) | rfl) | rfl) | rfl) | rfl) | rfl) := h
  · exact ⟨_, .separator .parenOpen⟩
  · exact ⟨_, .separator .parenClose⟩
  · exact ⟨_, .separator .bracketOpen⟩
  · exact ⟨_, .separator .bracketClose⟩
  · exact ⟨_, .separator .curlyOpen⟩
  · exact ⟨_, .separator .curlyClose⟩
  · exact ⟨_, .separator .semicolon⟩
  · exact ⟨_, .separator .comma⟩
  · exact ⟨_, .separator .newline⟩

/-! ## Quoted literals -/

theorem unquote?_eq_none_of_ne {q c : Char} (h : c ≠ q) (cs : List Char) :
    unquote? q (c :: cs) = none := by
  simp [unquote?, h]

theorem unquote?_quoted (q : Char) (body : List Char) :
    unquote? q (q :: (body ++ [q])) = some body := by
  simp [unquote?]

theorem classify_quoted {q : Char} (hq : Text.isQuote q) (body : List Char) (pos : Position) :
    classify (String.ofList (q :: (body ++ [q]))) pos =
      .ok ⟨String.ofList (q :: (body ++ [q])), pos, .literal (.string (String.ofList body))⟩ := by
  have hv := ofVocabulary?_eq_none_of_head (body ++ [q]) (.inr hq)
  have hu : (unquote? '"' (q :: (body ++ [q]))).or (unquote? '\'' (q :: (body ++ [q]))) =
      some body := by
    rcases (Piece.isQuote_iff q).mp hq with rfl | rfl
    · rw [unquote?_quoted]
      rfl
    · rw [unquote?_eq_none_of_ne (by decide), unquote?_quoted]
      rfl
  exact classify_of_unquote hv (by rw [String.toList_ofList, hu]) pos

/-! ## Numerals -/

namespace Numeral

theorem splitSign_of_isDigit {c : Char} (h : Decimal.isDigit c) (cs : List Char) :
    splitSign (c :: cs) = (false, c :: cs) := by
  unfold splitSign
  split
  · next heq =>
    obtain ⟨rfl, rfl⟩ := List.cons.inj heq
    exact absurd h (by decide)
  · next heq =>
    obtain ⟨rfl, rfl⟩ := List.cons.inj heq
    exact absurd h (by decide)
  · rfl

theorem parse?_of_isDigits {cs digits : List Char} {negative : Bool}
    (hsign : splitSign cs = (negative, digits)) (h : Decimal.isDigits digits) :
    parse? cs = integer? negative digits := by
  simp only [parse?, hsign, h, if_true]

theorem parse?_digits {x : List Char} (h : Decimal.isDigits x) :
    parse? x =
      if (Decimal.value x : Int) ≤ greatestInteger then some (.integer (Decimal.value x))
      else none := by
  obtain ⟨c, cs, rfl, hall⟩ := Piece.exists_cons_of_isDigits h
  have hc : Decimal.isDigit c := hall c (List.mem_cons_self ..)
  have hleast : leastInteger ≤ (Decimal.value (c :: cs) : Int) := by
    unfold leastInteger
    omega
  rw [parse?_of_isDigits (splitSign_of_isDigit hc cs) h]
  simp only [integer?, Bool.false_eq_true, if_false, hleast, true_and]

/-- A text that starts with a digit, has no period and is not all digits is no numeral. -/
theorem parse?_eq_none_of_word {c : Char} {cs : List Char} (hc : Decimal.isDigit c)
    (hp : '.' ∉ c :: cs) (hd : Decimal.isDigits (c :: cs) = false) : parse? (c :: cs) = none := by
  have ht : (c :: cs).dropWhile (· ≠ '.') = [] := by
    rw [List.dropWhile_eq_nil_iff]
    intro a ha
    have : a ≠ '.' := fun e => hp (e ▸ ha)
    simpa using this
  have hnil : Decimal.isDigits [] = false := rfl
  simp only [parse?, splitSign_of_isDigit hc, hd, ht, List.drop_nil, hnil, Bool.false_eq_true,
    if_false, and_false]

/-- After the sign, digits and a period: what follows decides. -/
theorem parse?_of_period {cs whole fraction : List Char} {negative : Bool}
    (hsign : splitSign cs = (negative, whole ++ '.' :: fraction)) (hw : Decimal.isDigits whole) :
    parse? cs =
      if Decimal.isDigits fraction then some (real negative whole fraction) else none := by
  obtain ⟨c, ds, rfl, hall⟩ := Piece.exists_cons_of_isDigits hw
  have hne : ∀ a ∈ c :: ds, decide (a ≠ '.') = true := by
    intro a ha
    have : a ≠ '.' := by
      rintro rfl
      exact absurd (hall _ ha) (by decide)
    simpa using this
  have hstop : ('.' :: fraction).head?.any (· ≠ '.') = false := rfl
  have hbody : Decimal.isDigits (c :: ds ++ '.' :: fraction) = false := by
    rw [← Bool.not_eq_true, Decimal.isDigits, Bool.and_eq_true, List.all_eq_true]
    rintro ⟨-, h⟩
    exact absurd (h '.' (by simp)) (by decide)
  simp only [parse?, hsign, hbody, takeWhile_append_stop hne hstop,
    dropWhile_append_stop hne hstop, hw, Bool.false_eq_true, if_false, true_and, List.drop_one,
    List.tail_cons]

theorem parse?_number {whole : List Char} (hw : Decimal.isDigits whole) (fraction : List Char) :
    parse? (whole ++ '.' :: fraction) =
      if Decimal.isDigits fraction then some (real false whole fraction) else none := by
  refine parse?_of_period ?_ hw
  obtain ⟨c, cs, rfl, hall⟩ := Piece.exists_cons_of_isDigits hw
  exact splitSign_of_isDigit (hall c (List.mem_cons_self ..)) _

end Numeral

/-- What starts with a digit is a numeral or nothing. -/
theorem classify_numeral {c : Char} (hc : Decimal.isDigit c) (cs : List Char) (pos : Position) :
    classify (String.ofList (c :: cs)) pos =
      (Numeral.parse? (c :: cs)).elim (.error (.malformedLiteral pos (String.ofList (c :: cs))))
        fun literal => .ok ⟨String.ofList (c :: cs), pos, .literal literal⟩ := by
  have hv := ofVocabulary?_eq_none_of_head cs (.inl hc)
  have hquote : ∀ q, Decimal.isDigit q = false → unquote? q (c :: cs) = none := by
    intro q hq
    apply unquote?_eq_none_of_ne
    rintro rfl
    simp [hq] at hc
  have hn : Numeral.looksNumeric (c :: cs) = true := by
    simp [Numeral.looksNumeric, Numeral.splitSign_of_isDigit hc, hc]
  have hclass := classify_of_looksNumeric hv (by
    rw [String.toList_ofList, hquote '"' (by decide), hquote '\'' (by decide)]
    rfl) (by rwa [String.toList_ofList]) pos
  rwa [String.toList_ofList] at hclass

/-! ## Identifiers and runs of operator symbols -/

/-- What spells nothing, is not quoted and does not look like a number is an identifier or
nothing. -/
theorem classify_name {c : Char} {cs : List Char}
    (hv : Kind.ofVocabulary? (String.ofList (c :: cs)) = none) (hq : Text.isQuote c = false)
    (hn : Numeral.looksNumeric (c :: cs) = false) (pos : Position) :
    classify (String.ofList (c :: cs)) pos =
      if isIdentifier (c :: cs) then
        .ok ⟨String.ofList (c :: cs), pos, .identifier (String.ofList (c :: cs))⟩
      else .error (.malformedIdentifier pos (String.ofList (c :: cs))) := by
  have hquote : c ≠ '"' ∧ c ≠ '\'' := by
    rw [← not_or, ← Piece.isQuote_iff, Bool.not_eq_true]
    exact hq
  have hclass := classify_of_name hv (by
    rw [String.toList_ofList, unquote?_eq_none_of_ne hquote.1, unquote?_eq_none_of_ne hquote.2]
    rfl) (by rwa [String.toList_ofList]) pos
  rwa [String.toList_ofList] at hclass

theorem Numeral.looksNumeric_cons_eq_false {c : Char} {cs : List Char}
    (hc : Decimal.isDigit c = false) (hcs : cs.head?.any Decimal.isDigit → isWordChar c) :
    Numeral.looksNumeric (c :: cs) = false := by
  have hsign : ∀ d, isWordChar d = false → c = d → cs.head?.any Decimal.isDigit = false := by
    rintro d hd rfl
    rw [← Bool.not_eq_true] at hd ⊢
    exact fun h => hd (hcs h)
  unfold Numeral.looksNumeric Numeral.splitSign
  split
  · next heq =>
    obtain ⟨h, rfl⟩ := List.cons.inj heq
    exact hsign '-' (by decide) h
  · next heq =>
    obtain ⟨h, rfl⟩ := List.cons.inj heq
    exact hsign '+' (by decide) h
  · simpa using hc

theorem isDigit_eq_false_of_isLetter {c : Char} (h : isLetter c) : Decimal.isDigit c = false := by
  simp only [isLetter, Bool.or_eq_true, Bool.and_eq_true, decide_eq_true_eq, Char.le_def,
    UInt32.le_iff_toNat_le, Char.reduceVal, UInt32.reduceToNat] at h
  rw [← Bool.not_eq_true]
  simp only [Decimal.isDigit, Bool.and_eq_true, decide_eq_true_eq, Char.le_def,
    UInt32.le_iff_toNat_le, Char.reduceVal, UInt32.reduceToNat]
  omega

/-- An identifier is a word that does not start with a digit. -/
theorem isIdentifier_cons_iff {c : Char} {cs : List Char} :
    isIdentifier (c :: cs) ↔ Decimal.isDigit c = false ∧ ∀ a ∈ c :: cs, isWordChar a := by
  have hfirst : (isLetter c || decide (c = '_')) = true ↔
      Decimal.isDigit c = false ∧ isWordChar c := by
    constructor
    · rw [Bool.or_eq_true, decide_eq_true_eq]
      rintro (hl | rfl)
      · exact ⟨isDigit_eq_false_of_isLetter hl, by simp [isWordChar, hl]⟩
      · decide
    · rintro ⟨hd, hw⟩
      simpa [isWordChar, hd] using hw
  rw [isIdentifier, Bool.and_eq_true, hfirst, List.all_eq_true, List.forall_mem_cons, and_assoc]

/-- A word that does not start with a digit is a token: a word of the vocabulary, or else an
identifier. -/
theorem classify_identifier {x : List Char} (h : isIdentifier x) :
    (∃ kind : Kind, kind.SpelledBy (String.ofList x)) ∨
      Kind.ofVocabulary? (String.ofList x) = none ∧ ∀ pos, classify (String.ofList x) pos =
        .ok ⟨String.ofList x, pos, .identifier (String.ofList x)⟩ := by
  cases hv : Kind.ofVocabulary? (String.ofList x) with
  | some kind => exact .inl ⟨kind, Kind.spelledBy_of_ofVocabulary? hv⟩
  | none =>
    refine .inr ⟨rfl, fun pos => ?_⟩
    cases x with
    | nil => simp [isIdentifier] at h
    | cons c cs =>
      obtain ⟨hd, hw⟩ := isIdentifier_cons_iff.mp h
      have hword : isWordChar c := hw c (List.mem_cons_self ..)
      obtain ⟨-, -, -, hq, -⟩ := Piece.apart_of_isWordChar hword
      rw [classify_name hv hq (Numeral.looksNumeric_cons_eq_false hd fun _ => hword) pos, if_pos h]

/-- A run of operator symbols is an operator or nothing. -/
theorem classify_symbols {x : List Char} (hne : x ≠ []) (hx : ∀ c ∈ x, isOperatorChar c) :
    (∃ o : Operator, String.ofList x = o.spelling) ∨
      Kind.ofVocabulary? (String.ofList x) = none ∧ ∀ pos, classify (String.ofList x) pos =
        .error (.malformedIdentifier pos (String.ofList x)) := by
  obtain ⟨c, cs, rfl⟩ := List.exists_cons_of_ne_nil hne
  have hc : isOperatorChar c := hx c (List.mem_cons_self ..)
  obtain ⟨-, hword, -, hq, -⟩ := Piece.apart_of_isOperatorChar hc
  cases hv : Kind.ofVocabulary? (String.ofList (c :: cs)) with
  | some kind =>
    have hk := Kind.spelledBy_of_ofVocabulary? hv
    obtain ⟨o, rfl⟩ := hk.head.2.2 hc
    generalize String.ofList (c :: cs) = lexeme at hk
    cases hk
    exact .inl ⟨o, rfl⟩
  | none =>
    refine .inr ⟨rfl, fun pos => ?_⟩
    have hd : ∀ a ∈ c :: cs, Decimal.isDigit a = false := by
      intro a ha
      rw [← Bool.not_eq_true]
      intro hdigit
      have hw := Piece.isWordChar_of_isDigit hdigit
      rw [(Piece.apart_of_isOperatorChar (hx a ha)).2.1] at hw
      simp at hw
    have hcs : cs.head?.any Decimal.isDigit → isWordChar c := by
      intro h
      cases cs with
      | nil => simp at h
      | cons d ds => simp [hd d (by simp)] at h
    have hi : ¬ isIdentifier (c :: cs) := by
      rw [isIdentifier_cons_iff]
      rintro ⟨-, hw⟩
      simpa [hword] using hw c (List.mem_cons_self ..)
    rw [classify_name hv hq (Numeral.looksNumeric_cons_eq_false (hd c (by simp)) hcs) pos,
      if_neg hi]

end ProjectD
