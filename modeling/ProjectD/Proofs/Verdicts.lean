import ProjectD.Proofs.Kinds

/-! # What any text is

The rules of classification, stated for all texts and not only for those that a scan produces
(`Classified`). They are sound (`Classified.sound`) and leave no text out (`exists_classified`), so
each text has exactly one verdict and `classify` gives it. The order of the families matters for two
words only: `is`, an operator as well as a keyword, and `empty`, a literal as well as a keyword. All
other rules exclude each other by their first characters.
-/

set_option autoImplicit false

namespace ProjectD

/-! ## The rules -/

/-- Starts with a digit, after a sign or none. -/
def StartsLikeNumber (cs : List Char) : Prop :=
  ∃ sign c rest, cs = sign ++ c :: rest ∧ (sign = [] ∨ sign = ['+'] ∨ sign = ['-']) ∧
    Decimal.isDigit c

/-- A letter or underscore, and then letters, digits and underscores. -/
def IsName (cs : List Char) : Prop :=
  ∃ c rest, cs = c :: rest ∧ (isLetter c ∨ c = '_') ∧
    ∀ a ∈ rest, isLetter a ∨ Decimal.isDigit a ∨ a = '_'

/-- What a text is, without its position. -/
inductive Verdict where
  | token (kind : Kind)
  | malformedLiteral
  | malformedIdentifier

/-- A verdict on `lexeme` as the answer at `pos`. -/
def Verdict.answer (lexeme : String) (pos : Position) : Verdict → Except LexError Token
  | token kind => .ok ⟨lexeme, pos, kind⟩
  | malformedLiteral => .error (.malformedLiteral pos lexeme)
  | malformedIdentifier => .error (.malformedIdentifier pos lexeme)

inductive Classified : String → Verdict → Prop where
  | separator (s : Separator) : Classified s.spelling (.token (.separator s))
  | operator (o : Operator) : Classified o.spelling (.token (.operator o))
  | keyword {k : Keyword} (his : k ≠ .is) (hempty : k ≠ .empty) :
    Classified k.spelling (.token (.keyword k))
  | empty : Classified "empty" (.token (.literal .empty))
  | string {q : Char} (hq : q = '"' ∨ q = '\'') (body : List Char) :
    Classified (String.ofList (q :: (body ++ [q])))
      (.token (.literal (.string (String.ofList body))))
  | number {lexeme : String} {literal : Literal} (hn : StartsLikeNumber lexeme.toList)
    (hp : Numeral.parse? lexeme.toList = some literal) :
    Classified lexeme (.token (.literal literal))
  | malformedLiteral {lexeme : String} (hn : StartsLikeNumber lexeme.toList)
    (hp : Numeral.parse? lexeme.toList = none) : Classified lexeme .malformedLiteral
  | identifier {lexeme : String} (hname : IsName lexeme.toList)
    (ho : ∀ o : Operator, lexeme ≠ o.spelling) (hk : ∀ k : Keyword, lexeme ≠ k.spelling) :
    Classified lexeme (.token (.identifier lexeme))
  | malformedIdentifier {lexeme : String} (hs : ∀ s : Separator, lexeme ≠ s.spelling)
    (ho : ∀ o : Operator, lexeme ≠ o.spelling) (hk : ∀ k : Keyword, lexeme ≠ k.spelling)
    (hq : ∀ q body, q = '"' ∨ q = '\'' → lexeme ≠ String.ofList (q :: (body ++ [q])))
    (hn : ¬ StartsLikeNumber lexeme.toList) (hname : ¬ IsName lexeme.toList) :
    Classified lexeme .malformedIdentifier

/-! ## Shapes of texts -/

theorem head?_any_isDigit_iff (cs : List Char) :
    cs.head?.any Decimal.isDigit ↔ ∃ c rest, cs = c :: rest ∧ Decimal.isDigit c := by
  cases cs with
  | nil => simp
  | cons c rest => simp

theorem Numeral.looksNumeric_iff (cs : List Char) :
    Numeral.looksNumeric cs ↔ StartsLikeNumber cs := by
  constructor
  · intro h
    unfold Numeral.looksNumeric Numeral.splitSign at h
    split at h <;> obtain ⟨c, rest, rfl, hc⟩ := (head?_any_isDigit_iff _).mp h
    · exact ⟨['-'], c, rest, rfl, .inr (.inr rfl), hc⟩
    · exact ⟨['+'], c, rest, rfl, .inr (.inl rfl), hc⟩
    · exact ⟨[], c, rest, rfl, .inl rfl, hc⟩
  · rintro ⟨sign, c, rest, rfl, rfl | rfl | rfl, hc⟩
    · simp [Numeral.looksNumeric, Numeral.splitSign_of_isDigit hc, hc]
    · simp [Numeral.looksNumeric, Numeral.splitSign, hc]
    · simp [Numeral.looksNumeric, Numeral.splitSign, hc]

theorem isIdentifier_iff (cs : List Char) : isIdentifier cs ↔ IsName cs := by
  cases cs with
  | nil => simp [isIdentifier, IsName]
  | cons c cs => simp [isIdentifier, IsName, isWordChar, or_assoc]

theorem unquote?_eq_some_iff {q : Char} {cs body : List Char} :
    unquote? q cs = some body ↔ cs = q :: (body ++ [q]) := by
  constructor
  · intro h
    cases cs with
    | nil => simp [unquote?] at h
    | cons c cs =>
      simp only [unquote?, Option.ite_none_right_eq_some, Option.some.injEq] at h
      obtain ⟨⟨rfl, hlast⟩, rfl⟩ := h
      rw [List.dropLast_append_getLast? _ hlast]
  · rintro rfl
    exact unquote?_quoted q body

/-- The text between two quotes of either kind. -/
theorem unquote?_either_eq_some_iff {cs body : List Char} :
    (unquote? '"' cs).or (unquote? '\'' cs) = some body ↔
      ∃ q, (q = '"' ∨ q = '\'') ∧ cs = q :: (body ++ [q]) := by
  rw [Option.or_eq_some_iff]
  constructor
  · rintro (h | ⟨-, h⟩)
    · exact ⟨'"', .inl rfl, unquote?_eq_some_iff.mp h⟩
    · exact ⟨'\'', .inr rfl, unquote?_eq_some_iff.mp h⟩
  · rintro ⟨q, rfl | rfl, rfl⟩
    · exact .inl (unquote?_quoted _ body)
    · exact .inr ⟨unquote?_eq_none_of_ne (by decide) _, unquote?_quoted _ body⟩

/-! ## The rules exclude each other -/

theorem Kind.SpelledBy.looksNumeric_eq_false {kind : Kind} {lexeme : String}
    (h : kind.SpelledBy lexeme) : Numeral.looksNumeric lexeme.toList = false := by
  cases h with
  | separator s => cases s <;> decide
  | operator o => cases o <;> decide
  | @keyword k => cases k <;> decide
  | empty => decide

theorem classify_startsLikeNumber {lexeme : String} (h : StartsLikeNumber lexeme.toList)
    (pos : Position) :
    classify lexeme pos =
      (Numeral.parse? lexeme.toList).elim (.error (.malformedLiteral pos lexeme))
        fun literal => .ok ⟨lexeme, pos, .literal literal⟩ := by
  have hlooks := (Numeral.looksNumeric_iff _).mpr h
  have hv : Kind.ofVocabulary? lexeme = none := by
    rw [Kind.ofVocabulary?_eq_none_iff]
    intro kind hk
    simp [hk.looksNumeric_eq_false] at hlooks
  have hq : (unquote? '"' lexeme.toList).or (unquote? '\'' lexeme.toList) = none := by
    rw [Option.eq_none_iff_forall_ne_some]
    intro body hbody
    obtain ⟨q, rfl | rfl, heq⟩ := unquote?_either_eq_some_iff.mp hbody
    · simp [heq, Numeral.looksNumeric, Numeral.splitSign, Decimal.isDigit] at hlooks
    · simp [heq, Numeral.looksNumeric, Numeral.splitSign, Decimal.isDigit] at hlooks
  exact classify_of_looksNumeric hv hq hlooks pos

theorem ofVocabulary?_eq_none_of_forall {lexeme : String}
    (hs : ∀ s : Separator, lexeme ≠ s.spelling) (ho : ∀ o : Operator, lexeme ≠ o.spelling)
    (hk : ∀ k : Keyword, lexeme ≠ k.spelling) : Kind.ofVocabulary? lexeme = none := by
  rw [Kind.ofVocabulary?_eq_none_iff]
  intro kind hkind
  cases hkind with
  | separator s => exact hs s rfl
  | operator o => exact ho o rfl
  | @keyword k => exact hk k rfl
  | empty => exact hk .empty rfl

theorem IsName.ne_separator {lexeme : String} (h : IsName lexeme.toList) (s : Separator) :
    lexeme ≠ s.spelling := by
  rintro rfl
  rw [← isIdentifier_iff] at h
  revert h
  cases s <;> decide

/-! ## One verdict for each text -/

theorem Classified.sound {lexeme : String} {v : Verdict} (h : Classified lexeme v)
    (pos : Position) : classify lexeme pos = v.answer lexeme pos := by
  cases h with
  | separator s => exact classify_of_spelledBy (.separator s) pos
  | operator o => exact classify_of_spelledBy (.operator o) pos
  | keyword his hempty => exact classify_of_spelledBy (.keyword his hempty) pos
  | empty => exact classify_of_spelledBy .empty pos
  | string hq body => exact classify_quoted ((Piece.isQuote_iff _).mpr hq) body pos
  | number hn hp =>
    rw [classify_startsLikeNumber hn, hp]
    rfl
  | malformedLiteral hn hp =>
    rw [classify_startsLikeNumber hn, hp]
    rfl
  | identifier hname ho hk =>
    have hv := ofVocabulary?_eq_none_of_forall hname.ne_separator ho hk
    have hid := (isIdentifier_iff _).mpr hname
    rcases classify_identifier hid with ⟨kind, hkind⟩ | ⟨-, hclass⟩
    · rw [String.ofList_toList] at hkind
      exact absurd hkind (Kind.ofVocabulary?_eq_none_iff.mp hv kind)
    · rw [String.ofList_toList] at hclass
      exact hclass pos
  | malformedIdentifier hs ho hk hq hn hname =>
    have hunquote : (unquote? '"' lexeme.toList).or (unquote? '\'' lexeme.toList) = none := by
      rw [Option.eq_none_iff_forall_ne_some]
      intro body hbody
      obtain ⟨q, hquote, heq⟩ := unquote?_either_eq_some_iff.mp hbody
      exact hq q body hquote (by rw [← heq, String.ofList_toList])
    rw [← Numeral.looksNumeric_iff, Bool.not_eq_true] at hn
    rw [← isIdentifier_iff] at hname
    rw [classify_of_name (ofVocabulary?_eq_none_of_forall hs ho hk) hunquote hn, if_neg hname]
    rfl

theorem Kind.SpelledBy.classified {kind : Kind} {lexeme : String} (h : kind.SpelledBy lexeme) :
    Classified lexeme (.token kind) := by
  cases h with
  | separator s => exact .separator s
  | operator o => exact .operator o
  | keyword his hempty => exact .keyword his hempty
  | empty => exact .empty

theorem exists_classified (lexeme : String) : ∃ v, Classified lexeme v := by
  cases hv : Kind.ofVocabulary? lexeme with
  | some kind => exact ⟨_, (Kind.spelledBy_of_ofVocabulary? hv).classified⟩
  | none =>
    by_cases hq : ∃ q body, (q = '"' ∨ q = '\'') ∧ lexeme = String.ofList (q :: (body ++ [q]))
    · obtain ⟨q, body, hquote, rfl⟩ := hq
      exact ⟨_, .string hquote body⟩
    by_cases hn : StartsLikeNumber lexeme.toList
    · cases hp : Numeral.parse? lexeme.toList with
      | some literal => exact ⟨_, .number hn hp⟩
      | none => exact ⟨_, .malformedLiteral hn hp⟩
    by_cases hname : IsName lexeme.toList
    · exact ⟨_, .identifier hname (Operator.ne_spelling hv) (Keyword.ne_spelling hv)⟩
    refine ⟨_, .malformedIdentifier ?_ (Operator.ne_spelling hv) (Keyword.ne_spelling hv) ?_ hn
      hname⟩
    · rintro s rfl
      exact Kind.ofVocabulary?_eq_none_iff.mp hv _ (.separator s)
    · intro q body hquote heq
      exact hq ⟨q, body, hquote, heq⟩

theorem Verdict.answer_injective {lexeme : String} {pos : Position} {v w : Verdict}
    (h : v.answer lexeme pos = w.answer lexeme pos) : v = w := by
  cases v <;> cases w <;> simp_all [Verdict.answer]

/-- Every text has exactly one verdict, and `classify` answers with it, with the text and the
position as they are given; the tables never fail to convert what they list. -/
theorem classify_verdict (lexeme : String) (pos : Position) :
    ∃ v, classify lexeme pos = v.answer lexeme pos ∧ (∀ w, Classified lexeme w ↔ w = v) ∧
      ∀ pos' text, classify lexeme pos ≠ .error (.unknownSeparator pos' text) ∧
        classify lexeme pos ≠ .error (.unknownOperator pos' text) ∧
        classify lexeme pos ≠ .error (.unknownKeyword pos' text) := by
  obtain ⟨v, hv⟩ := exists_classified lexeme
  have hanswer := hv.sound pos
  refine ⟨v, hanswer, fun w => ⟨fun hw => ?_, fun h => h ▸ hv⟩, fun pos' text => ?_⟩
  · exact Verdict.answer_injective ((hw.sound pos).symm.trans hanswer)
  · rw [hanswer]
    cases v <;> simp [Verdict.answer]

end ProjectD
