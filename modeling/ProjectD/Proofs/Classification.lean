import ProjectD.Token.Classify

/-! # Classification

The two tables of each family agree: a text belongs to the family exactly when the other table finds
a member for it, and that member is spelled so. Hence the vocabulary is settled by one look-up
(`Kind.ofVocabulary?`), and what is not found there by the shape of the text. In either case the
position is only carried into the token or the error.
-/

set_option autoImplicit false

namespace ProjectD

/-! ## The tables -/

theorem Separator.ofSpelling?_eq_some_iff {lexeme : String} {s : Separator} :
    Separator.ofSpelling? lexeme = some s ↔ s.spelling = lexeme := by
  constructor
  · intro h
    unfold Separator.ofSpelling? at h
    split at h <;> cases h <;> rfl
  · rintro rfl
    cases s <;> rfl

theorem Operator.ofSpelling?_eq_some_iff {lexeme : String} {o : Operator} :
    Operator.ofSpelling? lexeme = some o ↔ o.spelling = lexeme := by
  constructor
  · intro h
    unfold Operator.ofSpelling? at h
    split at h <;> cases h <;> rfl
  · rintro rfl
    cases o <;> rfl

theorem Keyword.ofSpelling?_eq_some_iff {lexeme : String} {k : Keyword} :
    Keyword.ofSpelling? lexeme = some k ↔ k.spelling = lexeme := by
  constructor
  · intro h
    unfold Keyword.ofSpelling? at h
    split at h <;> cases h <;> rfl
  · rintro rfl
    cases k <;> rfl

/-- A look-up that finds exactly what is spelled so tells whether a text is spelled at all. -/
theorem any_spelling_eq_isSome {α : Type} {all : List α} {spelling : α → String}
    {found? : Option α} {lexeme : String} (hall : ∀ x, x ∈ all)
    (hfound : ∀ x, found? = some x ↔ spelling x = lexeme) :
    all.any (fun x => decide (spelling x = lexeme)) = found?.isSome := by
  rw [Bool.eq_iff_iff, List.any_eq_true, Option.isSome_iff_exists]
  constructor
  · rintro ⟨x, -, hx⟩
    exact ⟨x, (hfound x).mpr (of_decide_eq_true hx)⟩
  · rintro ⟨x, hx⟩
    exact ⟨x, hall x, decide_eq_true ((hfound x).mp hx)⟩

theorem Separator.isMember_eq (lexeme : String) :
    Separator.isMember lexeme = (Separator.ofSpelling? lexeme).isSome :=
  any_spelling_eq_isSome (fun s => by cases s <;> decide) fun _ => Separator.ofSpelling?_eq_some_iff

theorem Operator.isMember_eq (lexeme : String) :
    Operator.isMember lexeme = (Operator.ofSpelling? lexeme).isSome :=
  any_spelling_eq_isSome (fun o => by cases o <;> decide) fun _ => Operator.ofSpelling?_eq_some_iff

theorem Keyword.isMember_eq (lexeme : String) :
    Keyword.isMember lexeme = (Keyword.ofSpelling? lexeme).isSome :=
  any_spelling_eq_isSome (fun k => by cases k <;> decide) fun _ => Keyword.ofSpelling?_eq_some_iff

/-! ## One look-up for the whole vocabulary -/

/-- The kind of a text of the fixed vocabulary. Separators come before operators and operators
before keywords; the word of the empty value is a literal. -/
def Kind.ofVocabulary? (lexeme : String) : Option Kind :=
  match Separator.ofSpelling? lexeme with
  | some s => some (.separator s)
  | none =>
    match Operator.ofSpelling? lexeme with
    | some o => some (.operator o)
    | none =>
      match Keyword.ofSpelling? lexeme with
      | some .empty => some (.literal .empty)
      | some k => some (.keyword k)
      | none => none

theorem Kind.read_of_ofVocabulary? {lexeme : String} {kind : Kind}
    (h : Kind.ofVocabulary? lexeme = some kind) (pos : Position) :
    Kind.read lexeme pos = .ok kind := by
  unfold Kind.ofVocabulary? at h
  simp only [Kind.read, Separator.isMember_eq, Operator.isMember_eq, Keyword.isMember_eq]
  cases hs : Separator.ofSpelling? lexeme with
  | some s =>
    obtain rfl : Kind.separator s = kind := by simpa [hs] using h
    simp [Separator.read, hs, Except.map]
  | none =>
    cases ho : Operator.ofSpelling? lexeme with
    | some o =>
      obtain rfl : Kind.operator o = kind := by simpa [hs, ho] using h
      simp [Operator.read, ho, Except.map]
    | none =>
      cases hk : Keyword.ofSpelling? lexeme with
      | none => simp [hs, ho, hk] at h
      | some k =>
        obtain rfl : k.spelling = lexeme := Keyword.ofSpelling?_eq_some_iff.mp hk
        by_cases hempty : k = .empty
        · subst hempty
          obtain rfl : Kind.literal .empty = kind := by simpa [hs, ho, hk] using h
          rfl
        · have hword : k.spelling ≠ Literal.emptySpelling := by
            intro heq
            rw [heq] at hk
            exact hempty (Option.some.inj hk).symm
          obtain rfl : Kind.keyword k = kind := by simpa [hs, ho, hk] using h
          simp [Keyword.read, hk, hword, Except.map]

theorem Kind.read_eq_ofShape {lexeme : String} (h : Kind.ofVocabulary? lexeme = none)
    (pos : Position) : Kind.read lexeme pos = Kind.ofShape lexeme pos := by
  unfold Kind.ofVocabulary? at h
  simp only [Kind.read, Separator.isMember_eq, Operator.isMember_eq, Keyword.isMember_eq]
  cases hs : Separator.ofSpelling? lexeme with
  | some s => simp [hs] at h
  | none =>
    cases ho : Operator.ofSpelling? lexeme with
    | some o => simp [hs, ho] at h
    | none =>
      cases hk : Keyword.ofSpelling? lexeme with
      | some k => cases k <;> simp [hs, ho, hk] at h
      | none => simp

theorem ne_emptySpelling {lexeme : String} (h : Kind.ofVocabulary? lexeme = none) :
    lexeme ≠ Literal.emptySpelling := by
  rintro rfl
  exact absurd h (by decide)

/-! ## The stages of classification -/

theorem classify_of_ofVocabulary? {lexeme : String} {kind : Kind}
    (h : Kind.ofVocabulary? lexeme = some kind) (pos : Position) :
    classify lexeme pos = .ok ⟨lexeme, pos, kind⟩ := by
  rw [classify, Kind.read_of_ofVocabulary? h]
  rfl

theorem classify_of_unquote {lexeme : String} {content : List Char}
    (hv : Kind.ofVocabulary? lexeme = none)
    (hq : (unquote? '"' lexeme.toList).or (unquote? '\'' lexeme.toList) = some content)
    (pos : Position) :
    classify lexeme pos = .ok ⟨lexeme, pos, .literal (.string (String.ofList content))⟩ := by
  rw [classify, Kind.read_eq_ofShape hv]
  simp only [Kind.ofShape, Literal.read?, ne_emptySpelling hv, if_false, hq, Except.map]

theorem classify_of_looksNumeric {lexeme : String} (hv : Kind.ofVocabulary? lexeme = none)
    (hq : (unquote? '"' lexeme.toList).or (unquote? '\'' lexeme.toList) = none)
    (hn : Numeral.looksNumeric lexeme.toList) (pos : Position) :
    classify lexeme pos =
      (Numeral.parse? lexeme.toList).elim (.error (.malformedLiteral pos lexeme))
        fun literal => .ok ⟨lexeme, pos, .literal literal⟩ := by
  rw [classify, Kind.read_eq_ofShape hv]
  simp only [Kind.ofShape, Literal.read?, ne_emptySpelling hv, if_false, hq, hn, if_true]
  cases Numeral.parse? lexeme.toList <;> rfl

theorem classify_of_name {lexeme : String} (hv : Kind.ofVocabulary? lexeme = none)
    (hq : (unquote? '"' lexeme.toList).or (unquote? '\'' lexeme.toList) = none)
    (hn : Numeral.looksNumeric lexeme.toList = false) (pos : Position) :
    classify lexeme pos =
      if isIdentifier lexeme.toList then .ok ⟨lexeme, pos, .identifier lexeme⟩
      else .error (.malformedIdentifier pos lexeme) := by
  rw [classify, Kind.read_eq_ofShape hv]
  simp only [Kind.ofShape, Literal.read?, ne_emptySpelling hv, if_false, hq, hn,
    Bool.false_eq_true]
  cases isIdentifier lexeme.toList <;> rfl

/-- A lexeme is a token of one kind wherever it stands, a malformed literal wherever it stands, or a
malformed identifier wherever it stands. -/
theorem classify_cases (lexeme : String) :
    (∃ kind, ∀ pos, classify lexeme pos = .ok ⟨lexeme, pos, kind⟩) ∨
      (∀ pos, classify lexeme pos = .error (.malformedLiteral pos lexeme)) ∨
      ∀ pos, classify lexeme pos = .error (.malformedIdentifier pos lexeme) := by
  cases hv : Kind.ofVocabulary? lexeme with
  | some kind => exact .inl ⟨kind, classify_of_ofVocabulary? hv⟩
  | none =>
    cases hq : (unquote? '"' lexeme.toList).or (unquote? '\'' lexeme.toList) with
    | some content => exact .inl ⟨_, classify_of_unquote hv hq⟩
    | none =>
      cases hn : Numeral.looksNumeric lexeme.toList with
      | true =>
        have hclass := classify_of_looksNumeric hv hq hn
        cases hp : Numeral.parse? lexeme.toList with
        | some literal =>
          simp only [hp, Option.elim_some] at hclass
          exact .inl ⟨_, hclass⟩
        | none =>
          simp only [hp, Option.elim_none] at hclass
          exact .inr (.inl hclass)
      | false =>
        have hclass := classify_of_name hv hq hn
        cases hi : isIdentifier lexeme.toList with
        | true =>
          simp only [hi, if_true] at hclass
          exact .inl ⟨_, hclass⟩
        | false =>
          simp only [hi, Bool.false_eq_true, if_false] at hclass
          exact .inr (.inr hclass)

theorem classify_ok {lexeme : String} {pos : Position} {token : Token}
    (h : classify lexeme pos = .ok token) : token.lexeme = lexeme ∧ token.position = pos := by
  obtain ⟨kind, hk⟩ | hk | hk := classify_cases lexeme
  · rw [hk] at h
    obtain rfl := Except.ok.inj h
    exact ⟨rfl, rfl⟩
  · simp [hk] at h
  · simp [hk] at h

theorem classify_elsewhere {lexeme : String} {pos : Position} {token : Token}
    (h : classify lexeme pos = .ok token) (pos' : Position) :
    classify lexeme pos' = .ok ⟨lexeme, pos', token.kind⟩ := by
  obtain ⟨kind, hk⟩ | hk | hk := classify_cases lexeme
  · rw [hk] at h
    obtain rfl := Except.ok.inj h
    exact hk pos'
  · simp [hk] at h
  · simp [hk] at h

theorem classify_error {lexeme : String} {pos : Position} {e : LexError}
    (h : classify lexeme pos = .error e) :
    e = .malformedLiteral pos lexeme ∨ e = .malformedIdentifier pos lexeme := by
  obtain ⟨kind, hk⟩ | hk | hk := classify_cases lexeme
  · simp [hk] at h
  · rw [hk] at h
    exact .inl (Except.error.inj h).symm
  · rw [hk] at h
    exact .inr (Except.error.inj h).symm

end ProjectD
