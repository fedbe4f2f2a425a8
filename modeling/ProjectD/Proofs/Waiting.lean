import ProjectD.Proofs.Shapes

/-! # What may wait in the buffer

A lexeme that may still grow waits in the buffer of the scanner. `Waiting mode buffer rest` says,
mode by mode, which texts may wait there before the unread text `rest`. A character of the same mode
keeps that true (`Waiting.push`), and what the unread text does not continue is a whole lexeme
(`Waiting.lexemeAt`).
-/

set_option autoImplicit false

namespace ProjectD

open Piece

/-- What may wait in the buffer, mode by mode. `rest` is the unread text. -/
inductive Waiting : Mode → List Char → List Char → Prop where
  | empty {rest : List Char} : Waiting .empty [] rest
  | blank {rest : List Char} : Waiting .separator [] rest
  | punctuation {c : Char} {rest : List Char} (h : isPunctuation c)
    (hr : c = '.' → rest.head? ≠ some '.') : Waiting .separator [c] rest
  | word {x rest : List Char} (hne : x ≠ []) (hx : ∀ c ∈ x, isWordChar c) : Waiting .word x rest
  /-- A number after its period: the digit that the period was taken for has come or comes next. -/
  | number {whole fraction rest : List Char} (hw : Decimal.isDigits whole)
    (hf : ∀ c ∈ fraction, isWordChar c) (hd : (fraction ++ rest).head?.any Decimal.isDigit) :
    Waiting .word (whole ++ '.' :: fraction) rest
  | operator {x rest : List Char} (hne : x ≠ []) (hx : x <+: operatorRun (x ++ rest)) :
    Waiting .operator x rest

/-! ## Growing and ending -/

theorem operatorRun_push {x cs : List Char} {c : Char} (hx : x <+: operatorRun (x ++ c :: cs))
    (hc : isOperatorChar c) (ho : opensComment (c :: cs) = false) :
    x ++ [c] <+: operatorRun (x ++ c :: cs) := by
  induction x with
  | nil => simp [operatorRun, hc, ho]
  | cons d x ih =>
    simp only [List.cons_append] at hx ⊢
    rw [operatorRun] at hx ⊢
    split at hx
    · next hd =>
      rw [if_pos hd]
      exact (List.prefix_cons_inj d).mpr (ih ((List.prefix_cons_inj d).mp hx))
    · simp at hx

theorem operatorRun_stop {x rest : List Char} (hx : x <+: operatorRun (x ++ rest))
    (hr : rest.head?.any isOperatorChar = false ∨ opensComment rest) :
    operatorRun (x ++ rest) = x := by
  induction x with
  | nil =>
    cases rest with
    | nil => rfl
    | cons c cs =>
      rw [List.nil_append, operatorRun]
      rcases hr with hr | hr
      · have hc : isOperatorChar c = false := by simpa using hr
        simp [hc]
      · simp [hr]
  | cons d x ih =>
    rw [List.cons_append, operatorRun] at hx ⊢
    split at hx
    · next hd => rw [if_pos hd, ih ((List.prefix_cons_inj d).mp hx)]
    · simp at hx

/-- A waiting text that the unread text does not continue is a whole lexeme. -/
theorem Waiting.lexemeAt {mode : Mode} {x rest : List Char} (h : Waiting mode x rest)
    (hword : mode = .word → rest.head?.any isWordChar = false ∧
      (Decimal.isDigits x → opensFraction rest = false))
    (hop : mode = .operator → rest.head?.any isOperatorChar = false ∨ opensComment rest) :
    x = [] ∨ LexemeAt x rest := by
  cases h with
  | empty => exact .inl rfl
  | blank => exact .inl rfl
  | @punctuation c _ h hr =>
    by_cases hc : c = '.'
    · subst hc
      exact .inr (.period (hr rfl))
    · have hm : isMark c := by
        simp only [isPunctuation, Bool.or_eq_true, decide_eq_true_eq] at h
        obtain ((rfl | rfl) | rfl) | rfl := h
        · rfl
        · rfl
        · exact absurd rfl hc
        · rfl
      exact .inr (.mark hm)
  | word hne hx => exact .inr (.word hne hx (hword rfl).1 (hword rfl).2)
  | @number whole fraction _ hw hf hd =>
    have hr := (hword rfl).1
    refine .inr (.number hw ?_ hf hr)
    cases fraction with
    | cons d ds => exact hd
    | nil =>
      cases rest with
      | nil => simp at hd
      | cons c cs =>
        have hc : isWordChar c := isWordChar_of_isDigit (by simpa using hd)
        simp [hc] at hr
  | operator hne hx => exact .inr (.operator hne (operatorRun_stop hx (hop rfl)))

theorem Mode.ofChar?_eq_some {c : Char} {mode : Mode} (h : Mode.ofChar? c = some mode) :
    (mode = .word ∧ isWordChar c) ∨ (mode = .separator ∧ (isPunctuation c || isSilent c)) ∨
      (mode = .operator ∧ isOperatorChar c) := by
  unfold Mode.ofChar? at h
  split at h
  · next hc => exact .inl ⟨(Option.some.inj h).symm, hc⟩
  · split at h
    · next hc => exact .inr (.inl ⟨(Option.some.inj h).symm, hc⟩)
    · split at h
      · next hc => exact .inr (.inr ⟨(Option.some.inj h).symm, hc⟩)
      · simp at h

/-- A character of the waiting mode joins the waiting text. -/
theorem Waiting.push {mode : Mode} {x cs : List Char} {c : Char} (h : Waiting mode x (c :: cs))
    (hc : Mode.ofChar? c = some mode) (hm : mode ≠ .separator)
    (ho : opensComment (c :: cs) = false) : Waiting mode (x ++ [c]) cs := by
  have hcases := Mode.ofChar?_eq_some hc
  cases h with
  | empty => simp at hcases
  | blank => exact absurd rfl hm
  | punctuation => exact absurd rfl hm
  | word _ hx =>
    have hcw : ∀ a ∈ [c], isWordChar a := by simpa using hcases
    exact .word (by simp) (List.forall_mem_append.mpr ⟨hx, hcw⟩)
  | @number whole fraction _ hw hf hd =>
    have hcw : ∀ a ∈ [c], isWordChar a := by simpa using hcases
    rw [List.append_assoc, List.cons_append]
    exact .number hw (List.forall_mem_append.mpr ⟨hf, hcw⟩) (by simpa using hd)
  | operator _ hx =>
    refine .operator (by simp) ?_
    rw [List.append_assoc]
    exact operatorRun_push hx (by simpa using hcases) ho

/-! ## Characters by mode -/

theorem ofChar?_of_isOperatorChar {c : Char} (h : isOperatorChar c) :
    Mode.ofChar? c = some .operator := by
  simp only [isOperatorChar, Bool.or_eq_true, decide_eq_true_eq] at h
  obtain ((((((rfl | rfl) | rfl) | rfl) | rfl) | rfl) | rfl) | rfl := h <;> rfl

theorem ofChar?_of_isSilent {c : Char} (h : isSilent c) : Mode.ofChar? c = some .separator := by
  simp only [isSilent, Bool.or_eq_true, decide_eq_true_eq] at h
  obtain (rfl | rfl) | rfl := h <;> rfl

theorem isStray_of_ofChar? {c : Char} (h : Mode.ofChar? c = none) (hb : isBracket c = false)
    (hq : Text.isQuote c = false) : IsStray c := by
  unfold Mode.ofChar? at h
  split at h
  · simp at h
  · next hw =>
    split at h
    · simp at h
    · next hs =>
      split at h
      · simp at h
      · next ho =>
        simp only [Bool.or_eq_true, not_or, Bool.not_eq_true, isPunctuation,
          decide_eq_false_iff_not] at hs hw ho
        obtain ⟨⟨⟨⟨h1, h2⟩, h3⟩, h4⟩, h5⟩ := hs
        refine ⟨h5, hq, ?_, h3, hw, ho⟩
        simp [isMark, hb, h1, h2, h4]

/-- The first character of a lexeme that may grow. -/
theorem waiting_first {c : Char} {cs : List Char} {mode : Mode} (h : Mode.ofChar? c = some mode)
    (hs : isSilent c = false) (ho : opensComment (c :: cs) = false)
    (hp : c = '.' → cs.head? ≠ some '.') : Waiting mode [c] cs := by
  rcases Mode.ofChar?_eq_some h with ⟨rfl, hc⟩ | ⟨rfl, hc⟩ | ⟨rfl, hc⟩
  · exact .word (by simp) (by simpa using hc)
  · rw [hs, Bool.or_false] at hc
    exact .punctuation hc hp
  · refine .operator (by simp) ?_
    exact operatorRun_push (x := []) List.nil_prefix hc ho
end ProjectD
