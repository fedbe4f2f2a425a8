import Mathlib.Data.Rat.Defs
import ProjectD.Proofs.Digits
import ProjectD.Proofs.Verdicts

/-! # Numerals: their grammar and their values

A numeral has one of two shapes. An `IntegerText` is a sign or none and then digits; a `DecimalText`
has a period and more digits after them. What they write is given by the places of the digits
(`Decimal.placeValue`), with no bound on their number. `Numeral.parse?` accepts nothing else
(`Numeral.parse?_cases`), and of the first shape only what fits 64 bits.
-/

set_option autoImplicit false

namespace ProjectD

/-- What may stand before the first digit. -/
inductive Sign where
  | absent
  | plus
  | minus
deriving DecidableEq, Repr

namespace Sign

def text : Sign → List Char
  | absent => []
  | plus => ['+']
  | minus => ['-']

def isNegative : Sign → Bool
  | minus => true
  | _ => false

end Sign

/-- One or more ASCII digits. -/
def IsDigitRun (ds : List Char) : Prop :=
  ds ≠ [] ∧ ∀ c ∈ ds, '0' ≤ c ∧ c ≤ '9'

/-- Each digit times the power of ten of its place. -/
def Decimal.placeValue : List Char → Nat
  | [] => 0
  | c :: cs => digitValue c * 10 ^ cs.length + placeValue cs

/-- A text of the shape `sign? digit+`. -/
structure IntegerText where
  sign : Sign
  digits : List Char
  isDigitRun : IsDigitRun digits

/-- A text of the shape `sign? digit+ . digit+`. -/
structure DecimalText where
  sign : Sign
  whole : List Char
  fraction : List Char
  isDigitRun_whole : IsDigitRun whole
  isDigitRun_fraction : IsDigitRun fraction

namespace IntegerText

def text (t : IntegerText) : List Char :=
  t.sign.text ++ t.digits

def value (t : IntegerText) : ℤ :=
  if t.sign.isNegative then -(Decimal.placeValue t.digits : ℤ) else Decimal.placeValue t.digits

end IntegerText

namespace DecimalText

def text (t : DecimalText) : List Char :=
  t.sign.text ++ (t.whole ++ '.' :: t.fraction)

/-- The exact value without the sign. -/
def magnitude (t : DecimalText) : ℚ :=
  Decimal.placeValue t.whole + Decimal.placeValue t.fraction / 10 ^ t.fraction.length

def value (t : DecimalText) : ℚ :=
  if t.sign.isNegative then -t.magnitude else t.magnitude

/-- The number that the text is read as. -/
def rounded (t : DecimalText) : Binary64 :=
  .ofRatio t.sign.isNegative (Decimal.value (t.whole ++ t.fraction))
    (Nat.pow 10 t.fraction.length)

end DecimalText

/-! ## Digits and signs -/

theorem isDigitRun_iff {ds : List Char} : IsDigitRun ds ↔ Decimal.isDigits ds := by
  simp [IsDigitRun, Decimal.isDigits, Decimal.isDigit]

theorem IsDigitRun.exists_cons {ds : List Char} (h : IsDigitRun ds) :
    ∃ c cs, ds = c :: cs ∧ ∀ a ∈ c :: cs, Decimal.isDigit a :=
  Piece.exists_cons_of_isDigits (isDigitRun_iff.mp h)

theorem IsDigitRun.period_not_mem {ds : List Char} (h : IsDigitRun ds) : '.' ∉ ds := fun hmem =>
  absurd (h.2 '.' hmem).1 (by decide)

theorem Decimal.placeValue_eq (cs : List Char) : placeValue cs = value cs := by
  induction cs with
  | nil => rfl
  | cons c cs ih =>
    have hfirst : value [c] = digitValue c := by
      rw [value, List.foldl_cons, List.foldl_nil, Nat.mul_zero, Nat.zero_add]
    rw [placeValue, ih, ← List.singleton_append, value_append, hfirst, Nat.mul_comm]

theorem Sign.period_not_mem (sign : Sign) : '.' ∉ sign.text := by
  cases sign <;> decide

namespace Numeral

theorem splitSign_text (sign : Sign) {ds : List Char} (h : IsDigitRun ds) (rest : List Char) :
    splitSign (sign.text ++ (ds ++ rest)) = (sign.isNegative, ds ++ rest) := by
  obtain ⟨c, cs, rfl, hall⟩ := h.exists_cons
  cases sign with
  | absent => exact splitSign_of_isDigit (hall c (List.mem_cons_self ..)) (cs ++ rest)
  | plus => rfl
  | minus => rfl

theorem exists_sign (cs : List Char) : ∃ sign : Sign, cs = sign.text ++ (splitSign cs).2 := by
  unfold splitSign
  split
  · exact ⟨.minus, rfl⟩
  · exact ⟨.plus, rfl⟩
  · exact ⟨.absent, rfl⟩

theorem startsLikeNumber_text (sign : Sign) {ds : List Char} (h : IsDigitRun ds)
    (rest : List Char) : StartsLikeNumber (sign.text ++ (ds ++ rest)) := by
  obtain ⟨c, cs, rfl, hall⟩ := h.exists_cons
  refine ⟨sign.text, c, cs ++ rest, rfl, ?_, hall c (List.mem_cons_self ..)⟩
  cases sign <;> simp [Sign.text]

/-! ## The two shapes -/

theorem parse?_integerText (t : IntegerText) :
    parse? t.text =
      if leastInteger ≤ t.value ∧ t.value ≤ greatestInteger then some (.integer t.value)
      else none := by
  have hsign := splitSign_text t.sign t.isDigitRun []
  rw [List.append_nil] at hsign
  rw [IntegerText.text, parse?_of_isDigits hsign (isDigitRun_iff.mp t.isDigitRun)]
  simp only [integer?, IntegerText.value, Decimal.placeValue_eq]

theorem parse?_decimalText (t : DecimalText) : parse? t.text = some (.real t.rounded) := by
  have hsign := splitSign_text t.sign t.isDigitRun_whole ('.' :: t.fraction)
  rw [DecimalText.text, parse?_of_period hsign (isDigitRun_iff.mp t.isDigitRun_whole),
    if_pos (isDigitRun_iff.mp t.isDigitRun_fraction)]
  rfl

/-- What has neither shape is no numeral. -/
theorem parse?_cases (cs : List Char) :
    (∃ t : IntegerText, t.text = cs) ∨ (∃ t : DecimalText, t.text = cs) ∨ parse? cs = none := by
  obtain ⟨sign, hcs⟩ := exists_sign cs
  generalize hbody : (splitSign cs).2 = body at hcs
  by_cases hd : Decimal.isDigits body
  · exact .inl ⟨⟨sign, body, isDigitRun_iff.mpr hd⟩, hcs.symm⟩
  by_cases hr : Decimal.isDigits (body.takeWhile (· ≠ '.')) ∧
      Decimal.isDigits ((body.dropWhile (· ≠ '.')).drop 1)
  · right
    left
    refine ⟨⟨sign, _, _, isDigitRun_iff.mpr hr.1, isDigitRun_iff.mpr hr.2⟩, ?_⟩
    have hsplit := List.takeWhile_append_dropWhile (p := (· ≠ '.')) (l := body)
    -- The fraction is not empty, so the search for the period has found one.
    rcases dropWhile_ne_cases '.' body with hnil | hcons
    · rw [hnil] at hr
      cases hr.2
    · obtain ⟨rest, hrest⟩ := List.head?_eq_some_iff.mp hcons
      rw [hrest] at hsplit
      simp only [DecimalText.text, hrest, List.drop_one, List.tail_cons, hsplit, hcs]
  · right
    right
    simp only [parse?, hbody, hd, hr, if_false, Bool.false_eq_true]

theorem count_period_text (t : DecimalText) : t.text.count '.' = 1 := by
  simp [DecimalText.text, List.count_append,
    List.count_eq_zero.mpr t.sign.period_not_mem,
    List.count_eq_zero.mpr t.isDigitRun_whole.period_not_mem,
    List.count_eq_zero.mpr t.isDigitRun_fraction.period_not_mem]

theorem parse?_eq_integer_iff {cs : List Char} {n : ℤ} :
    parse? cs = some (.integer n) ↔
      (∃ t : IntegerText, t.text = cs ∧ t.value = n) ∧ leastInteger ≤ n ∧ n ≤ greatestInteger := by
  constructor
  · intro h
    rcases parse?_cases cs with ⟨t, rfl⟩ | ⟨t, rfl⟩ | hnone
    · rw [parse?_integerText, Option.ite_none_right_eq_some] at h
      obtain ⟨hfits, hvalue⟩ := h
      obtain rfl : t.value = n := by simpa using hvalue
      exact ⟨⟨t, rfl, rfl⟩, hfits⟩
    · simp [parse?_decimalText] at h
    · simp [hnone] at h
  · rintro ⟨⟨t, rfl, rfl⟩, hfits⟩
    rw [parse?_integerText, if_pos hfits]

/-- A text is read as an integer exactly when it is digits after at most one sign and what they
write fits 64 bits, and as a real number exactly when it has one period with digits on both sides.
All other texts are refused, and nothing is accepted that does not start like a number. -/
theorem parse?_grammar (cs : List Char) :
    (∀ n : ℤ, parse? cs = some (.integer n) ↔
      (∃ t : IntegerText, t.text = cs ∧ t.value = n) ∧ -2 ^ 63 ≤ n ∧ n ≤ 2 ^ 63 - 1) ∧
    ((∃ x, parse? cs = some (.real x)) ↔ (∃ t : DecimalText, t.text = cs) ∧ cs.count '.' = 1) ∧
    ((∀ t : IntegerText, t.text ≠ cs) → (∀ t : DecimalText, t.text ≠ cs) → parse? cs = none) ∧
    (∀ t : IntegerText, t.text = cs → ¬ (-2 ^ 63 ≤ t.value ∧ t.value ≤ 2 ^ 63 - 1) →
      parse? cs = none) ∧
    ∀ literal, parse? cs = some literal → looksNumeric cs := by
  have hleast : leastInteger = -2 ^ 63 := rfl
  have hgreatest : greatestInteger = 2 ^ 63 - 1 := rfl
  refine ⟨fun n => ?_, ⟨?_, ?_⟩, fun hi hd => ?_, fun t ht hfits => ?_, fun literal h => ?_⟩
  · rw [parse?_eq_integer_iff, hleast, hgreatest]
  · rintro ⟨x, h⟩
    rcases parse?_cases cs with ⟨t, rfl⟩ | ⟨t, rfl⟩ | hnone
    · simp [parse?_integerText] at h
    · exact ⟨⟨t, rfl⟩, count_period_text t⟩
    · simp [hnone] at h
  · rintro ⟨⟨t, rfl⟩, -⟩
    exact ⟨t.rounded, parse?_decimalText t⟩
  · rcases parse?_cases cs with ⟨t, ht⟩ | ⟨t, ht⟩ | hnone
    · exact absurd ht (hi t)
    · exact absurd ht (hd t)
    · exact hnone
  · rw [← ht, parse?_integerText, hleast, hgreatest, if_neg hfits]
  · rw [looksNumeric_iff]
    rcases parse?_cases cs with ⟨t, rfl⟩ | ⟨t, rfl⟩ | hnone
    · have hstarts := startsLikeNumber_text t.sign t.isDigitRun []
      rwa [List.append_nil] at hstarts
    · exact startsLikeNumber_text t.sign t.isDigitRun_whole ('.' :: t.fraction)
    · simp [hnone] at h

end Numeral

end ProjectD
