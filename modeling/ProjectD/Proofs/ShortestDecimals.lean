import ProjectD.Number.Shortest
import ProjectD.Proofs.Digits

/-! # The shortest decimal reads back

The decimal that a finite number is written with rounds to that number (`ofDecimal_shortest`). For
the digits found on a grid this was tested when they were chosen; where no grid has a hit, all
digits are taken, and these are exact (`ofDecimal_exactDecimal`). Moving zeros between the digits
and the exponent changes neither.
-/

set_option autoImplicit false

namespace ProjectD

/-! ## Rounding -/

theorem roundHalfEven_mul_right (quotient : Nat) {den : Nat} (hden : 0 < den) :
    roundHalfEven (quotient * den) den = quotient := by
  simp [roundHalfEven, Nat.mul_div_cancel quotient hden, hden]

theorem roundHalfEven_mul_mul {k : Nat} (hk : 0 < k) (num den : Nat) :
    roundHalfEven (k * num) (k * den) = roundHalfEven num den := by
  have htwice : 2 * (k * (num % den)) = k * (2 * (num % den)) := Nat.mul_left_comm ..
  simp only [roundHalfEven, Nat.mul_div_mul_left _ _ hk, Nat.mul_mod_mul_left, htwice,
    Nat.mul_lt_mul_left hk]

namespace Binary64

/-! ## Magnitudes -/

theorem two_pow_pos (n : Nat) : 0 < Nat.pow 2 n :=
  Nat.pow_pos Nat.two_pos

theorem unitsPerOne_pos : 0 < unitsPerOne := by
  decide +kernel

theorem magnitudeOfRatio_mul_mul {k : Nat} (hk : 0 < k) (num den : Nat) :
    magnitudeOfRatio (k * num) (k * den) = magnitudeOfRatio num den := by
  simp only [magnitudeOfRatio, Nat.mul_assoc, Nat.mul_div_mul_left _ _ hk,
    roundHalfEven_mul_mul hk]

theorem ofRatio_mul_mul {k : Nat} (hk : 0 < k) (negative : Bool) (num den : Nat) :
    ofRatio negative (k * num) (k * den) = ofRatio negative num den := by
  rw [ofRatio, ofRatio, magnitudeOfRatio_mul_mul hk]

/-- A quotient that is a whole number of units with at most fifty-three bits is not rounded. -/
theorem magnitudeOfRatio_exact {significand scale : Nat}
    (hscale : (significand * Nat.pow 2 scale).log2 - 52 = scale) :
    magnitudeOfRatio (significand * Nat.pow 2 scale) unitsPerOne =
      min infinityMagnitude (scale * binade + significand) := by
  have hround : roundHalfEven (significand * Nat.pow 2 scale * unitsPerOne)
      (unitsPerOne * Nat.pow 2 scale) = significand := by
    rw [Nat.mul_assoc, Nat.mul_comm (Nat.pow 2 scale)]
    exact roundHalfEven_mul_right _ (Nat.mul_pos unitsPerOne_pos (two_pow_pos scale))
  simp only [magnitudeOfRatio, Nat.mul_div_cancel _ unitsPerOne_pos, hscale, hround]

theorem log2_significand {significand : Nat} (scale : Nat) (hlow : binade ≤ significand)
    (hhigh : significand < 2 * binade) : (significand * Nat.pow 2 scale).log2 - 52 = scale := by
  have hpow : 0 < 2 ^ scale := two_pow_pos scale
  have hlog : (significand * 2 ^ scale).log2 = 52 + scale := by
    rw [Nat.log2_eq_iff (Nat.mul_ne_zero (by unfold binade at hlow; omega) (by omega)),
      Nat.pow_succ, Nat.pow_add, Nat.mul_right_comm]
    exact ⟨Nat.mul_le_mul_right _ hlow,
      (Nat.mul_lt_mul_right hpow).mpr (Nat.mul_comm 2 binade ▸ hhigh)⟩
  rw [Nat.pow_eq, hlog]
  omega

/-- A finite magnitude is the one nearest to its own value. -/
theorem magnitudeOfRatio_units {m : Nat} (h : m < infinityMagnitude) :
    magnitudeOfRatio (unitsOfMagnitude m) unitsPerOne = m := by
  rw [unitsOfMagnitude]
  split
  · next hm =>
    have hone : m * Nat.pow 2 0 = m := Nat.mul_one m
    have hlog : (m * Nat.pow 2 0).log2 - 52 = 0 := by
      rw [hone]
      by_cases hzero : m = 0
      · rw [hzero]
        rfl
      · exact Nat.sub_eq_zero_of_le ((Nat.log2_lt hzero).mpr hm).le
    have hexact := magnitudeOfRatio_exact hlog
    rw [hone] at hexact
    rw [hexact]
    omega
  · next hm =>
    have hlog : ((binade + m % binade) * Nat.pow 2 (m / binade - 1)).log2 - 52 = m / binade - 1 :=
      log2_significand _ (by omega) (by unfold binade; omega)
    rw [magnitudeOfRatio_exact hlog]
    unfold infinityMagnitude binade at *
    omega

theorem ofMagnitude_magnitude (x : Binary64) : ofMagnitude x.isNegative x.magnitude = x := by
  have hbound : x.bits.toNat < 2 * signBit := x.bits.toNat_lt
  have hbits : (if x.isNegative then signBit + x.magnitude else x.magnitude) = x.bits.toNat := by
    simp only [isNegative, magnitude, decide_eq_true_eq]
    unfold signBit at *
    split <;> omega
  rw [ofMagnitude, hbits, UInt64.ofNat_toNat]

theorem bits_ofMagnitude (negative : Bool) {m : Nat} (h : m < signBit) :
    (ofMagnitude negative m).bits.toNat = if negative then signBit + m else m := by
  rw [ofMagnitude, UInt64.toNat_ofNat']
  unfold signBit at *
  split <;> omega

theorem magnitude_ofMagnitude (negative : Bool) {m : Nat} (h : m < signBit) :
    (ofMagnitude negative m).magnitude = m := by
  rw [magnitude, bits_ofMagnitude negative h]
  unfold signBit at *
  split <;> omega

theorem isNegative_ofMagnitude (negative : Bool) {m : Nat} (h : m < signBit) :
    (ofMagnitude negative m).isNegative = negative := by
  rw [isNegative, bits_ofMagnitude negative h]
  cases negative with
  | true => simp
  | false => simpa using h

theorem ofRatio_units {x : Binary64} (h : x.isFinite) :
    ofRatio x.isNegative x.units unitsPerOne = x := by
  rw [ofRatio, units, magnitudeOfRatio_units (of_decide_eq_true h), ofMagnitude_magnitude]

theorem ofMagnitude_zero_of_units {x : Binary64} (h : x.units = 0) :
    ofMagnitude x.isNegative 0 = x := by
  have hzero : x.magnitude = 0 := by
    rw [units, unitsOfMagnitude] at h
    split at h
    · exact h
    · refine absurd h (Nat.mul_ne_zero ?_ (two_pow_pos _).ne')
      unfold binade
      omega
  have hx := ofMagnitude_magnitude x
  rwa [hzero] at hx

/-! ## Zeros at the end of a decimal -/

theorem ofDecimal_ten_mul (negative : Bool) (digits : Nat) (exponent : Int) :
    ofDecimal negative (10 * digits) exponent = ofDecimal negative digits (exponent + 1) := by
  by_cases hzero : digits = 0
  · simp only [ofDecimal, hzero, Nat.mul_zero, true_or, if_true]
  have hlength : (Nat.toDigits 10 (10 * digits)).length = (Nat.toDigits 10 digits).length + 1 := by
    have hsplit := congrArg List.length
      (Decimal.digits_mul_add (Nat.pos_of_ne_zero hzero) (by decide : 0 < 10))
    simpa [Decimal.digits] using hsplit
  have hsize : ((Nat.toDigits 10 (10 * digits)).length : Int) + exponent =
      (Nat.toDigits 10 digits).length + (exponent + 1) := by
    rw [hlength]
    omega
  have hdigits : 10 * digits ≠ 0 := by omega
  simp only [ofDecimal, hsize, hzero, hdigits, false_or]
  split
  · rfl
  split
  · rfl
  rcases Int.lt_trichotomy exponent (-1) with hexp | rfl | hexp
  · have habs : exponent.natAbs = (exponent + 1).natAbs + 1 := by omega
    rw [if_pos (by omega), if_pos (by omega), habs, Nat.pow_eq, Nat.pow_eq, Nat.pow_succ',
      ofRatio_mul_mul (by decide)]
  · have hden : Nat.pow 10 (-1 : Int).natAbs = 10 * 1 := rfl
    have hnum : digits * Nat.pow 10 (-1 + 1 : Int).natAbs = digits := Nat.mul_one digits
    rw [if_pos (by decide), if_neg (by decide), hden, hnum, ofRatio_mul_mul (by decide)]
  · have habs : (exponent + 1).natAbs = exponent.natAbs + 1 := by omega
    rw [if_neg (by omega), if_neg (by omega), habs, Nat.pow_eq, Nat.pow_eq, Nat.pow_succ',
      Nat.mul_left_comm, Nat.mul_assoc]

theorem ofDecimal_mul_pow (negative : Bool) (digits zeros : Nat) (exponent : Int) :
    ofDecimal negative (10 ^ zeros * digits) exponent =
      ofDecimal negative digits (exponent + zeros) := by
  induction zeros generalizing exponent with
  | zero => simp
  | succ zeros ih =>
    rw [Nat.pow_succ', Nat.mul_assoc, ofDecimal_ten_mul, ih]
    congr 1
    omega

theorem ofDecimal_go (negative : Bool) (digits : Nat) (exponent : Int) (fuel : Nat) :
    ofDecimal negative (Scientific.dropZeros.go digits exponent fuel).digits
        (Scientific.dropZeros.go digits exponent fuel).exponent =
      ofDecimal negative digits exponent := by
  induction fuel generalizing digits exponent with
  | zero => rfl
  | succ fuel ih =>
    rw [Scientific.dropZeros.go]
    split
    · next h =>
      rw [ih, ← ofDecimal_ten_mul, Nat.mul_div_cancel' (Nat.dvd_of_mod_eq_zero h.2)]
    · rfl

theorem ofDecimal_dropZeros (negative : Bool) (d : Scientific) :
    ofDecimal negative d.dropZeros.digits d.dropZeros.exponent =
      ofDecimal negative d.digits d.exponent :=
  ofDecimal_go negative d.digits d.exponent d.digits

/-! ## All digits -/

theorem five_pow_pos (n : Nat) : 0 < Nat.pow 5 n :=
  Nat.pow_pos (by decide)

theorem unitsOfMagnitude_le {m : Nat} (top : Nat) (h : m < (top + 2) * binade) :
    unitsOfMagnitude m ≤ 2 * binade * Nat.pow 2 top := by
  have hpow := two_pow_pos top
  rw [unitsOfMagnitude]
  split
  · next hm =>
    calc m ≤ 2 * binade * 1 := by omega
      _ ≤ 2 * binade * Nat.pow 2 top := Nat.mul_le_mul_left _ hpow
  · have hscale : m / binade < top + 2 := (Nat.div_lt_iff_lt_mul (by decide)).mpr h
    refine Nat.mul_le_mul ?_ (Nat.pow_le_pow_right (by decide) (by omega))
    have hfraction : m % binade < binade := Nat.mod_lt _ (by decide)
    omega

/-- A decimal with places after the point, neither too large nor too small to be rounded. -/
theorem ofDecimal_neg {digits places : Nat} (negative : Bool) (hdigits : 0 < digits)
    (hplaces : 0 < places) (hlow : places ≤ (Nat.toDigits 10 digits).length + 400)
    (hhigh : (Nat.toDigits 10 digits).length ≤ places + 400) :
    ofDecimal negative digits (-places) = ofRatio negative digits (Nat.pow 10 places) := by
  have hnonzero : ¬ (digits = 0 ∨ ((Nat.toDigits 10 digits).length : Int) + -places < -400) := by
    omega
  rw [ofDecimal, if_neg hnonzero, if_neg (by omega), if_pos (by omega), Int.natAbs_neg,
    Int.natAbs_natCast]

/-- The bounds on the length: a number is less than `2 ^ 1024`, and the least one has 751 digits. -/
theorem ofDecimal_exactDecimal {x : Binary64} (h : x.isFinite) (hne : x.units ≠ 0) :
    ofDecimal x.isNegative x.exactDecimal.digits x.exactDecimal.exponent = x := by
  have hmagnitude : x.magnitude < (2045 + 2) * binade := of_decide_eq_true h
  have hunits := unitsOfMagnitude_le 2045 hmagnitude
  rw [← units] at hunits
  have hhigh : (Nat.toDigits 10 (x.units * Nat.pow 5 1074)).length ≤ 1074 + 400 := by
    rw [Nat.length_toDigits_le_iff (by decide) (by decide)]
    have hproduct := Nat.mul_le_mul_right (Nat.pow 5 1074) hunits
    exact Nat.lt_of_le_of_lt hproduct (by decide +kernel)
  have hlow : 1074 ≤ (Nat.toDigits 10 (x.units * Nat.pow 5 1074)).length + 400 := by
    have hmany : ¬ (Nat.toDigits 10 (x.units * Nat.pow 5 1074)).length ≤ 674 := by
      rw [Nat.length_toDigits_le_iff (by decide) (by decide), Nat.not_lt]
      have hproduct := Nat.mul_le_mul_right (Nat.pow 5 1074) (Nat.one_le_iff_ne_zero.mpr hne)
      exact Nat.le_trans (by decide +kernel) hproduct
    omega
  have hfive := five_pow_pos 1074
  have hten : Nat.pow 10 1074 = Nat.pow 5 1074 * unitsPerOne := by
    decide +kernel
  simp only [exactDecimal]
  generalize Nat.pow 5 1074 = five at *
  have hdigits : 0 < x.units * five := Nat.mul_pos (Nat.pos_of_ne_zero hne) hfive
  calc ofDecimal x.isNegative (x.units * five) (-1074)
      = ofRatio x.isNegative (x.units * five) (Nat.pow 10 1074) :=
        ofDecimal_neg _ hdigits (by decide) hlow hhigh
    _ = ofRatio x.isNegative x.units unitsPerOne := by
        rw [hten, Nat.mul_comm x.units, ofRatio_mul_mul hfive]
    _ = x := ofRatio_units h

/-! ## The shortest digits -/

theorem readsBack_of_neighbour? {x : Binary64} {num den : Nat} {exponent : Int} {d : Scientific}
    (h : x.neighbour? num den exponent = some d) : x.readsBack d := by
  unfold neighbour? at h
  dsimp only at h
  split at h
  · next hbelow =>
    split at h
    · next habove => exact Option.some.inj h ▸ habove.1
    · exact Option.some.inj h ▸ hbelow
  split at h
  · next habove => exact Option.some.inj h ▸ habove
  · cases h

theorem ofDecimal_of_shortestOn? {x : Binary64} {n : Nat} {d : Scientific}
    (h : x.shortestOn? n = some d) : ofDecimal x.isNegative d.digits d.exponent = x := by
  have hread := readsBack_of_neighbour? h
  rw [readsBack, decide_eq_true_eq] at hread
  exact hread

theorem ofDecimal_shortest {x : Binary64} (h : x.isFinite) :
    ofDecimal x.isNegative x.shortest.digits x.shortest.exponent = x := by
  unfold shortest
  split
  · next hzero => exact ofMagnitude_zero_of_units hzero
  · next hne =>
    rw [ofDecimal_dropZeros]
    cases hfound : (List.range 17).findSome? fun n => x.shortestOn? (n + 1) with
    | none => exact ofDecimal_exactDecimal h hne
    | some d =>
      obtain ⟨n, -, hn⟩ := List.exists_of_findSome?_eq_some hfound
      exact ofDecimal_of_shortestOn? hn

/-- Only zero is written without a digit other than zero. -/
theorem shortest_eq_zero {x : Binary64} (h : x.isFinite) (hdigits : x.shortest.digits = 0) :
    x.shortest = ⟨0, 0⟩ := by
  have hread := ofDecimal_shortest h
  have hzero (exponent : Int) : ofDecimal x.isNegative 0 exponent = ofMagnitude x.isNegative 0 := by
    simp only [ofDecimal, true_or, if_true]
  rw [hdigits, hzero] at hread
  have hunits : x.units = 0 := by
    rw [← hread]
    cases x.isNegative <;> decide
  rw [shortest, if_pos hunits]

end Binary64

end ProjectD
