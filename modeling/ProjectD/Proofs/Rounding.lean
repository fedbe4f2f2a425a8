import Mathlib.Algebra.Order.Field.Basic
import Mathlib.Algebra.Order.Field.Rat
import Mathlib.Data.Rat.Cast.Order
import Mathlib.Order.Monotone.Basic
import Mathlib.Tactic.FieldSimp
import Mathlib.Tactic.Linarith
import Mathlib.Tactic.Ring
import ProjectD.Proofs.ShortestDecimals

/-! # Rounding to the nearest number

`Binary64.toRat` is the number that the bits of a finite pattern encode, and `Binary64.Nearest` says
that no finite number is nearer to a rational number, a tie going to the even significand. Both are
stated without the rounding functions. `nearest_ofRatio` says that a quotient is rounded so, and
`ofRatio_eq_infinity` where the range ends; `Nearest.unique` that there is only one such number.

The argument is about magnitude patterns and their values in units of `2 ^ -1074`. Values grow by
one step of the binade from each pattern to the next (`unitsOfMagnitude_succ`), and a quotient is
rounded on the grid of its own binade with an error of at most half a step (`exists_grid`). A
pattern on the other side of the binade's lower end is further away than that end.
-/

set_option autoImplicit false

namespace ProjectD

/-! ## Rounding to a natural number -/

theorem roundHalfEven_cases (num den : ℕ) :
    (roundHalfEven num den = num / den ∧ 2 * (num % den) ≤ den ∧
        (2 * (num % den) = den → num / den % 2 = 0)) ∨
      (roundHalfEven num den = num / den + 1 ∧ den ≤ 2 * (num % den) ∧
        (2 * (num % den) = den → (num / den + 1) % 2 = 0)) := by
  unfold roundHalfEven
  dsimp only
  generalize num / den = quotient
  generalize num % den = rest
  split
  · omega
  split <;> omega

theorem roundHalfEven_error (num : ℕ) {den : ℕ} (hden : 0 < den) :
    2 * (((roundHalfEven num den * den : ℕ) : ℤ) - num).natAbs ≤ den := by
  have hnum := Nat.div_add_mod' num den
  have hrest := Nat.mod_lt num hden
  rcases roundHalfEven_cases num den with ⟨h, hhalf, -⟩ | ⟨h, hhalf, -⟩
  · rw [h]
    omega
  · rw [h, Nat.add_one_mul (num / den)]
    omega

theorem roundHalfEven_tie {num den : ℕ} (hden : 0 < den)
    (htie : 2 * (((roundHalfEven num den * den : ℕ) : ℤ) - num).natAbs = den) :
    roundHalfEven num den % 2 = 0 := by
  have hnum := Nat.div_add_mod' num den
  have hrest := Nat.mod_lt num hden
  rcases roundHalfEven_cases num den with ⟨h, -, heven⟩ | ⟨h, -, heven⟩
  · rw [h] at htie ⊢
    exact heven (by omega)
  · rw [h, Nat.add_one_mul (num / den)] at htie
    rw [h]
    exact heven (by omega)

namespace Binary64

/-! ## The value of a pattern -/

theorem two_pow_succ (n : ℕ) : Nat.pow 2 (n + 1) = 2 * Nat.pow 2 n :=
  Nat.pow_succ'

theorem unitsOfMagnitude_grid {scale k : ℕ} (hk : k ≤ 2 * binade) (hlow : 0 < scale → binade ≤ k) :
    unitsOfMagnitude (scale * binade + k) = k * Nat.pow 2 scale := by
  have hb : 0 < binade := by decide
  by_cases hsub : k < binade
  · obtain rfl : scale = 0 := by omega
    rw [Nat.zero_mul, Nat.zero_add, unitsOfMagnitude, if_pos hsub]
    exact (Nat.mul_one k).symm
  have hle : ¬ scale * binade + k < binade := by omega
  by_cases htop : k = 2 * binade
  · -- The significand has carried into the next binade.
    have hpattern : scale * binade + k = (scale + 2) * binade := by
      rw [htop, Nat.add_mul]
    rw [unitsOfMagnitude, if_neg hle, hpattern, Nat.mul_mod_left, Nat.mul_div_cancel _ hb,
      Nat.add_zero, htop]
    exact (congrArg (binade * ·) (two_pow_succ scale)).trans
      (by rw [Nat.mul_left_comm, Nat.mul_assoc])
  · have hpattern : scale * binade + k = (k - binade) + binade * (scale + 1) := by
      rw [Nat.mul_add, Nat.mul_one, Nat.mul_comm binade]
      omega
    have hfraction : k - binade < binade := by omega
    rw [unitsOfMagnitude, if_neg hle, hpattern, Nat.add_mul_mod_self_left,
      Nat.mod_eq_of_lt hfraction, Nat.add_mul_div_left _ _ hb, Nat.div_eq_of_lt hfraction,
      Nat.zero_add, Nat.add_sub_cancel, Nat.add_sub_cancel' (by omega)]

/-- Every pattern is on the grid of its binade. -/
theorem exists_scale (m : ℕ) :
    ∃ k, m = (m / binade - 1) * binade + k ∧ k < 2 * binade ∧
      (0 < m / binade - 1 → binade ≤ k) := by
  have hsplit := Nat.div_add_mod' m binade
  have hrest := Nat.mod_lt m (by decide : 0 < binade)
  by_cases hzero : m / binade = 0
  · refine ⟨m, by simp [hzero], ?_, by simp [hzero]⟩
    rw [hzero] at hsplit
    omega
  · obtain ⟨e, he⟩ := Nat.exists_eq_succ_of_ne_zero hzero
    refine ⟨binade + m % binade, ?_, by omega, fun _ => Nat.le_add_right _ _⟩
    rw [he] at hsplit ⊢
    rw [Nat.succ_mul] at hsplit
    simp only [Nat.succ_eq_add_one, Nat.add_sub_cancel]
    omega

/-- The next pattern is one step of its binade further. -/
theorem unitsOfMagnitude_succ (m : ℕ) :
    unitsOfMagnitude (m + 1) = unitsOfMagnitude m + Nat.pow 2 (m / binade - 1) := by
  obtain ⟨k, hm, hk, hlow⟩ := exists_scale m
  generalize m / binade - 1 = scale at hm hlow ⊢
  rw [hm, Nat.add_assoc, unitsOfMagnitude_grid hk.le hlow,
    unitsOfMagnitude_grid hk fun h => (hlow h).trans (Nat.le_succ k), Nat.add_one_mul]

theorem unitsOfMagnitude_strictMono : StrictMono unitsOfMagnitude := by
  apply strictMono_nat_of_lt_succ
  intro m
  rw [unitsOfMagnitude_succ]
  exact Nat.lt_add_of_pos_right (two_pow_pos _)

/-- Patterns above one of the grid are at least a step away. -/
theorem unitsOfMagnitude_add_le {scale k m : ℕ} (hlow : 0 < scale → binade ≤ k)
    (h : scale * binade + k < m) :
    unitsOfMagnitude (scale * binade + k) + Nat.pow 2 scale ≤ unitsOfMagnitude m := by
  have hscale : scale ≤ (scale * binade + k) / binade - 1 := by
    rcases Nat.eq_zero_or_pos scale with rfl | hpos
    · exact Nat.zero_le _
    · have hquot : scale + 1 ≤ (scale * binade + k) / binade := by
        rw [Nat.le_div_iff_mul_le (by decide), Nat.add_one_mul]
        exact Nat.add_le_add_left (hlow hpos) _
      omega
  calc unitsOfMagnitude (scale * binade + k) + Nat.pow 2 scale
      ≤ unitsOfMagnitude (scale * binade + k + 1) := by
        rw [unitsOfMagnitude_succ]
        exact Nat.add_le_add_left (Nat.pow_le_pow_right (by decide) hscale) _
    _ ≤ unitsOfMagnitude m := unitsOfMagnitude_strictMono.monotone h

/-! ## The nearest pattern -/

/-- The pattern that `units / den` units round to if the range had no end. -/
def unboundedMagnitude (units den : ℕ) : ℕ :=
  let scale := (units / den).log2 - 52
  scale * binade + roundHalfEven units (den * Nat.pow 2 scale)

theorem magnitudeOfRatio_eq (num den : ℕ) :
    magnitudeOfRatio num den =
      min infinityMagnitude (unboundedMagnitude (num * unitsPerOne) den) :=
  rfl

/-- The significand `k` is nearest to `units / den` on the grid with steps of `2 ^ scale` units, and
the quotient is not below the binade of that grid. -/
structure OnGrid (units den scale k : ℕ) : Prop where
  le : k ≤ 2 * binade
  binade_le : 0 < scale → binade ≤ k
  reached : 0 < scale → binade * (den * Nat.pow 2 scale) ≤ units
  error : 2 * (((k * (den * Nat.pow 2 scale) : ℕ) : ℤ) - units).natAbs ≤ den * Nat.pow 2 scale
  tie : 2 * (((k * (den * Nat.pow 2 scale) : ℕ) : ℤ) - units).natAbs = den * Nat.pow 2 scale →
    k % 2 = 0

theorem log2_bounds (n : ℕ) :
    n < 2 * binade * Nat.pow 2 (n.log2 - 52) ∧
      (0 < n.log2 - 52 → binade * Nat.pow 2 (n.log2 - 52) ≤ n) := by
  have hbinade : binade = 2 ^ 52 := rfl
  have htwice : 2 * binade = 2 ^ 53 := rfl
  constructor
  · calc n < 2 ^ (n.log2 + 1) := Nat.lt_log2_self
      _ ≤ 2 ^ (53 + (n.log2 - 52)) := Nat.pow_le_pow_right (by decide) (by omega)
      _ = 2 * binade * Nat.pow 2 (n.log2 - 52) := by rw [htwice, Nat.pow_eq, ← Nat.pow_add]
  · intro hpos
    have hne : n ≠ 0 := by
      rintro rfl
      exact absurd hpos (by decide)
    have hlog : 52 + (n.log2 - 52) = n.log2 := by omega
    calc binade * Nat.pow 2 (n.log2 - 52) = 2 ^ n.log2 := by
          rw [hbinade, Nat.pow_eq, ← Nat.pow_add, hlog]
      _ ≤ n := Nat.log2_self_le hne

theorem exists_grid (units : ℕ) {den : ℕ} (hden : 0 < den) :
    ∃ scale k, unboundedMagnitude units den = scale * binade + k ∧ OnGrid units den scale k := by
  obtain ⟨hhigh, hlow⟩ := log2_bounds (units / den)
  refine ⟨(units / den).log2 - 52, _, rfl, ?_⟩
  generalize (units / den).log2 - 52 = scale at hhigh hlow ⊢
  have hpow := two_pow_pos scale
  have hstep : 0 < den * Nat.pow 2 scale := Nat.mul_pos hden hpow
  have hquot : units / (den * Nat.pow 2 scale) = units / den / Nat.pow 2 scale :=
    (Nat.div_div_eq_div_mul ..).symm
  have hlt : units / (den * Nat.pow 2 scale) < 2 * binade := by
    rw [hquot, Nat.div_lt_iff_lt_mul hpow]
    exact hhigh
  have hle : 0 < scale → binade ≤ units / (den * Nat.pow 2 scale) := by
    intro hpos
    rw [hquot, Nat.le_div_iff_mul_le hpow]
    exact hlow hpos
  have hround := roundHalfEven_cases units (den * Nat.pow 2 scale)
  exact {
    le := by omega
    binade_le := fun hpos => by
      have := hle hpos
      omega
    reached := fun hpos => (Nat.le_div_iff_mul_le hstep).mp (hle hpos)
    error := roundHalfEven_error units hstep
    tie := roundHalfEven_tie hstep }

/-- How far a pattern is from `units / den`, in parts of a unit. -/
def distance (units den m : ℕ) : ℕ :=
  (((unitsOfMagnitude m * den : ℕ) : ℤ) - units).natAbs

/-- No pattern is nearer to `units / den`, and if another one is as near, the pattern is even. -/
structure NearestPattern (units den n : ℕ) : Prop where
  le (m : ℕ) : distance units den n ≤ distance units den m
  even {m : ℕ} (htie : distance units den m = distance units den n) (hne : m ≠ n) : n % 2 = 0

theorem OnGrid.mul_eq {units den scale k : ℕ} (h : OnGrid units den scale k) :
    unitsOfMagnitude (scale * binade + k) * den = k * (den * Nat.pow 2 scale) := by
  rw [unitsOfMagnitude_grid h.le h.binade_le, Nat.mul_assoc, Nat.mul_comm (Nat.pow 2 scale)]

/-- Patterns other than the one on the grid are at least a step away from it, except those below
the binade, which are on the far side of its lower end. -/
theorem OnGrid.apart {units den scale k m : ℕ} (h : OnGrid units den scale k) (hden : 0 < den)
    (hm : m ≠ scale * binade + k) :
    k * (den * Nat.pow 2 scale) + den * Nat.pow 2 scale ≤ unitsOfMagnitude m * den ∨
      unitsOfMagnitude m * den + den * Nat.pow 2 scale ≤ k * (den * Nat.pow 2 scale) ∨
      unitsOfMagnitude m * den < k * (den * Nat.pow 2 scale) ∧
        k * (den * Nat.pow 2 scale) ≤ units := by
  have hstep (a b : ℕ) (hab : a + Nat.pow 2 scale ≤ b) :
      a * den + den * Nat.pow 2 scale ≤ b * den := by
    rw [Nat.mul_comm den, ← Nat.add_mul]
    exact Nat.mul_le_mul_right den hab
  rw [← h.mul_eq]
  rcases Nat.lt_or_gt_of_ne hm with hlt | hgt
  · by_cases hbelow : scale = 0 ∨ binade < k
    · right
      left
      have hpos : 0 < k := by
        rcases hbelow with rfl | hbelow <;> omega
      have hlow : 0 < scale → binade ≤ k - 1 := by omega
      refine hstep _ _ (Nat.le_trans (Nat.add_le_add_right ?_ _)
        (unitsOfMagnitude_add_le hlow (by omega)))
      exact unitsOfMagnitude_strictMono.monotone (by omega)
    · -- The pattern is the first of its binade, so the quotient is not below it.
      have hscale : 0 < scale := by omega
      have hk : k = binade := Nat.le_antisymm (by omega) (h.binade_le hscale)
      right
      right
      refine ⟨Nat.mul_lt_mul_of_pos_right (unitsOfMagnitude_strictMono hlt) hden, ?_⟩
      rw [h.mul_eq, hk]
      exact h.reached hscale
  · exact .inl (hstep _ _ (unitsOfMagnitude_add_le h.binade_le hgt))

theorem OnGrid.nearestPattern {units den scale k : ℕ} (h : OnGrid units den scale k)
    (hden : 0 < den) : NearestPattern units den (scale * binade + k) := by
  have hparity : (scale * binade + k) % 2 = k % 2 := by
    unfold binade
    omega
  have hstep : 0 < den * Nat.pow 2 scale := Nat.mul_pos hden (two_pow_pos scale)
  have herror := h.error
  have htie := h.tie
  have hapart (m : ℕ) (hm : m ≠ scale * binade + k) := h.apart hden hm
  constructor
  · intro m
    rcases eq_or_ne m (scale * binade + k) with rfl | hm
    · exact Nat.le_refl _
    have hm := hapart m hm
    rw [distance, distance, h.mul_eq]
    omega
  · intro m heq hne
    have hm := hapart m hne
    rw [distance, distance, h.mul_eq] at heq
    rw [hparity]
    exact htie (by omega)

theorem nearestPattern_unboundedMagnitude (units : ℕ) {den : ℕ} (hden : 0 < den) :
    NearestPattern units den (unboundedMagnitude units den) := by
  obtain ⟨scale, k, hpattern, hgrid⟩ := exists_grid units hden
  rw [hpattern]
  exact hgrid.nearestPattern hden

/-! ## The end of the range -/

theorem unitsOfMagnitude_mul_top {k : ℕ} (hk : k ≤ 2 * binade) (hlow : binade ≤ k) (top den : ℕ) :
    unitsOfMagnitude ((top + 1) * binade + k) * den = 2 * k * (Nat.pow 2 top * den) := by
  rw [unitsOfMagnitude_grid hk fun _ => hlow, two_pow_succ]
  ring

/-- The pattern passes the end of a range of binades exactly from the middle between the last value
and the end on; from the middle itself because the last pattern is odd. -/
theorem le_unboundedMagnitude_iff (units : ℕ) {den : ℕ} (hden : 0 < den) (top : ℕ) :
    (top + 3) * binade ≤ unboundedMagnitude units den ↔
      (4 * binade - 1) * (Nat.pow 2 top * den) ≤ units := by
  obtain ⟨last, hlast⟩ : ∃ last, last + 1 = (top + 3) * binade :=
    ⟨(top + 1) * binade + (2 * binade - 1), by unfold binade; omega⟩
  have hodd : last % 2 = 1 := by
    unfold binade at hlast
    omega
  have hendUnits : unitsOfMagnitude (last + 1) * den = 4 * binade * (Nat.pow 2 top * den) := by
    have hpattern : last + 1 = (top + 1) * binade + 2 * binade := by
      rw [hlast, ← Nat.add_mul]
    rw [hpattern, unitsOfMagnitude_mul_top (Nat.le_refl _) (by omega)]
    rfl
  have hlastUnits : unitsOfMagnitude last * den = (4 * binade - 2) * (Nat.pow 2 top * den) := by
    have hpattern : last = (top + 1) * binade + (2 * binade - 1) := by
      unfold binade at hlast ⊢
      omega
    rw [hpattern, unitsOfMagnitude_mul_top (by omega) (by decide)]
    rfl
  have hpos : 0 < Nat.pow 2 top * den := Nat.mul_pos (two_pow_pos top) hden
  have hnear := nearestPattern_unboundedMagnitude units hden
  have hnearEnd := hnear.le (last + 1)
  have hnearLast := hnear.le last
  have htie := hnear.even (m := last + 1)
  rw [← hlast]
  simp only [distance, hendUnits, hlastUnits] at hnearEnd hnearLast htie
  have hmono {a b : ℕ} (h : a ≤ b) : unitsOfMagnitude a * den ≤ unitsOfMagnitude b * den :=
    Nat.mul_le_mul_right den (unitsOfMagnitude_strictMono.monotone h)
  have hstrict {a b : ℕ} (h : a < b) : unitsOfMagnitude a * den < unitsOfMagnitude b * den :=
    Nat.mul_lt_mul_of_pos_right (unitsOfMagnitude_strictMono h) hden
  generalize unboundedMagnitude units den = m at *
  generalize Nat.pow 2 top * den = X at *
  unfold binade at hendUnits hlastUnits hnearEnd hnearLast htie ⊢
  constructor
  · intro h
    have hle := hmono h
    omega
  · intro h
    by_contra hlt
    rcases Nat.lt_or_eq_of_le (Nat.le_of_lt_succ (Nat.lt_of_not_ge hlt)) with hbelow | rfl
    · have hless := hstrict hbelow
      omega
    · have heven := htie (by omega) (by omega)
      omega

/-! ## The number that the bits encode -/

def exponentField (x : Binary64) : ℕ :=
  x.bits.toNat / 2 ^ 52 % 2 ^ 11

def fractionField (x : Binary64) : ℕ :=
  x.bits.toNat % 2 ^ 52

/-- The fraction with its leading bit, which numbers below the first binade do not have. -/
def significand (x : Binary64) : ℕ :=
  if x.exponentField = 0 then x.fractionField else 2 ^ 52 + x.fractionField

/-- The value of a finite number. -/
def toRat (x : Binary64) : ℚ :=
  (if x.isNegative then -1 else 1) * x.significand * 2 ^ ((max x.exponentField 1 : ℕ) - 1075 : ℤ)

/-- No finite number is nearer to `v`, and if another one is as near, the significand is even. The
sign bit is given, because zero has two signs. -/
structure Nearest (negative : Bool) (v : ℚ) (x : Binary64) : Prop where
  isFinite : x.isFinite
  isNegative : x.isNegative = negative
  nearest {y : Binary64} (hy : y.isFinite) : |x.toRat - v| ≤ |y.toRat - v|
  even {y : Binary64} (hy : y.isFinite) (htie : |y.toRat - v| = |x.toRat - v|)
    (hne : y.toRat ≠ x.toRat) : Even x.significand

theorem exponentField_eq (x : Binary64) : x.exponentField = x.magnitude / binade := by
  unfold exponentField magnitude signBit binade
  omega

theorem fractionField_eq (x : Binary64) : x.fractionField = x.magnitude % binade := by
  unfold fractionField magnitude signBit binade
  omega

theorem significand_mod_two (x : Binary64) : x.significand % 2 = x.magnitude % 2 := by
  unfold significand
  rw [fractionField_eq]
  unfold binade
  split <;> omega

theorem units_eq (x : Binary64) :
    x.units = x.significand * 2 ^ (max x.exponentField 1 - 1) := by
  have hb : binade = 2 ^ 52 := rfl
  rw [units, unitsOfMagnitude, significand, exponentField_eq, fractionField_eq]
  by_cases hlow : x.magnitude < binade
  · have hexp : x.magnitude / binade = 0 := Nat.div_eq_of_lt hlow
    rw [if_pos hlow, if_pos hexp, hexp, Nat.mod_eq_of_lt hlow]
    exact (Nat.mul_one _).symm
  · have hexp : x.magnitude / binade ≠ 0 := by
      rw [Nat.div_ne_zero_iff]
      exact ⟨by decide, by omega⟩
    rw [if_neg hlow, if_neg hexp, Nat.max_eq_left (Nat.one_le_iff_ne_zero.mpr hexp), hb]
    rfl

theorem two_pow_cast (n : ℕ) : ((Nat.pow 2 n : ℕ) : ℚ) = 2 ^ n := by
  rw [Nat.pow_eq, Nat.cast_pow, Nat.cast_ofNat]

theorem unitsPerOne_cast : (unitsPerOne : ℚ) = 2 ^ 1074 := by
  rw [unitsPerOne, two_pow_cast]

theorem toRat_eq (x : Binary64) :
    x.toRat = (if x.isNegative then -(x.units : ℚ) else x.units) / unitsPerOne := by
  have hexp : ((max x.exponentField 1 : ℕ) - 1075 : ℤ) =
      ((max x.exponentField 1 - 1 : ℕ) : ℤ) - (1074 : ℕ) := by
    omega
  rw [toRat, hexp, zpow_sub₀ (by norm_num), zpow_natCast, zpow_natCast, units_eq,
    unitsPerOne_cast, Nat.cast_mul, Nat.cast_pow, Nat.cast_ofNat]
  generalize (2 : ℚ) ^ 1074 = one
  split <;> ring

/-! ## Quotients are rounded to the nearest number -/

/-- The distance from a signed quotient, brought to one denominator. -/
theorem abs_toRat_sub (x : Binary64) (negative : Bool) (num : ℕ) {den : ℕ} (hden : 0 < den) :
    |x.toRat - if negative then -(num / den : ℚ) else num / den| =
      (((if x.isNegative then -((x.units * den : ℕ) : ℤ) else (x.units * den : ℕ)) -
        if negative then -((num * unitsPerOne : ℕ) : ℤ) else (num * unitsPerOne : ℕ)).natAbs : ℚ) /
        (den * unitsPerOne) := by
  have hone : (0 : ℚ) < unitsPerOne := by exact_mod_cast unitsPerOne_pos
  have hden' : (0 : ℚ) < den := by exact_mod_cast hden
  rw [toRat_eq, Nat.cast_natAbs, Int.cast_abs, eq_div_iff (mul_pos hden' hone).ne',
    ← abs_of_pos (mul_pos hden' hone), ← abs_mul]
  generalize unitsPerOne = one at *
  congr 1
  cases x.isNegative <;> cases negative <;>
    simp only [Bool.false_eq_true, if_true, if_false] <;> push_cast <;> field_simp

theorem infinityMagnitude_lt_signBit : infinityMagnitude < signBit := by
  decide

theorem isFinite_iff (x : Binary64) : x.isFinite ↔ x.magnitude < infinityMagnitude := by
  rw [isFinite, decide_eq_true_eq]

/-- The middle between the largest number and the end of the range, `2 ^ 1024 - 2 ^ 970`, in
units. -/
theorem le_ratio_iff (num : ℕ) {den : ℕ} (hden : 0 < den) :
    (2 ^ 1024 - 2 ^ 970 : ℚ) ≤ num / den ↔
      (4 * binade - 1) * (Nat.pow 2 2044 * den) ≤ num * unitsPerOne := by
  have hone : (0 : ℚ) < unitsPerOne := by exact_mod_cast unitsPerOne_pos
  have hden' : (0 : ℚ) < den := by exact_mod_cast hden
  have hhigh : (2 ^ 1024 : ℚ) = 2 ^ 54 * 2 ^ 970 := by rw [← pow_add]
  have htop : (2 ^ 2044 : ℚ) = 2 ^ 970 * 2 ^ 1074 := by rw [← pow_add]
  have hscaled : (((4 * binade - 1) * (Nat.pow 2 2044 * den) : ℕ) : ℚ) =
      (2 ^ 1024 - 2 ^ 970) * den * unitsPerOne := by
    have hb : 4 * binade - 1 = 18014398509481983 := rfl
    rw [hb, Nat.cast_mul, Nat.cast_mul, two_pow_cast, unitsPerOne_cast, hhigh, htop]
    generalize (2 : ℚ) ^ 970 = low
    generalize (2 : ℚ) ^ 1074 = one
    push_cast
    ring
  rw [le_div_iff₀ hden', ← mul_le_mul_iff_of_pos_right hone, ← hscaled, ← Nat.cast_mul,
    Nat.cast_le]

theorem infinityMagnitude_le_iff (num : ℕ) {den : ℕ} (hden : 0 < den) :
    infinityMagnitude ≤ unboundedMagnitude (num * unitsPerOne) den ↔
      (2 ^ 1024 - 2 ^ 970 : ℚ) ≤ num / den := by
  have hend : (2044 + 3) * binade = infinityMagnitude := rfl
  rw [le_ratio_iff num hden, ← le_unboundedMagnitude_iff _ hden 2044, hend]

def infinity (negative : Bool) : Binary64 :=
  ofMagnitude negative infinityMagnitude

theorem ofRatio_eq_infinity (negative : Bool) {num den : ℕ} (hden : 0 < den)
    (h : (2 ^ 1024 - 2 ^ 970 : ℚ) ≤ num / den) : ofRatio negative num den = infinity negative := by
  rw [ofRatio, magnitudeOfRatio_eq,
    Nat.min_eq_left ((infinityMagnitude_le_iff num hden).mpr h), infinity]

/-- A nearest magnitude is nearest with its sign too: what has the other sign is further away than
zero. -/
theorem natAbs_signed_le {a b n : ℕ} (negative other : Bool)
    (hle : ((a : ℤ) - n).natAbs ≤ ((b : ℤ) - n).natAbs) (hzero : ((a : ℤ) - n).natAbs ≤ n) :
    ((if negative then -(a : ℤ) else a) - if negative then -(n : ℤ) else n).natAbs ≤
      ((if other then -(b : ℤ) else b) - if negative then -(n : ℤ) else n).natAbs := by
  cases negative <;> cases other <;> simp only [Bool.false_eq_true, if_true, if_false] <;> omega

theorem natAbs_signed_eq {a b n : ℕ} {negative other : Bool} (hzero : ((a : ℤ) - n).natAbs ≤ n)
    (h : ((if other then -(b : ℤ) else b) - if negative then -(n : ℤ) else n).natAbs =
      ((if negative then -(a : ℤ) else a) - if negative then -(n : ℤ) else n).natAbs) :
    ((b : ℤ) - n).natAbs = ((a : ℤ) - n).natAbs ∧ (b = a → other = negative ∨ b = 0) := by
  cases negative <;> cases other <;>
    simp only [Bool.false_eq_true, if_true, if_false] at h <;> simp <;> omega

/-- A number with the nearest pattern is nearest among the numbers of either sign. -/
theorem NearestPattern.nearest {num den : ℕ} (hden : 0 < den) {x : Binary64}
    (h : NearestPattern (num * unitsPerOne) den x.magnitude) (hfinite : x.isFinite)
    {negative : Bool} (hsign : x.isNegative = negative) :
    Nearest negative (if negative then -(num / den : ℚ) else num / den) x := by
  have hpos : (0 : ℚ) < den * unitsPerOne := by
    exact_mod_cast Nat.mul_pos hden unitsPerOne_pos
  have hzero : (((x.units * den : ℕ) : ℤ) - (num * unitsPerOne : ℕ)).natAbs ≤
      num * unitsPerOne := by
    have hle := h.le 0
    have hunits : unitsOfMagnitude 0 = 0 := rfl
    simp only [distance, hunits, Nat.zero_mul] at hle
    generalize num * unitsPerOne = n at *
    exact hle.trans (by omega)
  refine ⟨hfinite, hsign, fun {y} _ => ?_, fun {y} _ htie hne => ?_⟩
  · rw [abs_toRat_sub x negative num hden, abs_toRat_sub y negative num hden,
      div_le_div_iff_of_pos_right hpos, Nat.cast_le, hsign]
    exact natAbs_signed_le negative y.isNegative (h.le y.magnitude) hzero
  · rw [abs_toRat_sub x negative num hden, abs_toRat_sub y negative num hden,
      div_left_inj' hpos.ne', Nat.cast_inj, hsign] at htie
    obtain ⟨hdistance, hsame⟩ := natAbs_signed_eq hzero htie
    rw [Nat.even_iff, significand_mod_two]
    refine h.even hdistance fun hm => hne ?_
    -- The two have one pattern, so they are equal or the two zeros.
    have hunits : y.units = x.units := congrArg unitsOfMagnitude hm
    rcases hsame (by rw [hunits]) with hother | hnone
    · rw [toRat_eq, toRat_eq, hother, hsign, hunits]
    · have hnull : x.units = 0 := by
        rw [← hunits]
        exact (Nat.mul_eq_zero.mp hnone).resolve_right hden.ne'
      rw [toRat_eq, toRat_eq, hunits, hnull]
      simp only [Nat.cast_zero, neg_zero, ite_self]

theorem nearest_ofRatio (negative : Bool) {num den : ℕ} (hden : 0 < den)
    (h : (num / den : ℚ) < 2 ^ 1024 - 2 ^ 970) :
    Nearest negative (if negative then -(num / den : ℚ) else num / den)
      (ofRatio negative num den) := by
  have hfinite : unboundedMagnitude (num * unitsPerOne) den < infinityMagnitude := by
    rw [← Nat.not_le, infinityMagnitude_le_iff num hden]
    exact not_le.mpr h
  have hpattern := Nat.lt_trans hfinite infinityMagnitude_lt_signBit
  have hmagnitude := magnitude_ofMagnitude negative hpattern
  rw [ofRatio, magnitudeOfRatio_eq, Nat.min_eq_right hfinite.le]
  apply NearestPattern.nearest hden
  · rw [hmagnitude]
    exact nearestPattern_unboundedMagnitude _ hden
  · rw [isFinite_iff, hmagnitude]
    exact hfinite
  · exact isNegative_ofMagnitude negative hpattern

/-! ## There is one nearest number -/

theorem toRat_of_sign {x : Binary64} {negative : Bool} (h : x.isNegative = negative) :
    x.toRat = if negative then -(x.units / unitsPerOne : ℚ) else x.units / unitsPerOne := by
  rw [toRat_eq, h]
  cases negative
  · rfl
  · exact neg_div ..

theorem abs_sub_lt_of_between {a b c v : ℚ} (hab : a < b) (hbc : b < c)
    (h : |a - v| = |c - v|) : |b - v| < |a - v| := by
  rw [abs_lt]
  constructor
  · linarith [neg_abs_le (a - v)]
  · linarith [le_abs_self (c - v)]

theorem Nearest.not_lt {negative : Bool} {v : ℚ} {x y : Binary64} (hx : Nearest negative v x)
    (hy : Nearest negative v y) : ¬ x.magnitude < y.magnitude := by
  intro hlt
  have hone : (0 : ℚ) < unitsPerOne := by exact_mod_cast unitsPerOne_pos
  have hscaled {m n : ℕ} (hmn : m < n) : (unitsOfMagnitude m / unitsPerOne : ℚ) <
      unitsOfMagnitude n / unitsPerOne :=
    div_lt_div_of_pos_right (Nat.cast_lt.mpr (unitsOfMagnitude_strictMono hmn)) hone
  have hdistance : |x.toRat - v| = |y.toRat - v| :=
    le_antisymm (hx.nearest hy.isFinite) (hy.nearest hx.isFinite)
  have hne : x.toRat ≠ y.toRat := by
    have hless := hscaled hlt
    rw [toRat_of_sign hx.isNegative, toRat_of_sign hy.isNegative]
    cases negative
    · exact hless.ne
    · exact fun heq => hless.ne (neg_inj.mp heq)
  -- Both significands are even, so a pattern lies between the two.
  have hxeven := hx.even hy.isFinite hdistance.symm hne.symm
  have hyeven := hy.even hx.isFinite hdistance hne
  rw [Nat.even_iff, significand_mod_two] at hxeven hyeven
  have hbetween : x.magnitude + 1 < y.magnitude := by omega
  have hfinite := (isFinite_iff y).mp hy.isFinite
  have hpattern := (hbetween.trans hfinite).trans infinityMagnitude_lt_signBit
  have hz := magnitude_ofMagnitude negative hpattern
  have hzsign := isNegative_ofMagnitude negative hpattern
  generalize ofMagnitude negative (x.magnitude + 1) = z at hz hzsign
  have hzfinite : z.isFinite := by
    rw [isFinite_iff, hz]
    exact hbetween.trans hfinite
  refine absurd (hx.nearest hzfinite) (not_le.mpr ?_)
  rw [toRat_of_sign hx.isNegative, toRat_of_sign hy.isNegative] at hdistance
  rw [toRat_of_sign hx.isNegative, toRat_of_sign hzsign]
  have hlower : (x.units / unitsPerOne : ℚ) < z.units / unitsPerOne := hscaled (by omega)
  have hupper : (z.units / unitsPerOne : ℚ) < y.units / unitsPerOne := hscaled (by omega)
  cases negative
  · exact abs_sub_lt_of_between hlower hupper hdistance
  · refine lt_of_lt_of_eq ?_ hdistance.symm
    exact abs_sub_lt_of_between (neg_lt_neg hupper) (neg_lt_neg hlower) hdistance.symm

theorem Nearest.unique {negative : Bool} {v : ℚ} {x y : Binary64} (hx : Nearest negative v x)
    (hy : Nearest negative v y) : x = y := by
  have hmagnitude : x.magnitude = y.magnitude :=
    Nat.le_antisymm (Nat.not_lt.mp (hy.not_lt hx)) (Nat.not_lt.mp (hx.not_lt hy))
  rw [← ofMagnitude_magnitude x, ← ofMagnitude_magnitude y, hx.isNegative, hy.isNegative,
    hmagnitude]

end Binary64

end ProjectD
