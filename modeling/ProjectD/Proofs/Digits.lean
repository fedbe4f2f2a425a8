import Mathlib.Data.List.Basic
import Mathlib.Tactic.IntervalCases
import ProjectD.Number.Digits

/-! # Digits written and read

A natural number written in decimal, or in hexadecimal, reads back as itself. What stands between
the digits and their value is the place of each digit: a run that follows another one multiplies the
value of the first (`Decimal.value_append`).
-/

set_option autoImplicit false

namespace ProjectD

namespace Decimal

theorem isDigit_eq (c : Char) : isDigit c = c.isDigit := by
  rw [Bool.eq_iff_iff, isDigit, Char.isDigit, Bool.and_eq_true, Bool.and_eq_true]
  simp only [decide_eq_true_eq]
  exact Iff.rfl

theorem isDigit_of_mem_digits {n : Nat} {c : Char} (h : c ∈ digits n) : isDigit c := by
  rw [isDigit_eq]
  exact Nat.isDigit_of_mem_toDigits (by decide) (by decide) h

theorem digits_ne_nil (n : Nat) : digits n ≠ [] :=
  Nat.toDigits_ne_nil

theorem isDigits_digits (n : Nat) : isDigits (digits n) := by
  rw [isDigits, Bool.and_eq_true, List.all_eq_true]
  exact ⟨by simp [digits_ne_nil], fun c hc => isDigit_of_mem_digits hc⟩

theorem value_eq (cs : List Char) : value cs = Nat.ofDigitChars 10 cs 0 :=
  Nat.ofDigitChars_eq_foldl.symm

theorem value_digits (n : Nat) : value (digits n) = n := by
  rw [value_eq]
  exact Nat.ofDigitChars_ten_toDigits

theorem digits_injective {m n : Nat} (h : digits m = digits n) : m = n := by
  rw [← value_digits m, h, value_digits]

theorem value_append (x y : List Char) : value (x ++ y) = 10 ^ y.length * value x + value y := by
  rw [value_eq, value_eq, value_eq, Nat.ofDigitChars_append, Nat.ofDigitChars_eq_ofDigitChars_zero]

theorem value_replicate_zero (n : Nat) : value (List.replicate n '0') = 0 := by
  rw [value_eq, Nat.ofDigitChars_replicate_zero, Nat.mul_zero]

theorem digits_of_lt {n : Nat} (h : n < 10) : digits n = [Nat.digitChar n] :=
  Nat.toDigits_of_lt_base h

theorem digits_mul_add {n d : Nat} (hn : 0 < n) (hd : d < 10) :
    digits (10 * n + d) = digits n ++ digits d :=
  (Nat.toDigits_append_toDigits (by decide) hn hd).symm

/-- Only zero starts with the digit zero. -/
theorem head?_digits_ne_zero {n : Nat} (h : n ≠ 0) : (digits n).head? ≠ some '0' := by
  induction n using Nat.strong_induction_on with
  | h n ih =>
    by_cases hn : n < 10
    · have hpos : 0 < n := Nat.pos_of_ne_zero h
      rw [digits_of_lt hn]
      interval_cases n <;> decide
    · have hq : 0 < n / 10 := by omega
      have hsplit : n = 10 * (n / 10) + n % 10 := by omega
      rw [hsplit, digits_mul_add hq (Nat.mod_lt n (by decide)),
        List.head?_append_of_ne_nil _ (digits_ne_nil _)]
      exact ih (n / 10) (by omega) (by omega)

end Decimal

namespace Radix

theorem hexValue?_digitChar {d : Nat} (h : d < 16) : hexValue? (Nat.digitChar d) = some d := by
  interval_cases d <;> decide

theorem value_hexDigits (n : Nat) : value 16 (Nat.toDigits 16 n) = n := by
  induction n using Nat.strong_induction_on with
  | h n ih =>
    by_cases hn : n < 16
    · rw [Nat.toDigits_of_lt_base hn]
      simp [value, hexValue?_digitChar hn]
    · have hvalue := ih (n / 16) (by omega)
      rw [value] at hvalue
      rw [Nat.toDigits_of_base_le (by decide) (by omega), value, List.foldl_append, hvalue]
      simp only [List.foldl_cons, List.foldl_nil,
        hexValue?_digitChar (Nat.mod_lt n (by decide : 0 < 16)), Option.getD_some]
      omega

theorem isDigitOf_of_mem_hexDigits {n : Nat} {c : Char} (h : c ∈ Nat.toDigits 16 n) :
    isDigitOf 16 c := by
  induction n using Nat.strong_induction_on with
  | h n ih =>
    by_cases hn : n < 16
    · rw [Nat.toDigits_of_lt_base hn, List.mem_singleton] at h
      rw [h, isDigitOf, hexValue?_digitChar hn]
      simpa using hn
    · rw [Nat.toDigits_of_base_le (by decide) (by omega), List.mem_append,
        List.mem_singleton] at h
      have hd : n % 16 < 16 := Nat.mod_lt n (by decide)
      rcases h with h | rfl
      · exact ih (n / 16) (by omega) h
      · rw [isDigitOf, hexValue?_digitChar hd]
        simpa using hd

end Radix

end ProjectD
