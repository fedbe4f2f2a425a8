import ProjectD.Json.Basic
import ProjectD.Json.Reader
import ProjectD.Proofs.ShortestDecimals
import ProjectD.Proofs.Spans

/-! # Numbers in JSON texts

A number that is written can be read again, wherever it stands: the text after it only must not go
on with a character of a number (`NumberEnds`).

* `value?_integer`: integers that fit 64 bits.
* `value?_real`: finite numbers, in both notations. That the digits suffice is
  `Binary64.ofDecimal_shortest`; here it is about where the point and the exponent put them.
-/

set_option autoImplicit false

namespace ProjectD.Json

/-! ## Parts of a number -/

/-- The characters with which a number can go on after a digit. -/
def isNumberChar (c : Char) : Bool :=
  Decimal.isDigit c || c = '.' || c = 'e' || c = 'E'

/-- A text before which a number ends. -/
def NumberEnds (rest : List Char) : Prop :=
  rest.head?.any isNumberChar = false

theorem NumberEnds.nil : NumberEnds [] :=
  rfl

theorem NumberEnds.cons {c : Char} (h : isNumberChar c = false) (rest : List Char) :
    NumberEnds (c :: rest) := by
  simpa [NumberEnds] using h

theorem NumberEnds.not_digit {rest : List Char} (h : NumberEnds rest) :
    rest.head?.any Decimal.isDigit = false := by
  cases rest with
  | nil => rfl
  | cons c cs =>
    simp only [NumberEnds, isNumberChar, List.head?_cons, Option.any_some,
      Bool.or_eq_false_iff] at h
    simpa using h.1.1.1

theorem fractionPart?_of_ends {rest : List Char} (h : NumberEnds rest) :
    fractionPart? rest = some ([], rest) := by
  unfold fractionPart?
  split
  · cases h
  · rfl

theorem exponentPart?_of_ends {rest : List Char} (h : NumberEnds rest) :
    exponentPart? rest = some (none, rest) := by
  cases rest with
  | nil => rfl
  | cons c cs =>
    simp only [NumberEnds, isNumberChar, List.head?_cons, Option.any_some, Bool.or_eq_false_iff,
      decide_eq_false_iff_not] at h
    simp [exponentPart?, h.1.2, h.2]

theorem forall_of_isDigits {ds : List Char} (h : Decimal.isDigits ds) :
    ∀ c ∈ ds, Decimal.isDigit c := by
  rw [Decimal.isDigits, Bool.and_eq_true, List.all_eq_true] at h
  exact h.2

theorem isDigits_of_forall {ds : List Char} (hne : ds ≠ []) (h : ∀ c ∈ ds, Decimal.isDigit c) :
    Decimal.isDigits ds := by
  rw [Decimal.isDigits, Bool.and_eq_true, List.all_eq_true]
  exact ⟨by simpa using hne, h⟩

theorem ne_nil_of_isDigits {ds : List Char} (h : Decimal.isDigits ds) : ds ≠ [] := by
  rintro rfl
  cases h

/-- The digits before the point have no zero in front, unless that is all. -/
def IsWhole (whole : List Char) : Prop :=
  Decimal.isDigits whole ∧ (whole = ['0'] ∨ whole.head? ≠ some '0')

theorem isWhole_digits (n : Nat) : IsWhole (Decimal.digits n) := by
  refine ⟨Decimal.isDigits_digits n, ?_⟩
  by_cases hn : n = 0
  · rw [hn]
    exact .inl rfl
  · exact .inr (Decimal.head?_digits_ne_zero hn)

theorem wholePart?_append {whole rest : List Char} (h : IsWhole whole)
    (hrest : rest.head?.any Decimal.isDigit = false) :
    wholePart? (whole ++ rest) = some (whole, rest) := by
  obtain ⟨hdigits, hzero⟩ := h
  have hall := forall_of_isDigits hdigits
  rw [wholePart?, takeWhile_append_stop hall hrest, dropWhile_append_stop hall hrest]
  split
  · cases hdigits
  · rfl
  · next hne =>
    rcases hzero with hzero | hzero
    · exact absurd (List.cons.inj hzero).2 hne
    · exact absurd rfl hzero
  · rfl

theorem fractionPart?_append {fraction rest : List Char} (h : Decimal.isDigits fraction)
    (hrest : rest.head?.any Decimal.isDigit = false) :
    fractionPart? ('.' :: (fraction ++ rest)) = some (fraction, rest) := by
  have hall := forall_of_isDigits h
  rw [fractionPart?, takeWhile_append_stop hall hrest, dropWhile_append_stop hall hrest]
  split
  · cases h
  · rfl

theorem exponentDigits?_append {ds rest : List Char} (negative : Bool) (h : Decimal.isDigits ds)
    (hrest : rest.head?.any Decimal.isDigit = false) :
    exponentDigits? negative (ds ++ rest) =
      some (some (if negative then -(Decimal.value ds : Int) else Decimal.value ds), rest) := by
  have hall := forall_of_isDigits h
  rw [exponentDigits?, takeWhile_append_stop hall hrest, dropWhile_append_stop hall hrest]
  split
  · cases h
  · rfl

/-- An exponent is written with its sign. -/
theorem exponentPart?_append (exponent : Int) {rest : List Char}
    (hrest : rest.head?.any Decimal.isDigit = false) :
    exponentPart? ('e' :: (if exponent < 0 then '-' else '+') ::
      (Decimal.digits exponent.natAbs ++ rest)) = some (some exponent, rest) := by
  have hdigits (negative : Bool) := exponentDigits?_append negative
    (Decimal.isDigits_digits exponent.natAbs) hrest
  split
  · next hneg =>
    rw [exponentPart?, if_pos (.inl rfl)]
    refine (hdigits true).trans ?_
    rw [Decimal.value_digits, if_pos rfl, Int.ofNat_natAbs_of_nonpos hneg.le, Int.neg_neg]
  · next hpos =>
    rw [exponentPart?, if_pos (.inl rfl)]
    refine (hdigits false).trans ?_
    rw [Decimal.value_digits, if_neg (by decide), Int.natAbs_of_nonneg (Int.not_lt.mp hpos)]

/-! ## Integers -/

theorem unsignedNumber?_digits {rule : RealRule} {negative : Bool} {n : Nat} {rest : List Char}
    (h : if negative then 0 < n ∧ 2 * n ≤ UInt64.size else n < UInt64.size)
    (hrest : NumberEnds rest) :
    unsignedNumber? rule negative (Decimal.digits n ++ rest) =
      some (.integer (if negative then -n else n), rest) := by
  simp only [unsignedNumber?, wholePart?_append (isWhole_digits n) hrest.not_digit,
    fractionPart?_of_ends hrest, exponentPart?_of_ends hrest, Option.bind_eq_bind, Option.bind_some]
  rw [number?, Decimal.value_digits, if_pos ⟨rfl, rfl, h⟩]
  rfl

/-! ## Reals -/

theorem number?_nearest {negative : Bool} {whole fraction : List Char} {exponent : Option Int}
    {x : Binary64} (hreal : fraction ≠ [] ∨ exponent ≠ none)
    (hx : Binary64.ofDecimal negative (Decimal.value (whole ++ fraction))
      (exponent.getD 0 - fraction.length) = x) (hfinite : x.isFinite) :
    number? .nearest negative whole fraction exponent = some (.real x) := by
  have hform : ¬ (fraction.isEmpty ∧ exponent = none ∧
      (if negative then 0 < Decimal.value whole ∧ 2 * Decimal.value whole ≤ UInt64.size
        else Decimal.value whole < UInt64.size)) := by
    rintro ⟨hfraction, hexponent, -⟩
    rcases hreal with h | h
    · exact h (List.isEmpty_iff.mp hfraction)
    · exact h hexponent
  rw [number?, if_neg hform]
  simp only [RealRule.read?, hx, hfinite, if_true, Option.map_some]

/-- A number with a point and no exponent. -/
theorem unsignedNumber?_point {negative : Bool} {whole fraction rest : List Char} {x : Binary64}
    (hwhole : IsWhole whole) (hfraction : Decimal.isDigits fraction)
    (hx : Binary64.ofDecimal negative (Decimal.value (whole ++ fraction)) (-fraction.length) = x)
    (hfinite : x.isFinite) (hrest : NumberEnds rest) :
    unsignedNumber? .nearest negative (whole ++ '.' :: (fraction ++ rest)) =
      some (.real x, rest) := by
  have hpoint : ('.' :: (fraction ++ rest)).head?.any Decimal.isDigit = false := rfl
  have hnumber : number? .nearest negative whole fraction none = some (.real x) :=
    number?_nearest (.inl (ne_nil_of_isDigits hfraction)) (by simpa using hx) hfinite
  simp only [unsignedNumber?, wholePart?_append hwhole hpoint,
    fractionPart?_append hfraction hrest.not_digit, exponentPart?_of_ends hrest, hnumber,
    Option.bind_eq_bind, Option.bind_some]

/-- A number with an exponent; the point is left out where no digit follows it. -/
theorem unsignedNumber?_exponent {negative : Bool} {whole fraction rest : List Char}
    {exponent : Int} {x : Binary64} (hwhole : IsWhole whole)
    (hfraction : ∀ c ∈ fraction, Decimal.isDigit c)
    (hx : Binary64.ofDecimal negative (Decimal.value (whole ++ fraction))
      (exponent - fraction.length) = x) (hfinite : x.isFinite) (hrest : NumberEnds rest) :
    unsignedNumber? .nearest negative (whole ++
      (if fraction.isEmpty then [] else '.' :: fraction) ++
      'e' :: (if exponent < 0 then '-' else '+') :: (Decimal.digits exponent.natAbs ++ rest)) =
      some (.real x, rest) := by
  have hexponent := exponentPart?_append exponent hrest.not_digit
  have hnumber : number? .nearest negative whole fraction (some exponent) = some (.real x) :=
    number?_nearest (.inr (Option.some_ne_none _)) hx hfinite
  generalize hmark : 'e' :: (if exponent < 0 then '-' else '+') ::
    (Decimal.digits exponent.natAbs ++ rest) = tail at *
  have hdigit : tail.head?.any Decimal.isDigit = false := by
    rw [← hmark]
    rfl
  cases fraction with
  | nil =>
    have hpart : fractionPart? tail = some ([], tail) := by
      rw [← hmark]
      rfl
    simp only [unsignedNumber?, List.isEmpty_nil, if_true, List.append_nil,
      wholePart?_append hwhole hdigit, hpart, hexponent, hnumber, Option.bind_eq_bind,
      Option.bind_some]
  | cons d ds =>
    have hdigits := isDigits_of_forall (List.cons_ne_nil d ds) hfraction
    have hpoint : ('.' :: (d :: ds ++ tail)).head?.any Decimal.isDigit = false := rfl
    simp only [unsignedNumber?, List.isEmpty_cons, Bool.false_eq_true, if_false, List.append_assoc,
      List.cons_append]
    rw [← List.cons_append, wholePart?_append hwhole hpoint]
    simp only [fractionPart?_append hdigits hdigit, hexponent, hnumber, Option.bind_eq_bind,
      Option.bind_some]

/-! ## Notations -/

theorem isDigit_of_mem_zeros {n : Nat} {c : Char} (h : c ∈ List.replicate n '0') :
    Decimal.isDigit c := by
  rw [List.eq_of_mem_replicate h]
  rfl

theorem isWhole_take {n width : Nat} (hn : n ≠ 0) (hwidth : width ≠ 0) :
    IsWhole ((Decimal.digits n).take width) := by
  refine ⟨isDigits_of_forall ?_ fun c hc => ?_, .inr ?_⟩
  · simp [Decimal.digits_ne_nil, hwidth]
  · exact Decimal.isDigit_of_mem_digits (List.mem_of_mem_take hc)
  · rw [List.head?_take, if_neg hwidth]
    exact Decimal.head?_digits_ne_zero hn

end ProjectD.Json

namespace ProjectD.Scientific

open Json

theorem length_eq (d : Scientific) : d.length = (Decimal.digits d.digits).length :=
  rfl

theorem length_pos (d : Scientific) : 0 < d.length :=
  List.length_pos_of_ne_nil (Decimal.digits_ne_nil _)

/-- Zero has no exponent. -/
def IsNormal (d : Scientific) : Prop :=
  d.digits = 0 → d.exponent = 0

/-- A decimal written positionally has digits before and after the point, and their value is that
of the decimal. -/
def PointForm (d : Scientific) (whole fraction : List Char) : Prop :=
  d.positional = whole ++ '.' :: fraction ∧ IsWhole whole ∧ Decimal.isDigits fraction ∧
    ∀ negative, Binary64.ofDecimal negative (Decimal.value (whole ++ fraction)) (-fraction.length) =
      Binary64.ofDecimal negative d.digits d.exponent

/-- Below one: zeros after the point, then all digits. -/
theorem pointForm_small {d : Scientific} (h : d.leading < 0) :
    d.PointForm ['0'] (List.replicate (d.leading.natAbs - 1) '0' ++ Decimal.digits d.digits) := by
  refine ⟨?_, ⟨rfl, .inl rfl⟩, ?_, fun negative => ?_⟩
  · rw [positional, if_pos h]
    rfl
  · refine isDigits_of_forall (by simp [Decimal.digits_ne_nil]) ?_
    exact List.forall_mem_append.mpr
      ⟨fun _ => isDigit_of_mem_zeros, fun _ => Decimal.isDigit_of_mem_digits⟩
  · have hvalue : Decimal.value (['0'] ++ (List.replicate (d.leading.natAbs - 1) '0' ++
        Decimal.digits d.digits)) = d.digits := by
      rw [Decimal.value_append, Decimal.value_append, Decimal.value_replicate_zero,
        Decimal.value_digits]
      simp [Decimal.value, Decimal.digitValue]
    have hexponent : (-(List.replicate (d.leading.natAbs - 1) '0' ++
        Decimal.digits d.digits).length : Int) = d.exponent := by
      rw [List.length_append, List.length_replicate, ← length_eq]
      have hpos := d.length_pos
      simp only [leading] at *
      omega
    rw [hvalue, hexponent]

/-- A whole number: zeros after all digits, and one after the point. -/
theorem pointForm_large {d : Scientific} (hd : d.IsNormal) (h : 0 ≤ d.exponent) :
    d.PointForm (Decimal.digits d.digits ++ List.replicate d.exponent.natAbs '0') ['0'] := by
  have hpos := d.length_pos
  refine ⟨?_, ⟨?_, ?_⟩, rfl, fun negative => ?_⟩
  · have hleading : ¬ d.leading < 0 := by
      rw [leading]
      omega
    have hwidth : d.leading.natAbs + 1 = (Decimal.digits d.digits).length + d.exponent.natAbs := by
      rw [← length_eq, leading]
      omega
    have htake : (Decimal.digits d.digits).take (d.leading.natAbs + 1) = Decimal.digits d.digits :=
      List.take_of_length_le (by omega)
    have hdrop : (Decimal.digits d.digits).drop (d.leading.natAbs + 1) = [] :=
      List.drop_of_length_le (by omega)
    have hzeros : d.leading.natAbs + 1 - (Decimal.digits d.digits).length = d.exponent.natAbs := by
      omega
    simp only [positional, if_neg hleading, htake, hdrop, hzeros, List.isEmpty_nil, if_true]
  · refine isDigits_of_forall (by simp [Decimal.digits_ne_nil]) ?_
    exact List.forall_mem_append.mpr
      ⟨fun _ => Decimal.isDigit_of_mem_digits, fun _ => isDigit_of_mem_zeros⟩
  · by_cases hzero : d.digits = 0
    · rw [hzero, hd hzero]
      exact .inl rfl
    · rw [List.head?_append_of_ne_nil _ (Decimal.digits_ne_nil _)]
      exact .inr (Decimal.head?_digits_ne_zero hzero)
  · have hvalue : Decimal.value (Decimal.digits d.digits ++
        List.replicate d.exponent.natAbs '0' ++ ['0']) =
        10 ^ (d.exponent.natAbs + 1) * d.digits := by
      rw [List.append_assoc, ← List.replicate_succ', Decimal.value_append,
        Decimal.value_replicate_zero, Decimal.value_digits, List.length_replicate, Nat.add_zero]
    have hexponent : -(['0'].length : Int) + ((d.exponent.natAbs + 1 : Nat) : Int) =
        d.exponent := by
      rw [List.length_singleton]
      omega
    rw [hvalue, Binary64.ofDecimal_mul_pow, hexponent]

/-- All other numbers: the point is between two digits. -/
theorem pointForm_middle {d : Scientific} (hd : d.IsNormal) (hleading : 0 ≤ d.leading)
    (h : d.exponent < 0) :
    d.PointForm ((Decimal.digits d.digits).take (d.leading.natAbs + 1))
      ((Decimal.digits d.digits).drop (d.leading.natAbs + 1)) := by
  have hwidth : d.leading.natAbs + 1 < (Decimal.digits d.digits).length := by
    rw [← length_eq]
    rw [leading] at *
    omega
  have hdigits : d.digits ≠ 0 := fun hzero => absurd (hd hzero) h.ne
  have hfraction : (Decimal.digits d.digits).drop (d.leading.natAbs + 1) ≠ [] := by
    rw [Ne, List.drop_eq_nil_iff]
    omega
  refine ⟨?_, isWhole_take hdigits (Nat.succ_ne_zero _), ?_, fun negative => ?_⟩
  · have hfull : d.leading.natAbs + 1 -
        ((Decimal.digits d.digits).take (d.leading.natAbs + 1)).length = 0 := by
      rw [List.length_take]
      omega
    simp only [positional, if_neg (Int.not_lt.mpr hleading), hfull, List.replicate_zero,
      List.append_nil, List.isEmpty_iff, if_neg hfraction]
  · refine isDigits_of_forall hfraction fun c hc => ?_
    exact Decimal.isDigit_of_mem_digits (List.mem_of_mem_drop hc)
  · have hexponent : (-((Decimal.digits d.digits).drop (d.leading.natAbs + 1)).length : Int) =
        d.exponent := by
      rw [List.length_drop, ← length_eq]
      rw [← length_eq] at hwidth
      rw [leading] at *
      omega
    rw [List.take_append_drop, Decimal.value_digits, hexponent]

theorem exists_pointForm {d : Scientific} (hd : d.IsNormal) :
    ∃ whole fraction, d.PointForm whole fraction := by
  by_cases hleading : d.leading < 0
  · exact ⟨_, _, pointForm_small hleading⟩
  by_cases h : d.exponent < 0
  · exact ⟨_, _, pointForm_middle hd (Int.not_lt.mp hleading) h⟩
  · exact ⟨_, _, pointForm_large hd (Int.not_lt.mp h)⟩

theorem unsignedNumber?_positional {d : Scientific} {negative : Bool} {x : Binary64}
    {rest : List Char} (hd : d.IsNormal)
    (hx : Binary64.ofDecimal negative d.digits d.exponent = x) (hfinite : x.isFinite)
    (hrest : NumberEnds rest) :
    unsignedNumber? .nearest negative (d.positional ++ rest) = some (.real x, rest) := by
  obtain ⟨whole, fraction, htext, hwhole, hfraction, hvalue⟩ := exists_pointForm hd
  rw [htext, List.append_assoc, List.cons_append]
  exact unsignedNumber?_point hwhole hfraction ((hvalue negative).trans hx) hfinite hrest

theorem unsignedNumber?_exponential {d : Scientific} {negative : Bool} {x : Binary64}
    {rest : List Char} (hd : d.digits ≠ 0)
    (hx : Binary64.ofDecimal negative d.digits d.exponent = x) (hfinite : x.isFinite)
    (hrest : NumberEnds rest) :
    unsignedNumber? .nearest negative (d.exponential ++ rest) = some (.real x, rest) := by
  have hexponent : d.leading - (((Decimal.digits d.digits).drop 1).length : Int) = d.exponent := by
    have hpos := d.length_pos
    rw [List.length_drop, ← length_eq, leading]
    omega
  have hvalue : Binary64.ofDecimal negative (Decimal.value ((Decimal.digits d.digits).take 1 ++
      (Decimal.digits d.digits).drop 1))
      (d.leading - ((Decimal.digits d.digits).drop 1).length) = x := by
    rw [List.take_append_drop, Decimal.value_digits, hexponent, hx]
  have hread := unsignedNumber?_exponent (isWhole_take hd Nat.one_ne_zero)
    (fun c hc => Decimal.isDigit_of_mem_digits (List.mem_of_mem_drop hc)) hvalue hfinite hrest
  simpa only [exponential, List.append_assoc, List.cons_append] using hread

end ProjectD.Scientific

namespace ProjectD.Json

/-! ## Values -/

/-- What is read as a number starts like no other value. -/
theorem value?_of_unsigned {rule : RealRule} {depth : Nat} {cs : List Char} {r : Json × List Char}
    (h : unsignedNumber? rule false cs = some r) : value? rule depth cs = some r := by
  unfold value?
  split
  case h_8 => exact h
  all_goals cases h

theorem value?_minus (rule : RealRule) (depth : Nat) (cs : List Char) :
    value? rule depth ('-' :: cs) = unsignedNumber? rule true cs := by
  unfold value?
  rfl

/-- An integer that fits 64 bits, with a sign or without one. -/
def FitsWord (n : Int) : Prop :=
  -(2 ^ 63) ≤ n ∧ n < 2 ^ 64

theorem value?_integer {rule : RealRule} {depth : Nat} {n : Int} {rest : List Char}
    (h : FitsWord n) (hrest : NumberEnds rest) :
    value? rule depth (Decimal.ofInt n ++ rest) = some (.integer n, rest) := by
  obtain ⟨hlow, hhigh⟩ := h
  rw [Decimal.ofInt]
  split
  · next hneg =>
    have hfits : if true then 0 < n.natAbs ∧ 2 * n.natAbs ≤ UInt64.size
        else n.natAbs < UInt64.size := by
      rw [if_pos rfl, UInt64.size]
      omega
    rw [List.cons_append, value?_minus, unsignedNumber?_digits hfits hrest, if_pos rfl,
      Int.ofNat_natAbs_of_nonpos hneg.le, Int.neg_neg]
  · next hpos =>
    have hfits : if false then 0 < n.natAbs ∧ 2 * n.natAbs ≤ UInt64.size
        else n.natAbs < UInt64.size := by
      rw [if_neg Bool.false_ne_true, UInt64.size]
      omega
    rw [value?_of_unsigned (unsignedNumber?_digits hfits hrest), if_neg Bool.false_ne_true,
      Int.natAbs_of_nonneg (Int.not_lt.mp hpos)]

theorem unsignedNumber?_shortest {x : Binary64} {rest : List Char} (h : x.isFinite)
    (hrest : NumberEnds rest) :
    unsignedNumber? .nearest x.isNegative ((if Positional.standard.least ≤ x.shortest.leading ∧
      x.shortest.leading ≤ Positional.standard.greatest then x.shortest.positional
      else x.shortest.exponential) ++ rest) = some (.real x, rest) := by
  have hread := Binary64.ofDecimal_shortest h
  split
  · refine Scientific.unsignedNumber?_positional (fun hzero => ?_) hread h hrest
    rw [Binary64.shortest_eq_zero h hzero]
  · next hform =>
    refine Scientific.unsignedNumber?_exponential (fun hzero => hform ?_) hread h hrest
    rw [Binary64.shortest_eq_zero h hzero]
    decide

theorem value?_real {depth : Nat} {x : Binary64} {rest : List Char} (h : x.isFinite)
    (hrest : NumberEnds rest) : value? .nearest depth (x.text ++ rest) = some (.real x, rest) := by
  have hread := unsignedNumber?_shortest h hrest
  rw [Binary64.text]
  cases hsign : x.isNegative with
  | true =>
    rw [hsign] at hread
    rw [if_pos rfl, List.cons_append, value?_minus, hread]
  | false =>
    rw [hsign] at hread
    rw [if_neg Bool.false_ne_true]
    exact value?_of_unsigned hread

end ProjectD.Json
