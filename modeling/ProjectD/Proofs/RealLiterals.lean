import ProjectD.Proofs.JsonListings
import ProjectD.Proofs.NumeralGrammar
import ProjectD.Proofs.Rounding

/-! # Real literals

A decimal text of any length is read as the number nearest to its exact value, as long as that is
inside the range of the type (`Numeral.parse?_nearest`). From `2 ^ 1024 - 2 ^ 970` on it is not
refused, as an integer that does not fit is, but read as an infinite number, and a JSON listing
shows `null` in its place (`tokenize_overflow`).
-/

set_option autoImplicit false

namespace ProjectD

namespace DecimalText

theorem magnitude_eq (t : DecimalText) :
    t.magnitude = Decimal.value (t.whole ++ t.fraction) / (Nat.pow 10 t.fraction.length : ℕ) := by
  have hpow : (10 : ℚ) ^ t.fraction.length ≠ 0 := pow_ne_zero _ (by norm_num)
  rw [magnitude, Decimal.placeValue_eq, Decimal.placeValue_eq, Decimal.value_append, Nat.pow_eq]
  push_cast
  field_simp

theorem ten_pow_pos (n : ℕ) : 0 < Nat.pow 10 n :=
  Nat.pow_pos (by decide)

theorem nearest_rounded {t : DecimalText} (h : t.magnitude < 2 ^ 1024 - 2 ^ 970) :
    t.rounded.Nearest t.sign.isNegative t.value := by
  rw [magnitude_eq] at h
  rw [value, magnitude_eq]
  exact Binary64.nearest_ofRatio _ (ten_pow_pos _) h

theorem rounded_eq_infinity {t : DecimalText} (h : 2 ^ 1024 - 2 ^ 970 ≤ t.magnitude) :
    t.rounded = .infinity t.sign.isNegative := by
  rw [magnitude_eq] at h
  exact Binary64.ofRatio_eq_infinity _ (ten_pow_pos _) h

end DecimalText

/-- A decimal text below the end of the range is read as the nearest number, and no other number is
nearest. -/
theorem Numeral.parse?_nearest (t : DecimalText) (h : t.magnitude < 2 ^ 1024 - 2 ^ 970) :
    ∃ x, Numeral.parse? t.text = some (.real x) ∧ x.Nearest t.sign.isNegative t.value ∧
      ∀ y : Binary64, y.Nearest t.sign.isNegative t.value → y = x :=
  ⟨t.rounded, parse?_decimalText t, DecimalText.nearest_rounded h, fun _ hy =>
    hy.unique (DecimalText.nearest_rounded h)⟩

/-- `2 ^ 53 + 1`, in the middle between two numbers; the lower one has the even significand. -/
def oddAbove53 : DecimalText where
  sign := .absent
  whole := "9007199254740993".toList
  fraction := ['0']
  isDigitRun_whole := isDigitRun_iff.mpr (by decide)
  isDigitRun_fraction := isDigitRun_iff.mpr (by decide)

theorem Numeral.parse?_nearest_tie :
    oddAbove53.magnitude < 2 ^ 1024 - 2 ^ 970 ∧
      Numeral.parse? oddAbove53.text = some (.real ⟨0x4340000000000000⟩) ∧
      Binary64.Nearest false oddAbove53.value ⟨0x4340000000000000⟩ := by
  have hmagnitude : oddAbove53.magnitude = 9007199254740993 := by
    have hwhole : Decimal.placeValue oddAbove53.whole = 9007199254740993 := by decide +kernel
    have hfraction : Decimal.placeValue oddAbove53.fraction = 0 := by decide
    rw [DecimalText.magnitude, hwhole, hfraction]
    norm_num
  have hbound : oddAbove53.magnitude < 2 ^ 1024 - 2 ^ 970 := by
    have hhigh : (2 ^ 1024 : ℚ) = 2 ^ 54 * 2 ^ 970 := by rw [← pow_add]
    have hlow : (1 : ℚ) ≤ 2 ^ 970 := one_le_pow₀ (by norm_num)
    rw [hmagnitude, hhigh]
    generalize (2 : ℚ) ^ 970 = low at hlow ⊢
    linarith
  have hparse : Numeral.parse? oddAbove53.text = some (.real ⟨0x4340000000000000⟩) := by
    decide +kernel
  obtain ⟨x, hx, hnearest, -⟩ := Numeral.parse?_nearest oddAbove53 hbound
  obtain rfl : ⟨0x4340000000000000⟩ = x := by simpa [hparse] using hx
  exact ⟨hbound, hparse, hnearest⟩

/-! ## Literals beyond the range -/

theorem classify_decimalText (t : DecimalText) (pos : Position) :
    classify (String.ofList t.text) pos =
      .ok ⟨String.ofList t.text, pos, .literal (.real t.rounded)⟩ := by
  have hstarts : StartsLikeNumber (String.ofList t.text).toList := by
    rw [String.toList_ofList]
    exact Numeral.startsLikeNumber_text t.sign t.isDigitRun_whole ('.' :: t.fraction)
  rw [classify_startsLikeNumber hstarts, String.toList_ofList, Numeral.parse?_decimalText]
  rfl

theorem tokenize_decimalText {t : DecimalText} (h : t.sign = .absent) (tabWidth : UInt32) :
    tokenize (String.ofList t.text) tabWidth =
      .ok [⟨String.ofList t.text, ⟨1, 1⟩, .literal (.real t.rounded)⟩] := by
  have hlexeme : LexemeAt t.text [] := by
    rw [DecimalText.text, h]
    obtain ⟨c, cs, hfraction, hall⟩ := t.isDigitRun_fraction.exists_cons
    refine .number (isDigitRun_iff.mp t.isDigitRun_whole) ?_ ?_ rfl
    · rw [hfraction]
      simpa using hall c (List.mem_cons_self ..)
    · rw [hfraction]
      exact fun a ha => Piece.isWordChar_of_isDigit (hall a ha)
  have hscan : Piece.scan tabWidth Position.start (t.text ++ []) = _ :=
    Piece.scan_lexeme_ok hlexeme (classify_decimalText t Position.start)
  rw [List.append_nil] at hscan
  rw [tokenize_eq_map, Scanner.run_ofString, String.toList_ofList, hscan, Piece.scan_nil]
  rfl

theorem exists_decimalText {lexeme : String} {x : Binary64}
    (h : Kind.WrittenAs (.literal (.real x)) lexeme) :
    ∃ t : DecimalText, t.text = lexeme.toList ∧ t.rounded = x := by
  generalize hl : Literal.real x = literal at h
  cases h with
  | real hw hf =>
    refine ⟨⟨.absent, _, _, isDigitRun_iff.mpr hw, isDigitRun_iff.mpr hf⟩, ?_, ?_⟩
    · rw [String.toList_ofList]
      rfl
    · exact (Literal.real.inj hl).symm
  | integer => cases hl
  | string => cases hl
  | empty => cases hl

theorem DecimalText.isFinite_rounded (t : DecimalText) :
    t.rounded.isFinite ↔ t.magnitude < 2 ^ 1024 - 2 ^ 970 := by
  constructor
  · intro hfinite
    by_contra hlarge
    rw [rounded_eq_infinity (not_lt.mp hlarge)] at hfinite
    revert hfinite
    cases t.sign.isNegative <;> decide
  · exact fun h => (nearest_rounded h).isFinite

/-! ## In a JSON listing -/

namespace Json

theorem text_real_eq_null_iff (layout : Layout) (depth : ℕ) (x : Binary64) :
    text layout depth (.real x) = ['n', 'u', 'l', 'l'] ↔ x.isFinite = false := by
  rw [text]
  cases hx : x.isFinite with
  | false => simp
  | true =>
    rw [if_pos rfl]
    refine ⟨fun hnull => ?_, fun h => absurd h (by decide)⟩
    -- What is written for a finite number is read as that number.
    have hread : value? .nearest 0 (x.text ++ []) = some (.real x, []) :=
      value?_real hx NumberEnds.nil
    have hnone : value? .nearest 0 (x.text ++ []) = some (.null, []) := by
      rw [hnull]
      exact value?_null .nearest 0 []
    rw [hread] at hnone
    cases hnone

theorem stringChar_of_isDigit {c : Char} (h : Decimal.isDigit c) : stringChar c = [c] := by
  have hne (d : Char) (hd : Decimal.isDigit d = false) : c ≠ d := by
    rintro rfl
    rw [h] at hd
    cases hd
  have hcode : ¬ c.toNat < 32 := by
    rw [Decimal.isDigit, Bool.and_eq_true, decide_eq_true_eq] at h
    have hle : '0'.toNat ≤ c.toNat := h.1
    exact Nat.not_lt.mpr (Nat.le_trans (by decide) hle)
  rw [stringChar, if_neg (hne _ (by decide)), if_neg (hne _ (by decide)),
    if_neg (hne _ (by decide)), if_neg (hne _ (by decide)), if_neg (hne _ (by decide)),
    if_neg (hne _ (by decide)), if_neg (hne _ (by decide)), if_neg hcode]

end Json

theorem DecimalText.flatMap_stringChar {t : DecimalText} (h : t.sign = .absent) :
    t.text.flatMap Json.stringChar = t.text := by
  have hrun {ds : List Char} (hds : IsDigitRun ds) : ds.flatMap Json.stringChar = ds := by
    obtain ⟨c, cs, rfl, hall⟩ := hds.exists_cons
    rw [List.flatMap_congr fun a ha => Json.stringChar_of_isDigit (hall a ha)]
    exact List.flatMap_singleton' _
  rw [text, h, List.flatMap_append, List.flatMap_append, List.flatMap_cons,
    hrun t.isDigitRun_whole, hrun t.isDigitRun_fraction]
  rfl

theorem render_infinity {t : DecimalText} (h : t.sign = .absent) :
    OutputFormat.json.render false
        [⟨String.ofList t.text, ⟨1, 1⟩, .literal (.real (.infinity false))⟩] =
      "[\x7b\"lexeme\":\"" ++ String.ofList t.text ++ "\",\"line\":1,\"column\":1," ++
        "\"kind\":\x7b\"Literal\":\x7b\"Real\":null\x7d\x7d\x7d]" := by
  have hlexeme := DecimalText.flatMap_stringChar h
  have hone : Decimal.ofInt 1 = ['1'] := by decide
  have hnull : (Binary64.infinity false).isFinite = false := by decide
  rw [OutputFormat.render, renderJson, Json.render]
  apply String.toList_inj.mp
  rw [String.toList_ofList]
  simp [Json.text, Json.itemsText, Json.membersText, Json.memberText, Token.toJson, Kind.toJson,
    Literal.toJson, Json.stringText, Json.stringChar, Json.Layout.lineBreak, Json.Layout.colon,
    Json.Layout.closing, hlexeme, hone, hnull]

/-- Decimal texts beyond the range are read as infinite numbers, and listed as `null`. Every real
literal of a scan is a decimal text, and it is infinite, and written as `null`, exactly when it is
beyond the range. -/
theorem tokenize_overflow (t : DecimalText) (source : String) (tabWidth : UInt32) :
    (2 ^ 1024 - 2 ^ 970 ≤ t.magnitude →
      Numeral.parse? t.text = some (.real (.infinity t.sign.isNegative)) ∧
      (∀ pos, classify (String.ofList t.text) pos =
        .ok ⟨String.ofList t.text, pos, .literal (.real (.infinity t.sign.isNegative))⟩) ∧
      (t.sign = .absent →
        tokenize (String.ofList t.text) tabWidth =
          .ok [⟨String.ofList t.text, ⟨1, 1⟩, .literal (.real (.infinity false))⟩] ∧
        OutputFormat.json.render false
            [⟨String.ofList t.text, ⟨1, 1⟩, .literal (.real (.infinity false))⟩] =
          "[\x7b\"lexeme\":\"" ++ String.ofList t.text ++ "\",\"line\":1,\"column\":1," ++
            "\"kind\":\x7b\"Literal\":\x7b\"Real\":null\x7d\x7d\x7d]")) ∧
    ∀ tokens, tokenize source tabWidth = .ok tokens → ∀ token ∈ tokens, ∀ x,
      token.kind = .literal (.real x) → ∃ u : DecimalText, u.text = token.lexeme.toList ∧
        (x.isFinite = false ↔ 2 ^ 1024 - 2 ^ 970 ≤ u.magnitude) ∧
        ∀ layout depth, Json.text layout depth (.real x) = ['n', 'u', 'l', 'l'] ↔
          2 ^ 1024 - 2 ^ 970 ≤ u.magnitude := by
  constructor
  · intro h
    have hrounded := DecimalText.rounded_eq_infinity h
    refine ⟨?_, fun pos => ?_, fun hsign => ⟨?_, render_infinity hsign⟩⟩
    · rw [Numeral.parse?_decimalText, hrounded]
    · rw [classify_decimalText, hrounded]
    · rw [tokenize_decimalText hsign, hrounded, hsign]
      rfl
  · intro tokens hok token hmem x hkind
    have hwritten := writtenAs_of_tokenize hok token hmem
    rw [hkind] at hwritten
    obtain ⟨u, htext, rfl⟩ := exists_decimalText hwritten
    have hinfinite : u.rounded.isFinite = false ↔ 2 ^ 1024 - 2 ^ 970 ≤ u.magnitude := by
      rw [← Bool.not_eq_true, u.isFinite_rounded, not_lt]
    refine ⟨u, htext, hinfinite, fun layout depth => ?_⟩
    rw [Json.text_real_eq_null_iff, hinfinite]

/-- A one and 309 zeros. -/
def tenTo309 : DecimalText where
  sign := .absent
  whole := '1' :: List.replicate 309 '0'
  fraction := ['0']
  isDigitRun_whole := isDigitRun_iff.mpr (by decide +kernel)
  isDigitRun_fraction := isDigitRun_iff.mpr (by decide)

theorem tokenize_overflow_accepted :
    2 ^ 1024 - 2 ^ 970 ≤ tenTo309.magnitude ∧
      Numeral.parse? tenTo309.text = some (.real ⟨0x7ff0000000000000⟩) ∧
      classify (String.ofList tenTo309.text) ⟨1, 1⟩ =
        .ok ⟨String.ofList tenTo309.text, ⟨1, 1⟩, .literal (.real ⟨0x7ff0000000000000⟩)⟩ ∧
      tokenize (String.ofList tenTo309.text) 4 =
        .ok [⟨String.ofList tenTo309.text, ⟨1, 1⟩, .literal (.real ⟨0x7ff0000000000000⟩)⟩] ∧
      Json.text .compact 0 (.real ⟨0x7ff0000000000000⟩) = ['n', 'u', 'l', 'l'] := by
  have hmagnitude : tenTo309.magnitude = 10 ^ 309 := by
    have hwhole : Decimal.placeValue tenTo309.whole = 10 ^ 309 := by
      rw [tenTo309, Decimal.placeValue, Decimal.placeValue_eq, Decimal.value_replicate_zero,
        List.length_replicate]
      exact Nat.one_mul _
    have hfraction : Decimal.placeValue tenTo309.fraction = 0 := by decide
    rw [DecimalText.magnitude, hwhole, hfraction]
    simp
  have hbound : 2 ^ 1024 - 2 ^ 970 ≤ tenTo309.magnitude := by
    have hle : ((2 ^ 1024 : ℕ) : ℚ) ≤ ((10 ^ 309 : ℕ) : ℚ) := Nat.cast_le.mpr (by decide +kernel)
    have hlow : (0 : ℚ) ≤ 2 ^ 970 := pow_nonneg (by norm_num) _
    rw [Nat.cast_pow, Nat.cast_pow, Nat.cast_ofNat, Nat.cast_ofNat] at hle
    rw [hmagnitude]
    exact (sub_le_self _ hlow).trans hle
  have hrounded : tenTo309.rounded = ⟨0x7ff0000000000000⟩ :=
    DecimalText.rounded_eq_infinity hbound
  refine ⟨hbound, ?_, ?_, ?_, by decide⟩
  · rw [Numeral.parse?_decimalText, hrounded]
  · rw [classify_decimalText, hrounded]
  · rw [tokenize_decimalText rfl, hrounded]

end ProjectD
