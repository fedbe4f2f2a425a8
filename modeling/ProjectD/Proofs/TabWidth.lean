import ProjectD.Proofs.FirstError
import ProjectD.Proofs.Reconstruction

/-! # Tab widths

A tab width has a say in columns only. Two scans of one text with the tab widths `w₁ ≤ w₂` find the
same at the same offsets; their positions are those after the same text, measured twice. So one step
of `Position.advance` has to keep what is said of such a pair (`Position.Widened.advance`), and
passing over a text keeps it then (`Position.widened_advanceOver`).
-/

set_option autoImplicit false

namespace ProjectD

namespace Position

/-- Two positions after the text `before`, of which the second one may lie further right if a tab
stands before it on its line. -/
structure Widened (before : List Char) (p q : Position) : Prop where
  line : p.line = q.line
  column : p.column ≤ q.column
  column_eq : '\t' ∉ lastLine before → p.column = q.column

theorem satAdd_le_satAdd {a b c d : UInt32} (hab : a ≤ b) (hcd : c ≤ d) :
    satAdd a c ≤ satAdd b d := by
  rw [UInt32.le_iff_toNat_le] at hab hcd ⊢
  rw [toNat_satAdd, toNat_satAdd]
  omega

theorem Widened.advance {w₁ w₂ : UInt32} (hw : w₁ ≤ w₂) {before : List Char} {p q : Position}
    (h : Widened before p q) (c : Char) :
    Widened (before ++ [c]) (p.advance w₁ c) (q.advance w₂ c) := by
  by_cases hnewline : c = '\n'
  · subst hnewline
    exact ⟨congrArg (satAdd · 1) h.line, UInt32.le_refl 1, fun _ => rfl⟩
  have hlast := lastLine_concat hnewline before
  by_cases htab : c = '\t'
  · subst htab
    refine ⟨h.line, satAdd_le_satAdd h.column hw, ?_⟩
    rw [hlast]
    simp
  · simp only [Position.advance, if_neg hnewline, if_neg htab]
    refine ⟨h.line, satAdd_le_satAdd h.column (UInt32.le_refl 1), ?_⟩
    rw [hlast]
    intro hmem
    have heq := h.column_eq fun hin => hmem (List.mem_append_left [c] hin)
    exact congrArg (satAdd · 1) heq

theorem widened_advanceOver {w₁ w₂ : UInt32} (hw : w₁ ≤ w₂) (p : Position) (before : List Char) :
    Widened before (p.advanceOver w₁ before) (p.advanceOver w₂ before) := by
  induction before using List.reverseRecOn with
  | nil => exact ⟨rfl, UInt32.le_refl _, fun _ => rfl⟩
  | append_singleton before c ih =>
    rw [advanceOver_append, advanceOver_append]
    exact ih.advance hw c

end Position

open Piece

theorem interleave_of_content {tokens tokens' : List Token}
    (h : tokens'.map Token.content = tokens.map Token.content) (gaps : List (List Char)) :
    interleave gaps tokens' = interleave gaps tokens := by
  induction tokens generalizing tokens' gaps with
  | nil =>
    obtain rfl : tokens' = [] := by simpa using h
    rfl
  | cons t tokens ih =>
    cases tokens' with
    | nil => simp at h
    | cons t' tokens' =>
      rw [List.map_cons, List.map_cons, List.cons.injEq] at h
      have hlexeme : t'.lexeme = t.lexeme := congrArg Prod.fst h.1
      cases gaps with
      | nil => rfl
      | cons g gaps => rw [interleave, interleave, hlexeme, ih h.2]

/-- Tokens of the same content in the same layout stand in the same places, up to the tab width. -/
theorem Layout.widened {w₁ w₂ : UInt32} (hw : w₁ ≤ w₂) {pos : Position} {cs last : List Char}
    {ts₁ ts₂ : List Token} {gaps : List (List Char)} (h₁ : Layout w₁ pos cs ts₁ gaps last)
    (h₂ : Layout w₂ pos cs ts₂ gaps last) (h : ts₂.map Token.content = ts₁.map Token.content)
    {i : Nat} {t₁ t₂ : Token} {g : List Char} (ht₁ : ts₁[i]? = some t₁) (ht₂ : ts₂[i]? = some t₂)
    (hg : gaps[i]? = some g) :
    Position.Widened (interleave (gaps.take i) (ts₁.take i) ++ g) t₁.position t₂.position := by
  have htake : (ts₂.take i).map Token.content = (ts₁.take i).map Token.content := by
    rw [List.map_take, h, ← List.map_take]
  rw [h₁.position i t₁ g ht₁ hg, h₂.position i t₂ g ht₂ hg, interleave_of_content htake]
  exact Position.widened_advanceOver hw pos _

/-- The tab width influences columns only. The two runs have tokens of the same content in the same
layout, or the same error after the same text, where it stands by either width. -/
theorem tokenize_tabWidth (source : String) {w₁ w₂ : UInt32} (hw : w₁ ≤ w₂) :
    (∃ ts₁ ts₂ gaps last, tokenize source w₁ = .ok ts₁ ∧ tokenize source w₂ = .ok ts₂ ∧
      Layout w₁ Position.start source.toList ts₁ gaps last ∧
      Layout w₂ Position.start source.toList ts₂ gaps last ∧ ts₁.length = ts₂.length ∧
      ∀ i t₁ t₂ g, ts₁[i]? = some t₁ → ts₂[i]? = some t₂ → gaps[i]? = some g →
        t₁.lexeme = t₂.lexeme ∧ t₁.kind = t₂.kind ∧
        Position.Widened (interleave (gaps.take i) (ts₁.take i) ++ g) t₁.position t₂.position) ∨
    ∃ e₁ e₂ before rest, tokenize source w₁ = .error e₁ ∧ tokenize source w₂ = .error e₂ ∧
      source.toList = before ++ rest ∧ (∃ ts, tokenize (String.ofList before) w₁ = .ok ts) ∧
      e₁.StartsAt rest ∧ e₂ = e₁.moved (fun _ => e₂.position) ∧
      e₁.position = Position.start.advanceOver w₁ before ∧
      e₂.position = Position.start.advanceOver w₂ before ∧
      Position.Widened before e₁.position e₂.position := by
  simp only [tokenize_eq_map, Scanner.run_ofString, String.toList_ofList]
  cases h : scan w₁ Position.start source.toList with
  | ok ts =>
    left
    obtain ⟨gaps, last, hall⟩ := scan_layout_uniform h
    obtain ⟨ts₁, hs₁, hl₁, hc₁⟩ := hall w₁ Position.start
    obtain ⟨ts₂, hs₂, hl₂, hc₂⟩ := hall w₂ Position.start
    obtain rfl : ts₁ = ts := Except.ok.inj (hs₁.symm.trans h)
    refine ⟨ts₁, ts₂, gaps, last, rfl, hs₂, hl₁, hl₂, hl₁.count.symm.trans hl₂.count, ?_⟩
    intro i t₁ t₂ g ht₁ ht₂ hg
    have hcontent : t₂.content = t₁.content := by
      have hi := congrArg (·[i]?) hc₂
      simpa [ht₁, ht₂] using hi
    exact ⟨(congrArg Prod.fst hcontent).symm, (congrArg Prod.snd hcontent).symm,
      hl₁.widened hw hl₂ hc₂ ht₁ ht₂ hg⟩
  | error e =>
    right
    obtain ⟨before, rest, hsource, hstart, hbefore, hall, -⟩ := scan_error_uniform h
    have hpos := LexError.position_of_moved
      (Except.error.inj (h.symm.trans (hall w₁ Position.start)))
    refine ⟨e, _, before, rest, rfl, hall w₂ Position.start, hsource, hbefore _ _, hstart, ?_,
      hpos, LexError.position_moved .., ?_⟩
    · rw [LexError.position_moved]
    · rw [LexError.position_moved, hpos]
      exact Position.widened_advanceOver hw Position.start before

/-- The tokens of a text with a tab in its first line, where the tab moves two of them. -/
def tabbedTokens (column newline : UInt32) : List Token :=
  [⟨"a", ⟨1, 1⟩, .identifier "a"⟩, ⟨"b", ⟨1, column⟩, .identifier "b"⟩,
    ⟨"\n", ⟨1, newline⟩, .separator .newline⟩, ⟨"c", ⟨2, 1⟩, .identifier "c"⟩]

/-- The second text has its tab on another line than its error. -/
theorem tokenize_tabWidth_extremes :
    (0 : UInt32) ≤ 4294967295 ∧ tokenize "a\tb\nc" 0 = .ok (tabbedTokens 2 3) ∧
      tokenize "a\tb\nc" 4294967295 = .ok (tabbedTokens 4294967295 4294967295) ∧
      (∃ gaps last, Layout 0 Position.start "a\tb\nc".toList (tabbedTokens 2 3) gaps last ∧
        Layout 4294967295 Position.start "a\tb\nc".toList (tabbedTokens 4294967295 4294967295)
          gaps last) ∧
      ∃ e before rest, tokenize "// \t#\n#" 0 = .error e ∧
        tokenize "// \t#\n#" 4294967295 = .error e ∧ e.position = ⟨2, 1⟩ ∧
        "// \t#\n#".toList = before ++ rest ∧
        e.position = Position.start.advanceOver 0 before ∧
        e.position = Position.start.advanceOver 4294967295 before := by
  have hw : (0 : UInt32) ≤ 4294967295 := by decide
  have hzero : tokenize "a\tb\nc" 0 = .ok (tabbedTokens 2 3) := by decide +kernel
  have hmax : tokenize "a\tb\nc" 4294967295 = .ok (tabbedTokens 4294967295 4294967295) := by
    decide +kernel
  have hstray : ∀ w : UInt32, w = 0 ∨ w = 4294967295 →
      tokenize "// \t#\n#" w = .error (.unrecognizedCharacter ⟨2, 1⟩ '#') := by
    rintro w (rfl | rfl) <;> decide +kernel
  refine ⟨hw, hzero, hmax, ?_, ?_⟩
  · obtain ⟨ts₁, ts₂, gaps, last, h₁, h₂, hl₁, hl₂, -⟩ | ⟨e₁, -, -, -, h₁, -⟩ :=
      tokenize_tabWidth "a\tb\nc" hw
    · obtain rfl := Except.ok.inj (hzero.symm.trans h₁)
      obtain rfl := Except.ok.inj (hmax.symm.trans h₂)
      exact ⟨gaps, last, hl₁, hl₂⟩
    · simp [hzero] at h₁
  · obtain ⟨ts₁, -, -, -, h₁, -⟩ | ⟨e₁, e₂, before, rest, h₁, h₂, hsplit, -, -, -, hp₁, hp₂, -⟩ :=
      tokenize_tabWidth "// \t#\n#" hw
    · simp [hstray 0 (.inl rfl)] at h₁
    · obtain rfl := Except.error.inj ((hstray 0 (.inl rfl)).symm.trans h₁)
      obtain rfl := Except.error.inj ((hstray 4294967295 (.inr rfl)).symm.trans h₂)
      exact ⟨_, before, rest, h₁, h₂, rfl, hsplit, hp₁, hp₂⟩

end ProjectD
