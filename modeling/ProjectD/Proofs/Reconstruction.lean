import ProjectD.Proofs.Classification
import ProjectD.Proofs.Simulation

/-! # A text is its lexemes and the gaps between them

When a text has tokens, it is the lexemes of these tokens with gaps before, between and after them,
and every token stands where its lexeme starts. Gaps hold blanks and complete comments only, so no
other character is lost, doubled or moved.
-/

set_option autoImplicit false

namespace ProjectD

open Piece

/-- Blanks and complete comments, one after the other. -/
def Gap (g : List Char) : Prop :=
  ∃ fs : List (List Char), (∀ f ∈ fs, Filler f) ∧ g = fs.flatten

/-- What may follow the last token: a gap, and then a line comment that the text ends. -/
def LastGap (g : List Char) : Prop :=
  ∃ h r, Gap h ∧ (r = [] ∨ OpenLine r) ∧ g = h ++ r

/-- Gaps and lexemes in turn, a gap first. -/
def interleave : List (List Char) → List Token → List Char
  | g :: gaps, t :: tokens => g ++ t.lexeme.toList ++ interleave gaps tokens
  | _, _ => []

/-- The text `cs` that starts at `pos` is laid out as the gaps `gaps` before the tokens and the gap
`last` after them. -/
structure Layout (tabWidth : UInt32) (pos : Position) (cs : List Char) (tokens : List Token)
    (gaps : List (List Char)) (last : List Char) : Prop where
  count : gaps.length = tokens.length
  gap : ∀ g ∈ gaps, Gap g
  lastGap : LastGap last
  text : cs = interleave gaps tokens ++ last
  /-- A token stands where the text before its lexeme ends. -/
  position : ∀ i token g, tokens[i]? = some token → gaps[i]? = some g →
    token.position =
      pos.advanceOver tabWidth (interleave (gaps.take i) (tokens.take i) ++ g)

/-! ## Gaps -/

theorem gap_nil : Gap [] :=
  ⟨[], by simp, rfl⟩

theorem Filler.append_gap {x g : List Char} (hx : Filler x) (hg : Gap g) : Gap (x ++ g) := by
  obtain ⟨fs, hfs, rfl⟩ := hg
  refine ⟨x :: fs, ?_, rfl⟩
  intro f hf
  rcases List.mem_cons.mp hf with rfl | hf
  · exact hx
  · exact hfs f hf

theorem Filler.append_lastGap {x g : List Char} (hx : Filler x) (hg : LastGap g) :
    LastGap (x ++ g) := by
  obtain ⟨h, r, hh, hr, rfl⟩ := hg
  exact ⟨x ++ h, r, hx.append_gap hh, hr, (List.append_assoc ..).symm⟩

/-! ## Layouts -/

namespace Layout

variable {tabWidth : UInt32} {pos : Position} {cs last : List Char} {tokens : List Token}
  {gaps : List (List Char)}

theorem empty (h : LastGap cs) : Layout tabWidth pos cs [] [] cs where
  count := rfl
  gap := by simp
  lastGap := h
  text := rfl
  position := by simp

/-- A blank or comment before a text without tokens belongs to the gap that is the text. -/
theorem filler_last {x : List Char} (hx : Filler x)
    (h : Layout tabWidth (pos.advanceOver tabWidth x) cs tokens [] last) :
    Layout tabWidth pos (x ++ cs) tokens [] (x ++ last) := by
  have htokens : tokens = [] := List.length_eq_zero_iff.mp h.count.symm
  subst htokens
  have htext : cs = last := h.text
  subst htext
  exact empty (hx.append_lastGap h.lastGap)

/-- A blank or comment before a laid out text belongs to its first gap. -/
theorem filler_first {x g : List Char} (hx : Filler x)
    (h : Layout tabWidth (pos.advanceOver tabWidth x) cs tokens (g :: gaps) last) :
    Layout tabWidth pos (x ++ cs) tokens ((x ++ g) :: gaps) last := by
  obtain ⟨token, tokens, rfl⟩ : ∃ t ts, tokens = t :: ts := by
    cases tokens with
    | nil => simpa using h.count
    | cons t ts => exact ⟨t, ts, rfl⟩
  refine ⟨h.count, ?_, h.lastGap, ?_, ?_⟩
  · intro g' hg'
    rcases List.mem_cons.mp hg' with rfl | hg'
    · exact hx.append_gap (h.gap g (List.mem_cons_self ..))
    · exact h.gap g' (List.mem_cons_of_mem g hg')
  · rw [h.text]
    simp only [interleave, List.append_assoc]
  · intro i t g' ht hg'
    cases i with
    | zero =>
      have hp := h.position 0 t g ht rfl
      obtain rfl : x ++ g = g' := Option.some.inj hg'
      simpa [interleave, Position.advanceOver_append] using hp
    | succ i =>
      have hp := h.position (i + 1) t g' ht hg'
      simpa [interleave, Position.advanceOver_append] using hp

/-- A token before a laid out text has an empty gap before it. -/
theorem lexeme {token : Token} (hpos : token.position = pos)
    (h : Layout tabWidth (pos.advanceOver tabWidth token.lexeme.toList) cs tokens gaps last) :
    Layout tabWidth pos (token.lexeme.toList ++ cs) (token :: tokens) ([] :: gaps) last where
  count := congrArg (· + 1) h.count
  gap := by
    intro g hg
    rcases List.mem_cons.mp hg with rfl | hg
    · exact gap_nil
    · exact h.gap g hg
  lastGap := h.lastGap
  text := by
    rw [h.text]
    simp [interleave]
  position := by
    intro i t g ht hg
    cases i with
    | zero =>
      obtain rfl : token = t := Option.some.inj ht
      obtain rfl : [] = g := Option.some.inj hg
      exact hpos
    | succ i =>
      have hp := h.position i t g ht hg
      simpa [interleave, Position.advanceOver_append] using hp

end Layout

/-- What a token is, without its position. -/
def Token.content (t : Token) : String × Kind :=
  (t.lexeme, t.kind)

/-- The tokens of a scan lay out its text. Neither the layout nor what the tokens are depends on the
tab width or on where the text starts. -/
theorem scan_layout_uniform {tabWidth : UInt32} {pos : Position} {cs : List Char}
    {tokens : List Token} (h : scan tabWidth pos cs = .ok tokens) :
    ∃ gaps last, ∀ tabWidth' pos', ∃ tokens', scan tabWidth' pos' cs = .ok tokens' ∧
      Layout tabWidth' pos' cs tokens' gaps last ∧
      tokens'.map Token.content = tokens.map Token.content := by
  induction cs using pieces_induction generalizing pos tokens with
  | nil =>
    obtain rfl : [] = tokens := by simpa using h
    exact ⟨[], [], fun _ _ => ⟨[], scan_nil, .empty ⟨[], [], gap_nil, .inl rfl, rfl⟩, rfl⟩⟩
  | filler x rest hx ih =>
    rw [scan_filler hx] at h
    obtain ⟨gaps, last, hall⟩ := ih h
    cases gaps with
    | nil =>
      refine ⟨[], x ++ last, fun tabWidth' pos' => ?_⟩
      obtain ⟨ts, hs, hl, hc⟩ := hall tabWidth' (pos'.advanceOver tabWidth' x)
      exact ⟨ts, by rw [scan_filler hx, hs], hl.filler_last hx, hc⟩
    | cons g gaps =>
      refine ⟨(x ++ g) :: gaps, last, fun tabWidth' pos' => ?_⟩
      obtain ⟨ts, hs, hl, hc⟩ := hall tabWidth' (pos'.advanceOver tabWidth' x)
      exact ⟨ts, by rw [scan_filler hx, hs], hl.filler_first hx, hc⟩
  | openLine x hx =>
    rw [scan_openLine hx] at h
    obtain rfl : [] = tokens := by simpa using h
    exact ⟨[], x, fun _ _ =>
      ⟨[], scan_openLine hx, .empty ⟨[], x, gap_nil, .inr hx, rfl⟩, rfl⟩⟩
  | lexeme x rest hx ih =>
    obtain ⟨token, ts, hx', hs, rfl⟩ := scan_lexeme_eq_ok hx h
    obtain ⟨gaps, last, hall⟩ := ih hs
    refine ⟨[] :: gaps, last, fun tabWidth' pos' => ?_⟩
    obtain ⟨ts', hs', hl, hc⟩ := hall tabWidth' (pos'.advanceOver tabWidth' x)
    refine ⟨⟨String.ofList x, pos', token.kind⟩ :: ts', ?_, ?_, ?_⟩
    · rw [scan_lexeme_ok hx (classify_elsewhere hx' pos'), hs']
      rfl
    · have hlist : x = (String.ofList x).toList := String.toList_ofList.symm
      rw [hlist] at hl
      have hpos : Token.position ⟨String.ofList x, pos', token.kind⟩ = pos' := rfl
      have hlayout := Layout.lexeme hpos hl
      rwa [← hlist] at hlayout
    · rw [List.map_cons, List.map_cons, hc, Token.content, Token.content, (classify_ok hx').1]
  | fault f cs hf => simp [scan_fault hf] at h

theorem scan_layout {tabWidth : UInt32} {pos : Position} {cs : List Char} {tokens : List Token}
    (h : scan tabWidth pos cs = .ok tokens) :
    ∃ gaps last, Layout tabWidth pos cs tokens gaps last := by
  obtain ⟨gaps, last, hall⟩ := scan_layout_uniform h
  obtain ⟨tokens', hs, hl, -⟩ := hall tabWidth pos
  obtain rfl : tokens' = tokens := Except.ok.inj (hs.symm.trans h)
  exact ⟨gaps, last, hl⟩

/-- A text that has tokens is their lexemes in order, with gaps of blanks and complete comments
before, between and after them, and every token stands where its lexeme starts. -/
theorem tokenize_layout {source : String} {tabWidth : UInt32} {tokens : List Token}
    (h : tokenize source tabWidth = .ok tokens) :
    ∃ gaps last, Layout tabWidth Position.start source.toList tokens gaps last := by
  rw [tokenize_eq_map, Scanner.run_ofString] at h
  exact scan_layout h

/-- The tokens of a text that has comments of both kinds between them. -/
def commentedTokens : List Token :=
  [⟨"a", ⟨1, 1⟩, .identifier "a"⟩, ⟨"+", ⟨1, 2⟩, .operator .plus⟩,
    ⟨"..", ⟨2, 3⟩, .operator .range⟩, ⟨"'b'", ⟨2, 9⟩, .literal (.string "b")⟩]

theorem tokenize_layout_comments :
    tokenize "a+/*\n*/..\t'b' // c" 4 = .ok commentedTokens ∧
      ∃ gaps last, Layout 4 Position.start "a+/*\n*/..\t'b' // c".toList commentedTokens gaps
        last := by
  have h : tokenize "a+/*\n*/..\t'b' // c" 4 = .ok commentedTokens := by decide +kernel
  exact ⟨h, tokenize_layout h⟩

end ProjectD
