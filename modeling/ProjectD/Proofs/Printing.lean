import ProjectD.Proofs.Neighbours
import ProjectD.Proofs.Reconstruction
import ProjectD.Proofs.Vocabulary

/-! # Printing lexemes and scanning them again

Lexemes are printed with blanks before, between and after them, and scanned again. The scan finds
exactly the printed lexemes if and only if blanks stand wherever two neighbours would grow together
(`Divided`). Between the two stands `Standing`: every lexeme is found whole before the printed text
that follows it.

* `scan_of_standing` and `standing_of_scan`: the scan finds the lexemes exactly when they stand.
* `Divided.standing` and `Standing.divided`: they stand exactly when they are divided.
-/

set_option autoImplicit false

namespace ProjectD

open Piece

/-- Blanks that divide lexemes and are no tokens. -/
structure Blanks where
  chars : List Char
  silent : ∀ c ∈ chars, isSilent c

/-- A lexeme and the blanks before it. -/
structure Printed where
  gap : Blanks
  lexeme : List Char
  isLexeme : IsLexeme lexeme

/-- The printed text, with blanks after the last lexeme. -/
def printed : List Printed → Blanks → List Char
  | [], last => last.chars
  | i :: items, last => i.gap.chars ++ (i.lexeme ++ printed items last)

/-- Blanks stand where neighbours would grow together: between two words or numbers, between two
symbol operators, between a period and one or two periods, and around a period that would make the
digits before it and after it one number. -/
structure Divided (items : List Printed) : Prop where
  words : ∀ a b, [a, b] <:+: items → a.lexeme.head?.any isWordChar → b.lexeme.head?.any isWordChar →
    b.gap.chars ≠ []
  operators : ∀ a b, [a, b] <:+: items → IsSymbolOperator a.lexeme → IsSymbolOperator b.lexeme →
    b.gap.chars ≠ []
  periods : ∀ a b, [a, b] <:+: items → a.lexeme = ['.'] →
    b.lexeme = ['.'] ∨ b.lexeme = ['.', '.'] → b.gap.chars ≠ []
  fractions : ∀ a b c, [a, b, c] <:+: items → Decimal.isDigits a.lexeme → b.lexeme = ['.'] →
    c.lexeme.head?.any Decimal.isDigit → b.gap.chars ≠ [] ∨ c.gap.chars ≠ []

/-- Every lexeme is found whole before the printed text that follows it. -/
def Standing : List Printed → Blanks → Prop
  | [], _ => True
  | i :: items, last => LexemeAt i.lexeme (printed items last) ∧ Standing items last

/-! ## Scanning a printed text -/

theorem scan_blanks (w : UInt32) (pos : Position) {g : List Char} (hg : ∀ c ∈ g, isSilent c)
    (cs : List Char) : scan w pos (g ++ cs) = scan w (pos.advanceOver w g) cs := by
  induction g generalizing pos with
  | nil => rfl
  | cons c g ih =>
    have hc : Filler [c] := .blank (hg c (List.mem_cons_self ..))
    have hrest := ih (pos.advanceOver w [c]) fun d hd => hg d (List.mem_cons_of_mem c hd)
    rw [List.cons_append, ← List.singleton_append, scan_filler hc, hrest]
    rfl

theorem scan_of_standing {items : List Printed} {last : Blanks} (h : Standing items last)
    (w : UInt32) (pos : Position) :
    ∃ tokens, scan w pos (printed items last) = .ok tokens ∧
      tokens.map (·.lexeme.toList) = items.map (·.lexeme) := by
  induction items generalizing pos with
  | nil =>
    refine ⟨[], ?_, rfl⟩
    rw [printed, ← List.append_nil last.chars, scan_blanks w pos last.silent, scan_nil]
  | cons i items ih =>
    obtain ⟨hi, hitems⟩ := h
    obtain ⟨kind, hk⟩ := i.isLexeme.classify_ok
    obtain ⟨tokens, hs, hl⟩ := ih hitems ((pos.advanceOver w i.gap.chars).advanceOver w i.lexeme)
    refine ⟨⟨String.ofList i.lexeme, pos.advanceOver w i.gap.chars, kind⟩ :: tokens, ?_, ?_⟩
    · rw [printed, scan_blanks w pos i.gap.silent, scan_lexeme_ok hi (hk _), hs]
      rfl
    · simp [hl]

/-! ## Reading the scan back

A comment that the scanner sees in a printed text would take slashes away from the lexemes, so there
is none when all lexemes are found. -/

theorem lexemes_sublist_interleave {gaps : List (List Char)} {tokens : List Token}
    (h : gaps.length = tokens.length) :
    (tokens.map (·.lexeme.toList)).flatten.Sublist (interleave gaps tokens) := by
  induction tokens generalizing gaps with
  | nil => simp
  | cons t tokens ih =>
    cases gaps with
    | nil => simp at h
    | cons g gaps =>
      have htail := ih (by simpa using h)
      rw [List.map_cons, List.flatten_cons, interleave, List.append_assoc]
      exact ((List.Sublist.refl _).append htail).trans (List.sublist_append_right g _)

theorem lexemes_sublist {w : UInt32} {pos : Position} {cs : List Char} {tokens : List Token}
    (h : scan w pos cs = .ok tokens) : (tokens.map (·.lexeme.toList)).flatten.Sublist cs := by
  obtain ⟨gaps, last, hl⟩ := scan_layout h
  rw [hl.text]
  exact (lexemes_sublist_interleave hl.count).trans (List.sublist_append_left _ last)

theorem count_slash_printed (items : List Printed) (last : Blanks) :
    (printed items last).count '/' = (items.map (·.lexeme)).flatten.count '/' := by
  have hblank : ∀ g : Blanks, g.chars.count '/' = 0 := by
    intro g
    rw [List.count_eq_zero]
    exact fun hmem => absurd (g.silent '/' hmem) (by decide)
  induction items with
  | nil => exact hblank last
  | cons i items ih =>
    rw [printed, List.count_append, List.count_append, hblank, ih, List.map_cons,
      List.flatten_cons, List.count_append]
    omega

theorem Filler.blank_or_slash {x : List Char} (h : Filler x) :
    (∃ c, x = [c] ∧ isSilent c) ∨ '/' ∈ x := by
  cases h with
  | blank hc => exact .inl ⟨_, rfl, hc⟩
  | line => exact .inr (by simp)
  | block => exact .inr (by simp)

/-- What the scanner takes for a comment holds slashes that the lexemes of the text need. -/
theorem no_comment_of_scan {i : Printed} {items : List Printed} {last : Blanks} {x rest : List Char}
    {w : UInt32} {pos : Position} {tokens : List Token}
    (htext : i.lexeme ++ printed items last = x ++ rest) (h : scan w pos rest = .ok tokens)
    (hl : tokens.map (·.lexeme.toList) = (i :: items).map (·.lexeme)) : '/' ∉ x := by
  intro hmem
  have hx : 0 < x.count '/' := List.count_pos_iff.mpr hmem
  have hle := (lexemes_sublist h).count_le '/'
  have hcount := congrArg (List.count '/') htext
  rw [hl, List.map_cons, List.flatten_cons, List.count_append] at hle
  rw [List.count_append, List.count_append, count_slash_printed] at hcount
  omega

theorem standing_of_scan {items : List Printed} {last : Blanks} {w : UInt32} {pos : Position}
    {tokens : List Token} (h : scan w pos (printed items last) = .ok tokens)
    (hl : tokens.map (·.lexeme.toList) = items.map (·.lexeme)) : Standing items last := by
  induction items generalizing pos tokens with
  | nil => trivial
  | cons i items ih =>
    rw [printed, scan_blanks w pos i.gap.silent] at h
    generalize pos.advanceOver w i.gap.chars = pos at h
    obtain ⟨c, cs, hc, hsilent, -, -⟩ := i.isLexeme.head
    have hcons : i.lexeme ++ printed items last = c :: (cs ++ printed items last) := by rw [hc]; rfl
    rcases head_shape c (cs ++ printed items last) with
      ⟨tail, rest, heq, hx⟩ | hx | ⟨tail, rest, heq, hx⟩ | ⟨f, hf⟩
    · rw [heq, ← List.cons_append] at hcons
      rw [hcons, scan_filler hx] at h
      rcases hx.blank_or_slash with ⟨d, hd, hdsilent⟩ | hslash
      · rw [← (List.cons.inj hd).1, hsilent] at hdsilent
        exact absurd hdsilent (by decide)
      · exact absurd hslash (no_comment_of_scan hcons h hl)
    · rw [hcons, scan_openLine hx] at h
      obtain rfl : [] = tokens := Except.ok.inj h
      simp at hl
    · rw [heq, ← List.cons_append] at hcons
      rw [hcons] at h
      obtain ⟨token, ts, hclass, hs, rfl⟩ := scan_lexeme_eq_ok hx h
      rw [List.map_cons, List.map_cons, List.cons.injEq, (classify_ok hclass).1,
        String.toList_ofList] at hl
      rw [hl.1] at hcons hx hs
      obtain rfl : printed items last = rest := List.append_cancel_left hcons
      exact ⟨hx, ih hs hl.2⟩
    · simp [hcons, scan_fault hf] at h

/-! ## Standing and divided -/

theorem head?_printed {items : List Printed} {last : Blanks} {c : Char}
    (h : (printed items last).head? = some c) (hc : isSilent c = false) :
    ∃ b more, items = b :: more ∧ b.gap.chars = [] ∧ b.lexeme.head? = some c := by
  have hblank : ∀ (g : Blanks) cs, (g.chars ++ cs).head? = some c → g.chars = [] := by
    intro g cs hhead
    have hg := g.silent
    cases hl : g.chars with
    | nil => rfl
    | cons d ds =>
      rw [hl] at hhead hg
      obtain rfl : d = c := Option.some.inj hhead
      have hd := hg d (List.mem_cons_self ..)
      rw [hc] at hd
      exact absurd hd (by decide)
  cases items with
  | nil =>
    have hnil := hblank last [] (by rw [List.append_nil]; exact h)
    rw [printed, hnil] at h
    simp at h
  | cons b more =>
    have hnil := hblank b.gap _ h
    obtain ⟨d, ds, hd, -⟩ := b.isLexeme.head
    refine ⟨b, more, rfl, hnil, ?_⟩
    rw [printed, hnil, List.nil_append, hd] at h
    rw [hd]
    exact h

theorem printed_of_gap_nil {b : Printed} (h : b.gap.chars = []) (more : List Printed)
    (last : Blanks) : printed (b :: more) last = b.lexeme ++ printed more last := by
  rw [printed, h, List.nil_append]

theorem Divided.tail {a : Printed} {items : List Printed} (h : Divided (a :: items)) :
    Divided items where
  words := fun b c hbc => h.words b c (hbc.trans (List.suffix_cons a items).isInfix)
  operators := fun b c hbc => h.operators b c (hbc.trans (List.suffix_cons a items).isInfix)
  periods := fun b c hbc => h.periods b c (hbc.trans (List.suffix_cons a items).isInfix)
  fractions := fun b c d hbcd => h.fractions b c d (hbcd.trans (List.suffix_cons a items).isInfix)

theorem IsLexeme.eq_periods {x : List Char} (h : IsLexeme x) (hx : x.head? = some '.') :
    x = ['.'] ∨ x = ['.', '.'] := by
  obtain ⟨c, cs, rfl, -, -, hp⟩ := h.head
  exact hp (Option.some.inj hx)

theorem Divided.not_opensFraction {a : Printed} {items : List Printed} (h : Divided (a :: items))
    (last : Blanks) (ha : Decimal.isDigits a.lexeme) :
    opensFraction (printed items last) = false := by
  rw [← Bool.not_eq_true]
  intro ho
  cases hp : printed items last with
  | nil => simp [hp, opensFraction] at ho
  | cons c cs =>
    rw [hp, opensFraction_iff] at ho
    obtain ⟨rfl, hdigit⟩ := ho
    obtain ⟨b, more, rfl, hgap, hhead⟩ := head?_printed (by rw [hp]; rfl) (by decide)
    rw [printed_of_gap_nil hgap] at hp
    rcases b.isLexeme.eq_periods hhead with hb | hb
    · -- A lone period: the digit after it starts the lexeme that follows.
      rw [hb] at hp
      obtain rfl : printed more last = cs := (List.cons.inj hp).2
      obtain ⟨d, hd, hdigit⟩ := (Option.any_eq_true _ _).mp hdigit
      have hsilent := (apart_of_isWordChar (isWordChar_of_isDigit hdigit)).1
      obtain ⟨c, more', rfl, hgap', hhead'⟩ := head?_printed hd hsilent
      have hc : c.lexeme.head?.any Decimal.isDigit := by rwa [hhead']
      rcases h.fractions a b c ⟨[], more', rfl⟩ ha hb hc with hne | hne
      · exact hne hgap
      · exact hne hgap'
    · rw [hb] at hp
      obtain rfl : '.' :: printed more last = cs := (List.cons.inj hp).2
      have hperiod : Decimal.isDigit '.' := hdigit
      exact absurd hperiod (by decide)

/-- Divided neighbours do not continue the first lexeme. -/
theorem Divided.lexemeAt {a : Printed} {items : List Printed} (h : Divided (a :: items))
    (last : Blanks) : LexemeAt a.lexeme (printed items last) := by
  have next : ∀ c, (printed items last).head? = some c → isSilent c = false →
      ∃ b, [a, b] <:+: a :: items ∧ b.gap.chars = [] ∧ b.lexeme.head? = some c := by
    intro c hc hsilent
    obtain ⟨b, more, rfl, hgap, hhead⟩ := head?_printed hc hsilent
    exact ⟨b, ⟨[], more, rfl⟩, hgap, hhead⟩
  have stops : ∀ f : Char → Bool, (∀ c, (printed items last).head? = some c → ¬ f c) →
      (printed items last).head?.any f = false := by
    intro f hf
    cases hhead : (printed items last).head? with
    | none => rfl
    | some c => simpa using hf c hhead
  apply a.isLexeme.lexemeAt
  · intro hword
    refine stops isWordChar fun c hhead hc => ?_
    obtain ⟨b, hab, hgap, hb⟩ := next c hhead (apart_of_isWordChar hc).1
    exact h.words a b hab hword (by rwa [hb]) hgap
  · exact h.not_opensFraction last
  · intro hsymbol
    refine stops isOperatorChar fun c hhead hc => ?_
    obtain ⟨b, hab, hgap, hb⟩ := next c hhead (apart_of_isOperatorChar hc).1
    obtain ⟨d, ds, hd, -, hop, -⟩ := b.isLexeme.head
    rw [hd] at hb
    obtain rfl : d = c := Option.some.inj hb
    exact h.operators a b hab hsymbol (hop hc) hgap
  · intro hperiod hhead
    obtain ⟨b, hab, hgap, hb⟩ := next '.' hhead (by decide)
    exact h.periods a b hab hperiod (b.isLexeme.eq_periods hb) hgap

theorem Divided.standing {items : List Printed} (h : Divided items) (last : Blanks) :
    Standing items last := by
  induction items with
  | nil => trivial
  | cons a items ih => exact ⟨h.lexemeAt last, ih h.tail⟩

section FirstNeighbours

variable {a b : Printed} {more : List Printed} {last : Blanks}
  (ha : LexemeAt a.lexeme (printed (b :: more) last))

include ha

theorem gap_of_words (hword : a.lexeme.head?.any isWordChar)
    (hb : b.lexeme.head?.any isWordChar) : b.gap.chars ≠ [] := by
  intro hgap
  rw [printed_of_gap_nil hgap] at ha
  obtain ⟨c, cs, hc, -⟩ := b.isLexeme.head
  have hstop := (ha.of_word hword).1
  rw [hc] at hb hstop
  exact absurd (hstop.symm.trans hb) (by decide)

theorem gap_of_operators (hnext : LexemeAt b.lexeme (printed more last))
    (hsymbol : IsSymbolOperator a.lexeme) (hb : IsSymbolOperator b.lexeme) :
    b.gap.chars ≠ [] := by
  intro hgap
  rw [printed_of_gap_nil hgap] at ha
  have hrun := operatorRun_rest (ha.of_symbols hsymbol.head)
  -- A comment would end the run too, but a lexeme stands there.
  have hcomment := hnext.opensComment_eq_false
  have hhead := hb.head
  obtain ⟨c, cs, hc, -⟩ := b.isLexeme.head
  rw [hc, List.cons_append] at hrun hcomment
  rw [hc] at hhead
  have hop : isOperatorChar c := hhead
  simp [operatorRun, hop, hcomment] at hrun

theorem gap_of_periods (hperiod : a.lexeme = ['.'])
    (hb : b.lexeme = ['.'] ∨ b.lexeme = ['.', '.']) : b.gap.chars ≠ [] := by
  intro hgap
  rw [printed_of_gap_nil hgap, hperiod] at ha
  have hne := ha.of_period
  rcases hb with hb | hb <;> simp [hb] at hne

end FirstNeighbours

theorem gap_of_fraction {a b c : Printed} {more : List Printed} {last : Blanks}
    (ha : LexemeAt a.lexeme (printed (b :: c :: more) last))
    (hdigits : Decimal.isDigits a.lexeme) (hb : b.lexeme = ['.'])
    (hc : c.lexeme.head?.any Decimal.isDigit) : b.gap.chars ≠ [] ∨ c.gap.chars ≠ [] := by
  by_contra hnot
  rw [not_or, not_not, not_not] at hnot
  rw [printed_of_gap_nil hnot.1, printed_of_gap_nil hnot.2, hb] at ha
  obtain ⟨x, xs, hx, hall⟩ := exists_cons_of_isDigits hdigits
  have hword : a.lexeme.head?.any isWordChar := by
    rw [hx]
    exact isWordChar_of_isDigit (hall x (List.mem_cons_self ..))
  have hfraction := (ha.of_word hword).2 hdigits
  obtain ⟨d, ds, hd, -⟩ := c.isLexeme.head
  rw [hd] at hc hfraction
  exact absurd (hfraction.symm.trans hc) (by decide)

theorem Standing.divided {items : List Printed} {last : Blanks} (h : Standing items last) :
    Divided items := by
  induction items with
  | nil => exact ⟨by simp, by simp, by simp, by simp⟩
  | cons i items ih =>
    obtain ⟨hi, hitems⟩ := h
    have hd := ih hitems
    -- Neighbours are the first two or three items, or neighbours in the tail.
    refine ⟨?_, ?_, ?_, ?_⟩
    · intro a b hab
      rcases List.infix_cons_iff.mp hab with ⟨more, hmore⟩ | hab
      · obtain ⟨rfl, rfl⟩ := List.cons.inj hmore
        exact gap_of_words hi
      · exact hd.words a b hab
    · intro a b hab
      rcases List.infix_cons_iff.mp hab with ⟨more, hmore⟩ | hab
      · obtain ⟨rfl, rfl⟩ := List.cons.inj hmore
        exact gap_of_operators hi hitems.1
      · exact hd.operators a b hab
    · intro a b hab
      rcases List.infix_cons_iff.mp hab with ⟨more, hmore⟩ | hab
      · obtain ⟨rfl, rfl⟩ := List.cons.inj hmore
        exact gap_of_periods hi
      · exact hd.periods a b hab
    · intro a b c habc
      rcases List.infix_cons_iff.mp habc with ⟨more, hmore⟩ | habc
      · obtain ⟨rfl, rfl⟩ := List.cons.inj hmore
        exact gap_of_fraction hi
      · exact hd.fractions a b c habc

/-- The scan of a printed text finds exactly the printed lexemes, each with the kind that
classification gives it, if and only if blanks divide what would grow together. -/
theorem tokenize_printed_iff (items : List Printed) (last : Blanks) (w : UInt32) :
    (∃ tokens, tokenize (String.ofList (printed items last)) w = .ok tokens ∧
      tokens.map (·.lexeme.toList) = items.map (·.lexeme) ∧
      ∀ t ∈ tokens, classify t.lexeme t.position = .ok t) ↔ Divided items := by
  rw [tokenize_eq_map, Scanner.run_ofString, String.toList_ofList]
  constructor
  · rintro ⟨tokens, hs, hl, -⟩
    exact (standing_of_scan hs hl).divided
  · intro h
    obtain ⟨tokens, hs, hl⟩ := scan_of_standing (h.standing last) w Position.start
    refine ⟨tokens, hs, hl, ?_⟩
    have hfindings := scan_findings (P := fun t => classify t.lexeme t.position = .ok t)
      (Q := fun _ => True) ?_ (fun _ _ _ _ _ _ => trivial) (fun _ _ _ _ => trivial) w
      Position.start (printed items last)
    · exact hfindings.1 tokens hs
    · intro x rest pos token _ hc
      obtain ⟨hlexeme, hpos⟩ := classify_ok hc
      rwa [hlexeme, hpos]

end ProjectD
