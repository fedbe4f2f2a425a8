import ProjectD.Proofs.Classification
import ProjectD.Proofs.Kinds
import ProjectD.Proofs.Simulation

/-! # Texts that go on

What text added at the end can change. A lexeme is settled as soon as something other than a single
period follows it (`LexemeAt.extend_within`), so all tokens but the last two are there to stay, and
so is an error whose text is complete: a stray character, or a literal that a newline cuts off.

* `Piece.scan_append_prefix`: the tokens of a text but its last two start those of a longer text.
* `Piece.scan_append_fault`: an error with its text complete is the error of every longer text.
-/

set_option autoImplicit false

namespace ProjectD

open Piece

namespace Piece

/-! ## Lexemes with something after them -/

theorem opensComment_append_within (c d : Char) (cs t : List Char) :
    opensComment (c :: d :: (cs ++ t)) = opensComment (c :: d :: cs) := by
  rw [Bool.eq_iff_iff, opensComment_iff, opensComment_iff]
  rfl

theorem operatorRun_append_within {x rest : List Char} (h : operatorRun (x ++ rest) = x)
    (hne : rest ≠ []) (t : List Char) : operatorRun (x ++ (rest ++ t)) = x := by
  induction x with
  | nil =>
    obtain ⟨c, cs, rfl⟩ := List.exists_cons_of_ne_nil hne
    rw [List.nil_append, operatorRun] at h
    rw [List.nil_append, List.cons_append, operatorRun]
    split at h
    · simp at h
    · next hc =>
      -- Either the character is no symbol, or it opens a comment, which more text keeps open.
      refine if_neg fun hc' => hc ?_
      rw [Bool.and_eq_true, Bool.not_eq_true'] at hc' ⊢
      refine ⟨hc'.1, ?_⟩
      rw [← Bool.not_eq_true]
      intro ho
      have ho' := opensComment_append t ho
      rw [List.cons_append, hc'.2] at ho'
      exact absurd ho' (by decide)
  | cons d x ih =>
    rw [List.cons_append, operatorRun] at h ⊢
    have hcut : opensComment (d :: (x ++ (rest ++ t))) = opensComment (d :: (x ++ rest)) := by
      obtain ⟨e, es, he⟩ := List.exists_cons_of_ne_nil
        (List.append_ne_nil_of_right_ne_nil x hne)
      rw [← List.append_assoc, he, List.cons_append, opensComment_append_within]
    rw [hcut]
    split at h
    · next hd => rw [if_pos hd, ih (List.cons.inj h).2]
    · simp at h

theorem opensFraction_append_within {rest : List Char} (h : opensFraction rest = false)
    (hne : rest ≠ []) (hperiod : rest ≠ ['.']) (t : List Char) :
    opensFraction (rest ++ t) = false := by
  obtain ⟨c, cs, rfl⟩ := List.exists_cons_of_ne_nil hne
  rw [← Bool.not_eq_true, opensFraction_iff] at h
  rw [← Bool.not_eq_true, List.cons_append, opensFraction_iff]
  rintro ⟨rfl, hdigit⟩
  cases cs with
  | nil => exact hperiod rfl
  | cons d ds => exact h ⟨rfl, hdigit⟩

end Piece

/-- A lexeme stays one when the text goes on, if something other than a single period stands after
it already. The period may still join digits before it to digits after it. -/
theorem LexemeAt.extend_within {x rest : List Char} (h : LexemeAt x rest) (hne : rest ≠ [])
    (hperiod : rest ≠ ['.']) (t : List Char) : LexemeAt x (rest ++ t) := by
  refine h.follow ?_ ?_ ?_
  · intro c hc
    left
    rwa [List.head?_append_of_ne_nil _ hne] at hc
  · exact fun hf => opensFraction_append_within hf hne hperiod t
  · exact fun ho => operatorRun_append_within ho hne t

namespace Piece

/-! ## Tokens that stay -/

theorem scan_period (w : UInt32) (pos : Position) :
    scan w pos ['.'] = .ok [⟨".", pos, .separator .period⟩] := by
  have hx : LexemeAt ['.'] [] := .period (by simp)
  have hc : classify (String.ofList ['.']) pos = .ok ⟨".", pos, .separator .period⟩ :=
    classify_of_spelledBy (.separator .period) pos
  rw [← List.append_nil ['.'], scan_lexeme_ok hx hc, scan_nil]
  rfl

theorem scan_append_prefix {w : UInt32} {pos : Position} {cs t : List Char} {us ts : List Token}
    (h : scan w pos cs = .ok us) (h' : scan w pos (cs ++ t) = .ok ts) :
    us.take (us.length - 2) <+: ts := by
  induction cs using pieces_induction generalizing pos us ts with
  | nil =>
    obtain rfl : [] = us := by simpa using h
    exact List.nil_prefix
  | filler x rest hx ih =>
    rw [scan_filler hx] at h
    rw [List.append_assoc, scan_filler hx] at h'
    exact ih h h'
  | openLine x hx =>
    rw [scan_openLine hx] at h
    obtain rfl : [] = us := by simpa using h
    exact List.nil_prefix
  | lexeme x rest hx ih =>
    obtain ⟨token, us, hc, hs, rfl⟩ := scan_lexeme_eq_ok hx h
    by_cases hlast : us.length < 2
    · have hzero : (token :: us).length - 2 = 0 := by
        rw [List.length_cons]
        omega
      rw [hzero]
      exact List.nil_prefix
    · -- Two tokens follow, so neither nothing nor a single period does.
      have hne : rest ≠ [] := by
        rintro rfl
        obtain rfl : [] = us := by simpa using hs
        simp at hlast
      have hperiod : rest ≠ ['.'] := by
        rintro rfl
        rw [scan_period, Except.ok.injEq] at hs
        simp [← hs] at hlast
      rw [List.append_assoc] at h'
      obtain ⟨token', ts, hc', hs', rfl⟩ :=
        scan_lexeme_eq_ok (hx.extend_within hne hperiod t) h'
      obtain rfl : token = token' := Except.ok.inj (hc.symm.trans hc')
      have hlength : (token :: us).length - 2 = us.length - 2 + 1 := by
        rw [List.length_cons]
        omega
      rw [hlength, List.take_succ_cons, List.cons_prefix_cons]
      exact ⟨rfl, ih hs hs'⟩
  | fault f cs hf => simp [scan_fault hf] at h

/-! ## Errors that stay -/

theorem scan_append_fault {w : UInt32} {pos : Position} {cs t : List Char} {e : LexError}
    (h : scan w pos cs = .error e)
    (he : (∃ p c, e = .unrecognizedCharacter p c) ∨
      (∃ p text, e = .unterminatedString p text) ∧ t.head? = some '\n') :
    scan w pos (cs ++ t) = .error e := by
  induction cs using pieces_induction generalizing pos with
  | nil => simp at h
  | filler x rest hx ih =>
    rw [scan_filler hx] at h
    rw [List.append_assoc, scan_filler hx, ih h]
  | openLine x hx => simp [scan_openLine hx] at h
  | lexeme x rest hx ih =>
    cases hc : classify (String.ofList x) pos with
    | error e' =>
      rw [scan_lexeme_error hx hc] at h
      obtain rfl := Except.error.inj h
      rcases classify_error hc with rfl | rfl <;> simp at he
    | ok token =>
      rw [scan_lexeme_ok hx hc] at h
      have hs : scan w (pos.advanceOver w x) rest = .error e := by
        cases hs : scan w (pos.advanceOver w x) rest with
        | ok ts => simp [hs, Except.map] at h
        | error e' => simpa [hs, Except.map] using h
      have hne : rest ≠ [] := by
        rintro rfl
        simp at hs
      have hperiod : rest ≠ ['.'] := by
        rintro rfl
        simp [scan_period] at hs
      rw [List.append_assoc, scan_lexeme_ok (hx.extend_within hne hperiod t) hc, ih hs]
      rfl
  | fault f cs hf =>
    rw [scan_fault hf] at h
    obtain rfl := Except.error.inj h
    have hf' : FaultAt f (cs ++ t) := by
      cases hf with
      | character hc => exact .character hc
      | @string q body rest hq hline hbody hr =>
        have ht : t.head? = some '\n' := by simpa [Fault.error] using he
        rw [List.cons_append, List.append_assoc]
        refine .string hq hline hbody (.inr ?_)
        rcases hr with rfl | hr
        · exact ht
        · simp [List.head?_append, hr]
      | comment => simp [Fault.error] at he
    rw [scan_fault hf']

end Piece

/-! ## Whole texts -/

/-- The literal `text` at `pos` is left open by a newline, not by the end of the source: the newline
follows it, and what stands before the newline ends in the same open literal. -/
def CutByNewline (source : String) (w : UInt32) (pos : Position) (text : String) : Prop :=
  ∃ before after : String, source = before ++ text ++ "\n" ++ after ∧
    (∃ ts, tokenize before w = .ok ts) ∧
    tokenize (before ++ text) w = .error (.unterminatedString pos text)

/-- Text added at the end changes no token but the last two, and no error of a stray character or of
a literal that a newline cuts off. -/
theorem tokenize_append_stable (s t : String) (w : UInt32) :
    (∀ us ts, tokenize s w = .ok us → tokenize (s ++ t) w = .ok ts →
      us.take (us.length - 2) <+: ts) ∧
    (∀ pos c, tokenize s w = .error (.unrecognizedCharacter pos c) →
      tokenize (s ++ t) w = .error (.unrecognizedCharacter pos c)) ∧
    ∀ pos text, tokenize s w = .error (.unterminatedString pos text) →
      CutByNewline s w pos text →
      tokenize (s ++ t) w = .error (.unterminatedString pos text) := by
  simp only [CutByNewline, tokenize_eq_map, Scanner.run_ofString, String.toList_append]
  refine ⟨?_, ?_, ?_⟩
  · exact fun us ts hs hst => scan_append_prefix hs hst
  · exact fun pos c hs => scan_append_fault hs (.inl ⟨pos, c, rfl⟩)
  · rintro pos text - ⟨before, after, rfl, -, hcut⟩
    rw [String.toList_append, String.toList_append, String.toList_append, List.append_assoc,
      List.append_assoc]
    exact scan_append_fault hcut (.inr ⟨⟨pos, text, rfl⟩, rfl⟩)

/-- The tokens of a sum that ends in a digit and a period. -/
def sumTokens : List Token :=
  [⟨"a", ⟨1, 1⟩, .identifier "a"⟩, ⟨"+", ⟨1, 2⟩, .operator .plus⟩,
    ⟨"1", ⟨1, 3⟩, .literal (.integer 1)⟩, ⟨".", ⟨1, 4⟩, .separator .period⟩]

/-- The tokens of the sum with one more digit. -/
def longerSumTokens : List Token :=
  [⟨"a", ⟨1, 1⟩, .identifier "a"⟩, ⟨"+", ⟨1, 2⟩, .operator .plus⟩,
    ⟨"1.5", ⟨1, 3⟩, .literal (Numeral.real false ['1'] ['5'])⟩]

/-- The digit and the period become one number, the tokens before them stay. A quote that is added
closes no literal of an earlier line. -/
theorem tokenize_append_stable_number :
    tokenize "a+1." 4 = .ok sumTokens ∧ tokenize ("a+1." ++ "5") 4 = .ok longerSumTokens ∧
      sumTokens.take 2 <+: longerSumTokens ∧ CutByNewline "x 'b\n" 4 ⟨1, 3⟩ "'b" ∧
      tokenize ("x 'b\n" ++ "'") 4 = .error (.unterminatedString ⟨1, 3⟩ "'b") := by
  have hs : tokenize "a+1." 4 = .ok sumTokens := by decide +kernel
  have hst : tokenize ("a+1." ++ "5") 4 = .ok longerSumTokens := by decide +kernel
  have hopen : tokenize "x 'b\n" 4 = .error (.unterminatedString ⟨1, 3⟩ "'b") := by decide +kernel
  have hcut : CutByNewline "x 'b\n" 4 ⟨1, 3⟩ "'b" :=
    ⟨"x ", "", by decide, ⟨[⟨"x", ⟨1, 1⟩, .identifier "x"⟩], by decide +kernel⟩, by decide +kernel⟩
  exact ⟨hs, hst, (tokenize_append_stable "a+1." "5" 4).1 _ _ hs hst, hcut,
    (tokenize_append_stable "x 'b\n" "'" 4).2.2 _ _ hopen hcut⟩

end ProjectD
