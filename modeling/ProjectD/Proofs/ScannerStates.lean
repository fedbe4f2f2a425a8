import ProjectD.Proofs.Lookahead
import ProjectD.Proofs.Simulation

/-! # The scanner between two steps

Mode and buffer of a scanner change apart from each other: a flush empties the buffer and leaves the
mode, and a period joins the digits before it under the mode of a word. Between two steps they agree
again (`Scanner.Between`), in every state that a run comes through (`Scanner.Reaches`).

Which texts may wait in which mode is `Waiting`, and the simulation keeps it. Here it is said where
a waiting text comes from: it is the last part of what was passed, and starts where that part starts
(`Scanner.Places`). For this a step does one of three things (`Scanner.Waits`): nothing waits after
it, or its character alone, or its character behind what waited before.
-/

set_option autoImplicit false

namespace ProjectD

open Piece

/-! ## What may wait, mode by mode -/

/-- A run of word characters, or digits, a period and such a run. -/
def IsWordOrNumber (x : List Char) : Prop :=
  (∀ c ∈ x, isWordChar c) ∨ ∃ whole fraction, x = whole ++ '.' :: fraction ∧
    Decimal.isDigits whole ∧ ∀ c ∈ fraction, isWordChar c

theorem not_opener_infix {x rest : List Char} (hx : x <+: operatorRun (x ++ rest)) {d : Char}
    (hd : d = '/' ∨ d = '*') : ¬ ['/', d] <:+: x := by
  induction x with
  | nil => simp
  | cons c x ih =>
    rw [List.cons_append, operatorRun] at hx
    split at hx
    · next hc =>
      have htail := ih ((List.prefix_cons_inj c).mp hx)
      rw [List.infix_cons_iff]
      rintro (hhead | hinfix)
      · -- The opener would stand at the head, where the run ends.
        obtain ⟨rfl, hsecond⟩ := List.cons_prefix_cons.mp hhead
        obtain ⟨rest', rfl⟩ := hsecond
        rcases hd with rfl | rfl <;> simp [opensComment] at hc
      · exact htail hinfix
    · simp at hx

theorem getLast?_ne_period {x : List Char} (hx : ∀ c ∈ x, isWordChar c) :
    x.getLast? ≠ some '.' := by
  intro hlast
  have hperiod : isWordChar '.' := hx '.' (List.mem_of_getLast? hlast)
  exact absurd hperiod (by decide)

variable {x rest : List Char}

theorem Waiting.of_empty (h : Waiting .empty x rest) : x = [] := by
  cases h
  rfl

theorem Waiting.of_separator (h : Waiting .separator x rest) :
    x ∈ [[], [';'], [','], ['.'], ['\n']] := by
  cases h with
  | blank => simp
  | punctuation hc =>
    simp only [isPunctuation, Bool.or_eq_true, decide_eq_true_eq] at hc
    obtain ((rfl | rfl) | rfl) | rfl := hc <;> simp

theorem Waiting.of_operator (h : Waiting .operator x rest) :
    x ≠ [] ∧ (∀ c ∈ x, isOperatorChar c) ∧ ¬ ['/', '/'] <:+: x ∧ ¬ ['/', '*'] <:+: x := by
  cases h with
  | operator hne hx =>
    refine ⟨hne, fun c hc => ?_, not_opener_infix hx (.inl rfl), not_opener_infix hx (.inr rfl)⟩
    exact isOperatorChar_of_mem_operatorRun (hx.subset hc)

theorem Waiting.of_word (h : Waiting .word x rest) :
    x ≠ [] ∧ IsWordOrNumber x ∧ (x.getLast? = some '.' → rest.head?.any Decimal.isDigit) := by
  cases h with
  | word hne hx => exact ⟨hne, .inl hx, fun hlast => absurd hlast (getLast?_ne_period hx)⟩
  | @number whole fraction _ hwhole hfraction hdigit =>
    refine ⟨by simp, .inr ⟨whole, fraction, rfl, hwhole, hfraction⟩, fun hlast => ?_⟩
    -- The text ends in its period only as long as the fraction is empty.
    cases fraction with
    | nil => exact hdigit
    | cons d ds =>
      rw [List.getLast?_append_of_ne_nil _ (by simp), List.getLast?_cons_cons] at hlast
      exact absurd hlast (getLast?_ne_period hfraction)

namespace Scanner

variable {s t : Scanner} {c : Char} {pos : Position} {source : String} {tabWidth : UInt32}

/-! ## What waits after a step -/

theorem buffer_of_commit {lexeme : String} (h : s.commit lexeme pos = .ok t) :
    t.buffer = s.buffer := by
  unfold commit at h
  split at h
  · rw [← Except.ok.inj h]
  · cases h

theorem buffer_of_flush (h : s.flush = .ok t) : t.buffer = "" := by
  unfold flush at h
  split at h
  · next hb =>
    rw [← Except.ok.inj h]
    exact String.isEmpty_iff.mp hb
  · rw [buffer_of_commit h]

/-- What waits in `t`, once `s` has handled the character `c` at `pos`. -/
inductive Waits (s : Scanner) (c : Char) (pos : Position) (t : Scanner) : Prop where
  | nothing (n : Nat) (hcursor : t.cursor = s.cursor.skip n) (hbuffer : t.buffer = "")
  | first (hcursor : t.cursor = s.cursor) (hbuffer : t.buffer = String.singleton c)
    (hstart : t.start = pos)
  | behind (hcursor : t.cursor = s.cursor) (hbuffer : t.buffer = s.buffer.push c)
    (hstart : t.start = if s.buffer.isEmpty then pos else s.start)

theorem buffer_of_commitAlone {lexeme : String} (h : s.commitAlone lexeme pos = .ok t) :
    t.buffer = "" := by
  unfold commitAlone at h
  split at h
  · cases h
  next u hf =>
  have hflushed := buffer_of_flush hf
  rw [buffer_of_commit h]
  exact hflushed

theorem waits_of_comment (h : s.comment pos = .ok t) (c : Char) : Waits s c pos t := by
  unfold comment at h
  split at h
  · cases h
  next u hf =>
  have hcursor := cursor_of_flush hf
  have hbuffer := buffer_of_flush hf
  dsimp only at h
  split at h
  · obtain rfl := Except.ok.inj h
    exact .nothing _ (by rw [Cursor.skip_skip, hcursor]) hbuffer
  split at h
  · obtain rfl := Except.ok.inj h
    exact .nothing _ (by rw [Cursor.skip_skip, hcursor]) hbuffer
  · cases h

theorem waits_of_quotedLiteral {q : Char} (h : s.quotedLiteral q pos = .ok t) :
    Waits s q pos t := by
  unfold quotedLiteral at h
  split at h
  · cases h
  next u hf =>
  have hflushed := buffer_of_flush hf
  dsimp only at h
  split at h
  · refine .nothing (Span.quoted q q u.cursor.rest).1.length ?_ ?_
    · rw [cursor_of_commit h, cursor_of_flush hf]
    · rw [buffer_of_commit h]
      exact hflushed
  · cases h

theorem waits_of_ordinary (h : s.ordinary c pos = .ok t) : Waits s c pos t := by
  have hcursor := cursor_of_ordinary h
  unfold ordinary at h
  split at h
  · obtain rfl := Except.ok.inj h
    exact .behind rfl rfl rfl
  split at h
  · cases h
  next u hf =>
  have hbuffer := buffer_of_flush hf
  split at h
  · cases h
  next mode hmode =>
  dsimp only at h
  split at h
  · obtain rfl := Except.ok.inj h
    exact .nothing 0 hcursor hbuffer
  · obtain rfl := Except.ok.inj h
    refine .first hcursor ?_ ?_
    · simp only [push, hbuffer]
      rfl
    · simp [push, hbuffer]

theorem waits_of_period (h : s.period pos = .ok t) : Waits s '.' pos t := by
  unfold period at h
  split at h
  · next hnumber =>
    have hne := isEmpty_of_isDigits hnumber.2.1
    obtain rfl := Except.ok.inj h
    exact .behind rfl rfl (by simp [hne])
  split at h
  · exact .nothing 1 (cursor_of_commitAlone h) (buffer_of_commitAlone h)
  · exact waits_of_ordinary h

theorem waits_of_dispatch (h : s.dispatch c pos = .ok t) : Waits s c pos t := by
  unfold dispatch at h
  split at h
  · exact .nothing 0 (cursor_of_commitAlone h) (buffer_of_commitAlone h)
  split at h
  · exact waits_of_quotedLiteral h
  split at h
  · exact waits_of_comment h c
  split at h
  · next hp =>
    subst hp
    exact waits_of_period h
  · exact waits_of_ordinary h

/-! ## Where the waiting text stands -/

/-- What waits and what is unread follow the text `before`, and the waiting text starts where that
ends. -/
structure Places (source : String) (tabWidth : UInt32) (before : List Char) (s : Scanner) :
    Prop where
  text : source.toList = before ++ s.buffer.toList ++ s.cursor.rest
  origin : s.origin = Position.start.advanceOver tabWidth before
  tabWidth : s.cursor.tabWidth = tabWidth

theorem places_start (source : String) (tabWidth : UInt32) :
    Places source tabWidth [] (ofString source tabWidth) :=
  ⟨rfl, rfl, rfl⟩

theorem Places.position {before : List Char} (h : Places source tabWidth before s)
    (hs : s.Sound) :
    s.cursor.position = Position.start.advanceOver tabWidth (before ++ s.buffer.toList) := by
  rw [hs.position, h.origin, h.tabWidth, Position.advanceOver_append]

theorem Places.step {before : List Char} (h : Places source tabWidth before s) (hs : s.Sound)
    (hc : s.cursor.peek? = some c) (ht : s.step c = .ok t) :
    ∃ before', Places source tabWidth before' t := by
  obtain ⟨cs, hrest⟩ := List.head?_eq_some_iff.mp hc
  have hposition := h.position hs
  have hskip := s.cursor.skip_one hrest
  have htext := h.text
  rw [hrest] at htext
  cases waits_of_dispatch ht with
  | nothing n hcursor hbuffer =>
    -- All that was passed, with what waited, now stands before the cursor.
    have hpassed : t.cursor = s.cursor.skip (1 + n) := by rw [hcursor, Cursor.skip_skip]
    refine ⟨before ++ s.buffer.toList ++ s.cursor.rest.take (1 + n), ?_, ?_, ?_⟩
    · rw [hbuffer, hpassed, Cursor.rest_skip, List.append_assoc, h.text]
      simp
    · rw [Scanner.origin, hbuffer, if_pos (by simp), hpassed, Cursor.position_skip, hposition,
        h.tabWidth, ← Position.advanceOver_append]
    · rw [hpassed, Cursor.tabWidth_skip, h.tabWidth]
  | first hcursor hbuffer hstart =>
    refine ⟨before ++ s.buffer.toList, ?_, ?_, ?_⟩
    · rw [hbuffer, hcursor, hskip, htext]
      simp
    · rw [Scanner.origin, hbuffer, if_neg (by simp), hstart, hposition]
    · rw [hcursor, hskip, h.tabWidth]
  | behind hcursor hbuffer hstart =>
    refine ⟨before, ?_, ?_, ?_⟩
    · rw [hbuffer, hcursor, hskip, htext]
      simp
    · rw [Scanner.origin, hbuffer, if_neg (by simp), hstart]
      exact h.origin
    · rw [hcursor, hskip, h.tabWidth]

/-! ## States of a run -/

/-- The states that the scanner of a text comes to, one step after another. -/
inductive Reaches (source : String) (tabWidth : UInt32) : Scanner → Prop where
  | start : Reaches source tabWidth (ofString source tabWidth)
  | step {s t : Scanner} {c : Char} (h : Reaches source tabWidth s)
    (hc : s.cursor.peek? = some c) (ht : s.step c = .ok t) : Reaches source tabWidth t

theorem run_of_step (hc : s.cursor.peek? = some c) (ht : s.step c = .ok t) : s.run = t.run := by
  rw [run]
  split
  · next hnone => simp [hc] at hnone
  next hsome =>
  obtain rfl := Option.some.inj (hc.symm.trans hsome)
  split
  · next herror => simp [ht] at herror
  · next hok => rw [Except.ok.inj (ht.symm.trans hok)]

theorem Reaches.sound (h : Reaches source tabWidth s) : s.Sound := by
  induction h with
  | start => exact sound_of_idle rfl rfl
  | step _ hc ht ih =>
    have hagrees := step_meaning ih hc
    rw [ht] at hagrees
    exact hagrees.1

theorem Reaches.places (h : Reaches source tabWidth s) :
    ∃ before, Places source tabWidth before s := by
  induction h with
  | start => exact ⟨[], places_start source tabWidth⟩
  | step hs hc ht ih =>
    obtain ⟨before, hbefore⟩ := ih
    exact hbefore.step hs.sound hc ht

theorem Reaches.run_eq (h : Reaches source tabWidth s) :
    (ofString source tabWidth).run = s.run := by
  induction h with
  | start => rfl
  | step _ hc ht ih => rw [ih, run_of_step hc ht]

/-! ## Mode and buffer -/

/-- The state of the scanner of `source` between two steps. -/
structure Between (source : String) (tabWidth : UInt32) (s : Scanner) : Prop where
  run : (ofString source tabWidth).run = s.run
  empty : s.mode = .empty → s.buffer = ""
  separator : s.mode = .separator → s.buffer ∈ ["", ";", ",", ".", "\n"]
  operator : s.mode = .operator → s.buffer ≠ "" ∧ (∀ c ∈ s.buffer.toList, isOperatorChar c) ∧
    ¬ ['/', '/'] <:+: s.buffer.toList ∧ ¬ ['/', '*'] <:+: s.buffer.toList
  word : s.mode = .word → s.buffer ≠ "" ∧ IsWordOrNumber s.buffer.toList ∧
    (s.buffer.toList.getLast? = some '.' → s.cursor.peek?.any Decimal.isDigit)
  /-- What waits is the last part of what was passed, from where it starts up to the cursor. -/
  waiting : ∃ before, source.toList = before ++ s.buffer.toList ++ s.cursor.rest ∧
    s.cursor.position = Position.start.advanceOver tabWidth (before ++ s.buffer.toList) ∧
    (s.buffer ≠ "" → s.start = Position.start.advanceOver tabWidth before ∧
      s.start.advanceOver tabWidth s.buffer.toList = s.cursor.position)

theorem origin_of_ne (h : s.buffer ≠ "") : s.origin = s.start :=
  if_neg fun hempty => h (String.isEmpty_iff.mp hempty)

/-- In every state of a run, mode and buffer agree, and the buffer holds the text before the
cursor. -/
theorem reaches_between (source : String) (tabWidth : UInt32) (s : Scanner)
    (h : Reaches source tabWidth s) : Between source tabWidth s := by
  have hs := h.sound
  have hwaiting := hs.waiting
  obtain ⟨before, hplaces⟩ := h.places
  refine ⟨h.run_eq, fun hmode => ?_, fun hmode => ?_, fun hmode => ?_, fun hmode => ?_, ?_⟩
  · rw [hmode] at hwaiting
    exact String.toList_eq_nil_iff.mp hwaiting.of_empty
  · rw [hmode] at hwaiting
    have hmem := List.mem_map_of_mem (f := String.ofList) hwaiting.of_separator
    rw [String.ofList_toList] at hmem
    exact hmem
  · rw [hmode] at hwaiting
    obtain ⟨hne, hshape⟩ := hwaiting.of_operator
    exact ⟨fun hempty => hne (String.toList_eq_nil_iff.mpr hempty), hshape⟩
  · rw [hmode] at hwaiting
    obtain ⟨hne, hshape⟩ := hwaiting.of_word
    exact ⟨fun hempty => hne (String.toList_eq_nil_iff.mpr hempty), hshape⟩
  · refine ⟨before, hplaces.text, hplaces.position hs, fun hne => ?_⟩
    have horigin := origin_of_ne hne
    rw [← horigin]
    refine ⟨hplaces.origin, ?_⟩
    rw [hs.position, hplaces.tabWidth]

/-- The scanner of `"\t1.5"` with a number up to its period. -/
def halfNumber : Scanner where
  cursor := ⟨['5'], ⟨1, 7⟩, 4⟩
  mode := .word
  buffer := "1."
  start := ⟨1, 5⟩
  tokens := #[]

theorem reaches_between_halfNumber :
    Reaches "\t1.5" 4 halfNumber ∧ halfNumber.buffer.toList.getLast? = some '.' ∧
      halfNumber.cursor.peek?.any Decimal.isDigit ∧ IsWordOrNumber "1.".toList ∧
      (⟨1, 5⟩ : Position).advanceOver 4 "1.".toList = ⟨1, 7⟩ := by
  have htab : Reaches "\t1.5" 4
      ⟨⟨['1', '.', '5'], ⟨1, 5⟩, 4⟩, .separator, "", ⟨1, 1⟩, #[]⟩ :=
    .step .start (c := '\t') (by decide +kernel) (by decide +kernel)
  have hone : Reaches "\t1.5" 4 ⟨⟨['.', '5'], ⟨1, 6⟩, 4⟩, .word, "1", ⟨1, 5⟩, #[]⟩ :=
    htab.step (c := '1') (by decide +kernel) (by decide +kernel)
  have hreached : Reaches "\t1.5" 4 halfNumber :=
    hone.step (c := '.') (by decide +kernel) (by decide +kernel)
  have hbetween := reaches_between "\t1.5" 4 halfNumber hreached
  have hlast : halfNumber.buffer.toList.getLast? = some '.' := by decide
  obtain ⟨-, hshape, hnext⟩ := hbetween.word rfl
  obtain ⟨before, -, -, hstart⟩ := hbetween.waiting
  exact ⟨hreached, hlast, hnext hlast, hshape, (hstart (by decide)).2⟩

end Scanner

end ProjectD
