import ProjectD.Proofs.Classification
import ProjectD.Proofs.Simulation

/-! # Tokens stand in order

A position identifies at most one token, and an error stands after all tokens that were recorded
before it. Both need room: a coordinate that has reached the largest word stays there. And both
rest on the first character of a lexeme, which is never a tab and so always moves on, while a tab
may take no column at all.

* `Position.HasRoom.advance`, `Position.Before.advance`: what one character keeps.
* `Scanner.step_order`: a step keeps the recorded tokens in order and before all that is still to be
  recorded; if it fails, the error comes after them.
* `Scanner.run_order`: so does a whole run.
-/

set_option autoImplicit false

namespace ProjectD

namespace Position

variable {tabWidth : UInt32} {p q : Position} {n : Nat} {c : Char} {cs : List Char}

/-- An earlier line, or an earlier column of the same line. -/
def Before (p q : Position) : Prop :=
  p.line < q.line ∨ (p.line = q.line ∧ p.column < q.column)

/-- Within `n` characters from `p` neither coordinate reaches the largest word and stays there. -/
def HasRoom (tabWidth : UInt32) (p : Position) (n : Nat) : Prop :=
  p.line.toNat + n < 4294967296 ∧ p.column.toNat + n * max 1 tabWidth.toNat < 4294967296

theorem before_iff :
    p.Before q ↔ p.line.toNat < q.line.toNat ∨
      (p.line.toNat = q.line.toNat ∧ p.column.toNat < q.column.toNat) := by
  rw [Before, UInt32.lt_iff_toNat_lt, UInt32.lt_iff_toNat_lt, UInt32.toNat_inj]

theorem Before.trans {r : Position} (hpq : p.Before q) (hqr : q.Before r) : p.Before r := by
  rw [before_iff] at hpq hqr ⊢
  omega

theorem Before.ne (h : p.Before q) : p ≠ q := by
  rintro rfl
  rw [before_iff] at h
  omega

/-! ## One character -/

/-- With room for a character, a newline opens the next line, and any other character takes some
columns, at least one if it is not a tab. -/
theorem advance_cases (h : p.HasRoom tabWidth (n + 1)) (c : Char) :
    ((p.advance tabWidth c).line.toNat = p.line.toNat + 1 ∧
        (p.advance tabWidth c).column.toNat = 1) ∨
      ∃ step, step ≤ max 1 tabWidth.toNat ∧ (c ≠ '\t' → 0 < step) ∧
        (p.advance tabWidth c).line.toNat = p.line.toNat ∧
        (p.advance tabWidth c).column.toNat = p.column.toNat + step := by
  have hone : (1 : UInt32).toNat = 1 := rfl
  have hwidth : max 1 tabWidth.toNat ≤ (n + 1) * max 1 tabWidth.toNat :=
    Nat.le_mul_of_pos_left _ (Nat.succ_pos n)
  obtain ⟨hline, hcolumn⟩ := h
  unfold advance
  split
  · refine .inl ⟨?_, rfl⟩
    rw [toNat_satAdd]
    omega
  split
  · next htab =>
    refine .inr ⟨tabWidth.toNat, by omega, fun hne => absurd htab hne, rfl, ?_⟩
    rw [toNat_satAdd]
    omega
  · refine .inr ⟨1, by omega, fun _ => Nat.one_pos, rfl, ?_⟩
    rw [toNat_satAdd]
    omega

theorem HasRoom.advance (h : p.HasRoom tabWidth (n + 1)) (c : Char) :
    (p.advance tabWidth c).HasRoom tabWidth n := by
  have hmove := advance_cases h c
  obtain ⟨hline, hcolumn⟩ := h
  rw [Nat.succ_mul] at hcolumn
  rcases hmove with ⟨hl, hc⟩ | ⟨step, hstep, -, hl, hc⟩
  · constructor <;> omega
  · constructor <;> omega

theorem Before.advance (h : q.Before p) (hroom : p.HasRoom tabWidth (n + 1)) (c : Char) :
    q.Before (p.advance tabWidth c) := by
  rw [before_iff] at h ⊢
  rcases advance_cases hroom c with ⟨hl, hc⟩ | ⟨step, -, -, hl, hc⟩
  · omega
  · omega

/-- Every character but a tab moves on. -/
theorem before_advance (hroom : p.HasRoom tabWidth (n + 1)) (hc : c ≠ '\t') :
    p.Before (p.advance tabWidth c) := by
  rw [before_iff]
  rcases advance_cases hroom c with ⟨hl, hcol⟩ | ⟨step, -, hpos, hl, hcol⟩
  · omega
  · have hstep := hpos hc
    omega

/-! ## Texts -/

theorem HasRoom.advanceOver (h : p.HasRoom tabWidth (cs.length + n)) :
    (p.advanceOver tabWidth cs).HasRoom tabWidth n := by
  induction cs generalizing p with
  | nil => simpa using h
  | cons c cs ih =>
    rw [List.length_cons, Nat.succ_add] at h
    rw [advanceOver_cons]
    exact ih (h.advance c)

theorem Before.advanceOver (h : q.Before p) (hroom : p.HasRoom tabWidth (cs.length + n)) :
    q.Before (p.advanceOver tabWidth cs) := by
  induction cs generalizing p with
  | nil => exact h
  | cons c cs ih =>
    rw [List.length_cons, Nat.succ_add] at hroom
    rw [advanceOver_cons]
    exact ih (h.advance hroom c) (hroom.advance c)

theorem before_advanceOver (hroom : p.HasRoom tabWidth ((c :: cs).length + n)) (hc : c ≠ '\t') :
    p.Before (p.advanceOver tabWidth (c :: cs)) := by
  rw [List.length_cons, Nat.succ_add] at hroom
  rw [advanceOver_cons]
  exact (before_advance hroom hc).advanceOver (hroom.advance c)

theorem hasRoom_start {tabWidth : UInt32} {n : Nat}
    (h : (n + 1) * max 1 tabWidth.toNat < 4294967296) : start.HasRoom tabWidth n := by
  have hn : n ≤ n * max 1 tabWidth.toNat := Nat.le_mul_of_pos_right n (by omega)
  have hline : start.line.toNat = 1 := rfl
  have hcolumn : start.column.toNat = 1 := rfl
  rw [Nat.succ_mul] at h
  constructor <;> omega

end Position

namespace Cursor

variable {k : Cursor}

/-- The rest of the text has room. -/
def HasRoom (k : Cursor) : Prop :=
  k.position.HasRoom k.tabWidth k.rest.length

theorem HasRoom.skip (h : k.HasRoom) (n : Nat) : (k.skip n).HasRoom := by
  have hlength : k.rest.length = (k.rest.take n).length + (k.rest.drop n).length := by
    rw [← List.length_append, List.take_append_drop]
  rw [HasRoom, hlength] at h
  exact h.advanceOver

theorem HasRoom.before_skip {p : Position} (h : k.HasRoom) (hp : p.Before k.position) (n : Nat) :
    p.Before (k.skip n).position := by
  have hlength : k.rest.length = (k.rest.take n).length + (k.rest.drop n).length := by
    rw [← List.length_append, List.take_append_drop]
  rw [HasRoom, hlength] at h
  exact hp.advanceOver h

/-- A cursor that passes anything but a tab moves on. -/
theorem HasRoom.position_before_skip {c : Char} {cs : List Char} (h : k.HasRoom)
    (hrest : k.rest = c :: cs) (hc : c ≠ '\t') (n : Nat) :
    k.position.Before (k.skip (1 + n)).position := by
  have hone : k.position.Before (k.skip 1).position := by
    rw [k.skip_one hrest]
    rw [HasRoom, hrest] at h
    exact Position.before_advance h hc
  rw [← skip_skip]
  exact (h.skip 1).before_skip hone n

end Cursor

/-! ## Recorded tokens -/

/-- The tokens stand in order, and all of them before `pos`. -/
def InOrder (tokens : Array Token) (pos : Position) : Prop :=
  (tokens.toList.map (·.position) ++ [pos]).Pairwise Position.Before

theorem inOrder_iff {tokens : Array Token} {pos : Position} :
    InOrder tokens pos ↔ (tokens.toList.map (·.position)).Pairwise Position.Before ∧
      ∀ t ∈ tokens.toList, t.position.Before pos := by
  simp [InOrder, List.pairwise_append]

theorem InOrder.imp {tokens : Array Token} {p q : Position} (h : InOrder tokens p)
    (hpq : ∀ r : Position, r.Before p → r.Before q) : InOrder tokens q := by
  rw [inOrder_iff] at h ⊢
  exact ⟨h.1, fun t ht => hpq _ (h.2 t ht)⟩

theorem InOrder.push {tokens : Array Token} {token : Token} {pos : Position}
    (h : InOrder tokens token.position) (hmove : token.position.Before pos) :
    InOrder (tokens.push token) pos := by
  have hall := (inOrder_iff.mp h).2
  rw [inOrder_iff, Array.toList_push, List.map_append]
  refine ⟨h, fun t ht => ?_⟩
  rcases List.mem_append.mp ht with ht | ht
  · exact (hall t ht).trans hmove
  · rw [List.mem_singleton.mp ht]
    exact hmove

namespace Scanner

variable {s t : Scanner} {c : Char} {cs : List Char}

/-- The tokens that are recorded once nothing waits any more. If what waits is at fault, it is
left out. -/
def flushed (s : Scanner) : Array Token :=
  match s.flush with
  | .ok t => t.tokens
  | .error _ => s.tokens

/-- The tokens that are recorded when a run ends, well or with an error. All that can fail in a step
comes after the flush. -/
def recorded (s : Scanner) : Array Token :=
  match _hc : s.cursor.peek? with
  | none => s.flushed
  | some c =>
    match _h : s.step c with
    | .error _ => s.flushed
    | .ok t => recorded t
termination_by s.cursor.rest.length
decreasing_by exact rest_length_of_step _hc _h

/-- What is recorded stands in order and before what waits, and there is room for what waits and for
what is unread. -/
structure Ordered (s : Scanner) : Prop where
  room : s.origin.HasRoom s.cursor.tabWidth (s.buffer.toList.length + s.cursor.rest.length)
  inOrder : InOrder s.tokens s.origin

/-- A step from `s` keeps the order, or fails with an error after all that is recorded. -/
def KeepsOrder (s : Scanner) : Except LexError Scanner → Prop
  | .ok t => t.Ordered
  | .error e => InOrder s.flushed e.position

theorem Ordered.cursor_room (ho : s.Ordered) (hs : s.Sound) : s.cursor.HasRoom := by
  rw [Cursor.HasRoom, hs.position]
  exact ho.room.advanceOver

theorem ordered_of_idle (hb : s.buffer = "") (hroom : s.cursor.HasRoom)
    (horder : InOrder s.tokens s.cursor.position) : s.Ordered where
  room := by simpa [origin, hb, Cursor.HasRoom] using hroom
  inOrder := by simpa [origin, hb] using horder

theorem position_of_classify {lexeme : String} {pos : Position} {e : LexError}
    (h : classify lexeme pos = .error e) : e.position = pos := by
  rcases classify_error h with rfl | rfl <;> rfl

/-- No lexeme starts with a tab. -/
theorem ne_tab_of_waiting {mode : Mode} {rest : List Char} (h : Waiting mode (c :: cs) rest) :
    c ≠ '\t' := by
  rintro rfl
  generalize hx : '\t' :: cs = x at h
  cases h with
  | empty => cases hx
  | blank => cases hx
  | punctuation hp =>
    obtain ⟨rfl, -⟩ := List.cons.inj hx
    exact absurd hp (by decide)
  | word _ hw =>
    subst hx
    exact absurd (hw _ (List.mem_cons_self ..)) (by decide)
  | @number whole _ _ hw =>
    obtain ⟨d, ds, rfl, hdigits⟩ := Piece.exists_cons_of_isDigits hw
    obtain ⟨rfl, -⟩ := List.cons.inj hx
    exact absurd (hdigits _ (List.mem_cons_self ..)) (by decide)
  | operator _ ho =>
    subst hx
    simp [Piece.operatorRun, isOperatorChar] at ho

/-- Recording what waits keeps the order up to the cursor; what waits and is at fault stands after
all that is recorded. The cursor may have moved on. -/
theorem flush_order (hs : s.Sound) (ho : s.Ordered) (k : Cursor) :
    (flush { s with cursor := k } =
        .ok { s with cursor := k, buffer := "", tokens := s.flushed } ∧
      InOrder s.flushed s.cursor.position) ∨
      ∃ e, flush { s with cursor := k } = .error e ∧ InOrder s.flushed e.position := by
  obtain ⟨cursor, mode, buffer, start, tokens⟩ := s
  have hpos := hs.position
  have hwait := hs.waiting
  obtain ⟨hroom, horder⟩ := ho
  simp only [origin, flushed, flush, commit] at hpos hwait hroom horder ⊢
  by_cases hb : buffer = ""
  · subst hb
    exact .inl ⟨rfl, horder⟩
  have he : buffer.isEmpty = false := by
    rw [← Bool.not_eq_true, String.isEmpty_iff]
    exact hb
  simp only [he, Bool.false_eq_true, if_false] at hpos hroom horder ⊢
  cases hclass : classify buffer start with
  | error e =>
    refine .inr ⟨e, rfl, ?_⟩
    rw [position_of_classify hclass]
    exact horder
  | ok token =>
    refine .inl ⟨rfl, ?_⟩
    obtain ⟨c, cs, hcs⟩ := List.exists_cons_of_ne_nil fun h => hb (String.toList_inj.mp h)
    have hc : c ≠ '\t' := ne_tab_of_waiting (hcs ▸ hwait)
    rw [← (classify_ok hclass).2] at hpos hroom horder
    rw [hpos]
    refine horder.push ?_
    rw [hcs] at hroom ⊢
    exact Position.before_advanceOver hroom hc

/-! ## Steps -/

/-- Skipping text after a flush keeps the order. -/
theorem skip_order (hroom : s.cursor.HasRoom) (horder : InOrder s.flushed s.cursor.position)
    (mode : Mode) (n : Nat) :
    Ordered { s with cursor := s.cursor.skip n, mode := mode, buffer := "", tokens := s.flushed } :=
  ordered_of_idle rfl (hroom.skip n) (horder.imp fun _ hr => hroom.before_skip hr n)

/-- A lexeme that starts at the cursor with anything but a tab is recorded in order. -/
theorem commit_order (hroom : s.cursor.HasRoom) (horder : InOrder s.flushed s.cursor.position)
    (hrest : s.cursor.rest = c :: cs) (hc : c ≠ '\t') (lexeme : String) (n : Nat) :
    KeepsOrder s (commit { s with cursor := s.cursor.skip (1 + n), mode := .empty, buffer := "",
                                  tokens := s.flushed } lexeme s.cursor.position) := by
  unfold commit
  cases hclass : classify lexeme s.cursor.position with
  | error e =>
    rw [← position_of_classify hclass] at horder
    exact horder
  | ok token =>
    have hmove := hroom.position_before_skip hrest hc n
    rw [← (classify_ok hclass).2] at horder hmove
    exact ordered_of_idle rfl (hroom.skip _) (horder.push hmove)

theorem commitAlone_order (hs : s.Sound) (ho : s.Ordered) (hrest : s.cursor.rest = c :: cs)
    (hc : c ≠ '\t') (lexeme : String) (n : Nat) :
    KeepsOrder s (commitAlone { s with cursor := s.cursor.skip (1 + n) } lexeme
      s.cursor.position) := by
  unfold commitAlone
  rcases flush_order hs ho (s.cursor.skip (1 + n)) with ⟨hf, horder⟩ | ⟨e, hf, horder⟩
  · rw [hf]
    exact commit_order (ho.cursor_room hs) horder hrest hc lexeme n
  · rw [hf]
    exact horder

theorem quotedLiteral_order (hs : s.Sound) (ho : s.Ordered) {q : Char}
    (hrest : s.cursor.rest = q :: cs) (hq : q ≠ '\t') :
    KeepsOrder s (quotedLiteral { s with cursor := s.cursor.skip 1 } q s.cursor.position) := by
  unfold quotedLiteral
  rcases flush_order hs ho (s.cursor.skip 1) with ⟨hf, horder⟩ | ⟨e, hf, horder⟩
  · simp only [hf]
    split
    · rw [Cursor.skip_skip]
      exact commit_order (ho.cursor_room hs) horder hrest hq _ _
    · exact horder
  · rw [hf]
    exact horder

theorem comment_order (hs : s.Sound) (ho : s.Ordered) :
    KeepsOrder s (comment { s with cursor := s.cursor.skip 1 } s.cursor.position) := by
  have hroom := ho.cursor_room hs
  unfold comment
  rcases flush_order hs ho (s.cursor.skip 1) with ⟨hf, horder⟩ | ⟨e, hf, horder⟩
  · simp only [hf, Cursor.skip_skip]
    split
    · exact skip_order hroom horder .empty _
    split
    · exact skip_order hroom horder .empty _
    · exact horder
  · rw [hf]
    exact horder

/-- A character that joins what waits moves neither its start nor what is recorded. -/
theorem push_order (ho : s.Ordered) (hrest : s.cursor.rest = c :: cs) (mode : Mode) :
    Ordered (push { s with cursor := s.cursor.skip 1, mode := mode } c s.cursor.position) := by
  have horigin : (push { s with cursor := s.cursor.skip 1, mode := mode } c
      s.cursor.position).origin = s.origin := by
    simp [origin, push]
  have hlength : (s.buffer.push c).toList.length + (s.cursor.skip 1).rest.length =
      s.buffer.toList.length + s.cursor.rest.length := by
    rw [String.toList_push, List.length_append, List.length_singleton, Cursor.rest_skip, hrest,
      List.drop_one, List.tail_cons, List.length_cons]
    omega
  refine ⟨?_, ?_⟩
  · rw [horigin]
    have hroom := ho.room
    rw [← hlength] at hroom
    exact hroom
  · rw [horigin]
    exact ho.inOrder

theorem ordinary_order (hs : s.Sound) (ho : s.Ordered) (hrest : s.cursor.rest = c :: cs) :
    KeepsOrder s (ordinary { s with cursor := s.cursor.skip 1 } c s.cursor.position) := by
  have hroom := ho.cursor_room hs
  unfold ordinary
  split
  · exact push_order ho hrest s.mode
  rcases flush_order hs ho (s.cursor.skip 1) with ⟨hf, horder⟩ | ⟨e, hf, horder⟩
  · simp only [hf]
    cases hc : Mode.ofChar? c with
    | none => exact horder
    | some mode =>
      dsimp only
      split
      · exact skip_order hroom horder mode 1
      · exact push_order (s := { s with buffer := "", tokens := s.flushed })
          (ordered_of_idle rfl hroom horder) hrest mode
  · simp only [hf]
    exact horder

theorem period_order (hs : s.Sound) (ho : s.Ordered) (hrest : s.cursor.rest = '.' :: cs) :
    KeepsOrder s (period { s with cursor := s.cursor.skip 1 } s.cursor.position) := by
  unfold period
  split
  · next h =>
    have hne := isEmpty_of_isDigits h.2.1
    have hpush := push_order ho hrest s.mode
    simp only [push, hne, Bool.false_eq_true, if_false] at hpush
    exact hpush
  split
  · rw [Cursor.skip_skip]
    exact commitAlone_order hs ho hrest (by decide) _ _
  · exact ordinary_order hs ho hrest

/-- One step keeps the order, or fails with an error after all that is recorded. -/
theorem step_order (hs : s.Sound) (ho : s.Ordered) (hc : s.cursor.peek? = some c) :
    KeepsOrder s (s.step c) := by
  obtain ⟨cs, hrest⟩ := List.head?_eq_some_iff.mp hc
  unfold step dispatch
  split
  · next hb =>
    refine commitAlone_order hs ho hrest ?_ _ 0
    rintro rfl
    exact absurd hb (by decide)
  split
  · next hq =>
    refine quotedLiteral_order hs ho hrest ?_
    rintro rfl
    exact absurd hq (by decide)
  split
  · exact comment_order hs ho
  split
  · next hp =>
    subst hp
    exact period_order hs ho hrest
  · exact ordinary_order hs ho hrest

/-! ## Runs -/

theorem recorded_of_end (hc : s.cursor.peek? = none) : s.recorded = s.flushed := by
  rw [recorded]
  split
  · rfl
  · next hsome => simp [hc] at hsome

theorem recorded_of_error {e : LexError} (hc : s.cursor.peek? = some c)
    (he : s.step c = .error e) : s.recorded = s.flushed := by
  rw [recorded]
  split
  · rfl
  next hsome =>
  obtain rfl := Option.some.inj (hc.symm.trans hsome)
  split
  · rfl
  · next hok => simp [he] at hok

theorem recorded_of_ok (hc : s.cursor.peek? = some c) (ht : s.step c = .ok t) :
    s.recorded = t.recorded := by
  rw [recorded]
  split
  · next hnone => simp [hc] at hnone
  next hsome =>
  obtain rfl := Option.some.inj (hc.symm.trans hsome)
  split
  · next herror => simp [ht] at herror
  · next hok => rw [Except.ok.inj (ht.symm.trans hok)]

/-- A run that ends well has the recorded tokens, in order; one that fails does so after all of
them. -/
theorem run_order (hs : s.Sound) (ho : s.Ordered) :
    (∀ t, s.run = .ok t → t.tokens = s.recorded ∧
      (t.tokens.toList.map (·.position)).Pairwise Position.Before) ∧
    ∀ e, s.run = .error e → InOrder s.recorded e.position := by
  fun_induction run s with
  | case1 s hc =>
    rw [recorded_of_end hc]
    rcases flush_order hs ho s.cursor with ⟨hf, horder⟩ | ⟨e, hf, horder⟩
    · rw [show s.flush = _ from hf]
      refine ⟨fun t ht => ?_, fun e he => ?_⟩
      · obtain rfl := Except.ok.inj ht
        exact ⟨rfl, (inOrder_iff.mp horder).1⟩
      · cases he
    · rw [show s.flush = _ from hf]
      refine ⟨fun t ht => ?_, fun e' he => ?_⟩
      · cases ht
      · rw [← Except.error.inj he]
        exact horder
  | case2 s c hc e he =>
    have horder := step_order hs ho hc
    rw [he] at horder
    rw [recorded_of_error hc he]
    refine ⟨fun t ht => ?_, fun e' he' => ?_⟩
    · cases ht
    · rw [← Except.error.inj he']
      exact horder
  | case3 s c hc t ht ih =>
    have horder := step_order hs ho hc
    have hsound := step_meaning hs hc
    rw [ht] at horder hsound
    rw [recorded_of_ok hc ht]
    exact ih hsound.1 horder

end Scanner

/-- The tokens that the scanner has recorded when it ends, well or with an error. -/
def recordedTokens (source : String) (tabWidth : UInt32) : List Token :=
  (Scanner.ofString source tabWidth).recorded.toList

theorem index_eq_of_position_eq {tokens : List Token} {i j : Nat} {t u : Token}
    (h : (tokens.map (·.position)).Pairwise Position.Before) (ht : tokens[i]? = some t)
    (hu : tokens[j]? = some u) (hpos : t.position = u.position) : i = j := by
  have hnodup : (tokens.map (·.position)).Nodup := h.imp fun hlt => hlt.ne
  have hi : i < (tokens.map (·.position)).length := by
    rw [List.length_map]
    exact (List.getElem?_eq_some_iff.mp ht).1
  apply (List.getElem?_inj hi hnodup).mp
  rw [List.getElem?_map, List.getElem?_map, ht, hu, Option.map_some, Option.map_some, hpos]

/-- As long as no coordinate can reach the largest word, positions increase from token to token, so
that they tell the tokens apart, and an error stands after all tokens recorded before it. -/
theorem tokenize_positions_increase (source : String) (tabWidth : UInt32)
    (hsize : (source.length + 1) * max 1 tabWidth.toNat < 4294967296) :
    (∀ tokens, tokenize source tabWidth = .ok tokens →
      tokens = recordedTokens source tabWidth ∧
      tokens.Pairwise (fun t u => t.position.Before u.position) ∧
      ∀ (i j : Nat) (t u : Token), tokens[i]? = some t → tokens[j]? = some u →
        t.position = u.position → i = j) ∧
    ∀ e, tokenize source tabWidth = .error e →
      ∀ t ∈ recordedTokens source tabWidth, t.position.Before e.position := by
  have hroom : (Scanner.ofString source tabWidth).cursor.HasRoom := by
    apply Position.hasRoom_start
    rw [← String.length_toList] at hsize
    exact hsize
  have hordered : (Scanner.ofString source tabWidth).Ordered :=
    Scanner.ordered_of_idle rfl hroom (List.pairwise_singleton _ _)
  obtain ⟨hok, herror⟩ := Scanner.run_order (Scanner.sound_of_idle rfl rfl) hordered
  rw [tokenize_eq_map]
  cases hrun : (Scanner.ofString source tabWidth).run with
  | ok s =>
    obtain ⟨hrecorded, horder⟩ := hok s hrun
    refine ⟨fun tokens htokens => ?_, fun e he => ?_⟩
    · obtain rfl := Except.ok.inj htokens
      exact ⟨congrArg Array.toList hrecorded, List.pairwise_map.mp horder,
        fun i j t u => index_eq_of_position_eq horder⟩
    · cases he
  | error e =>
    refine ⟨fun tokens htokens => ?_, fun e' he => ?_⟩
    · cases htokens
    · obtain rfl := Except.error.inj he
      exact (inOrder_iff.mp (herror e hrun)).2

/-- Tokens between tabs that take no column. -/
def closeTokens : List Token :=
  [⟨"a", ⟨1, 1⟩, .identifier "a"⟩, ⟨"'\t'", ⟨1, 2⟩, .literal (.string "\t")⟩,
    ⟨"\n", ⟨1, 4⟩, .separator .newline⟩, ⟨"b", ⟨2, 1⟩, .identifier "b"⟩]

/-- Tokens before a stray character; the scanner finds it with the last of them still waiting. -/
def tokensBeforeStray : List Token :=
  [⟨"a", ⟨1, 1⟩, .identifier "a"⟩, ⟨";", ⟨1, 2⟩, .separator .semicolon⟩]

theorem tokenize_positions_increase_tabs :
    tokenize "a\t'\t'\n\tb" 0 = .ok closeTokens ∧
      (⟨1, 4⟩ : Position).Before ⟨2, 1⟩ ∧
      tokenize "a\t;\t#" 0 = .error (.unrecognizedCharacter ⟨1, 3⟩ '#') ∧
      recordedTokens "a\t;\t#" 0 = tokensBeforeStray ∧
      (⟨1, 2⟩ : Position).Before ⟨1, 3⟩ := by
  have hok : tokenize "a\t'\t'\n\tb" 0 = .ok closeTokens := by decide +kernel
  have herror : tokenize "a\t;\t#" 0 = .error (.unrecognizedCharacter ⟨1, 3⟩ '#') := by
    decide +kernel
  have hrecorded : recordedTokens "a\t;\t#" 0 = tokensBeforeStray := by decide +kernel
  have horder := ((tokenize_positions_increase _ 0 (by decide)).1 _ hok).2.1
  have hafter := (tokenize_positions_increase _ 0 (by decide)).2 _ herror
  rw [hrecorded] at hafter
  simp only [closeTokens, tokensBeforeStray, List.pairwise_cons, List.mem_cons,
    forall_eq_or_imp] at horder hafter
  exact ⟨hok, horder.2.2.1.1, herror, hrecorded, hafter.2.1⟩

end ProjectD
