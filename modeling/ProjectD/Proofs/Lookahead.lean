import ProjectD.Proofs.Shapes

/-! # What a piece sees of the text after it

A lexeme is ended by at most two characters after it (`LexemeAt.follow`). So it stays a lexeme when
the text is cut off at a later piece (`LexemeAt.truncate`), when text is added after the end of a
line (`LexemeAt.extend`), and when text is added that starts with a blank or a comment
(`LexemeAt.extend_filler`). The one cut that would change it lies inside the opening of a comment:
there the first slash would join an operator.
-/

set_option autoImplicit false

namespace ProjectD

open Piece

/-- All that a lexeme sees of what follows it: the first character, as far as it is of a word or a
period, whether a fraction starts there, and whether it goes on with operator symbols. -/
theorem LexemeAt.follow {x rest rest' : List Char} (h : LexemeAt x rest)
    (hhead : ∀ c, rest'.head? = some c → rest.head? = some c ∨ isWordChar c = false ∧ c ≠ '.')
    (hfraction : opensFraction rest = false → opensFraction rest' = false)
    (hrun : operatorRun (x ++ rest) = x → operatorRun (x ++ rest') = x) : LexemeAt x rest' := by
  have hword : rest.head?.any isWordChar = false → rest'.head?.any isWordChar = false := by
    intro hr
    cases hc : rest'.head? with
    | none => rfl
    | some c =>
      rcases hhead c hc with hsame | ⟨hw, -⟩
      · rwa [hsame] at hr
      · exact hw
  cases h with
  | quoted hq hline hbody hlast => exact .quoted hq hline hbody hlast
  | mark hm => exact .mark hm
  | period hr =>
    refine .period fun hc => ?_
    rcases hhead '.' hc with hsame | ⟨-, hne⟩
    · exact hr hsame
    · exact hne rfl
  | range => exact .range
  | word hne hx hr hd => exact .word hne hx (hword hr) fun hdigits => hfraction (hd hdigits)
  | number hw hd hf hr => exact .number hw hd hf (hword hr)
  | operator hne ho => exact .operator hne (hrun ho)

namespace Piece

/-! ## Cutting a text off -/

theorem opensComment_append {p : List Char} (q : List Char) (h : opensComment p) :
    opensComment (p ++ q) := by
  cases p with
  | nil => simp [opensComment] at h
  | cons c cs =>
    rw [List.cons_append, opensComment_iff]
    rw [opensComment_iff] at h
    refine ⟨h.1, ?_⟩
    rcases h.2 with hd | hd
    · exact .inl (by simp [List.head?_append, hd])
    · exact .inr (by simp [List.head?_append, hd])

theorem opensFraction_append {p : List Char} (q : List Char) (h : opensFraction p) :
    opensFraction (p ++ q) := by
  cases p with
  | nil => simp [opensFraction] at h
  | cons c cs =>
    rw [List.cons_append, opensFraction_iff]
    rw [opensFraction_iff] at h
    refine ⟨h.1, ?_⟩
    cases cs with
    | nil => simp at h
    | cons d ds => exact h.2

theorem opensFraction_of_append {p q : List Char} (h : opensFraction (p ++ q) = false) :
    opensFraction p = false := by
  rw [← Bool.not_eq_true] at h ⊢
  exact fun hp => h (opensFraction_append q hp)

/-- An operator still ends where the text is cut off, if the cut spares the opening of a comment. -/
theorem operatorRun_truncate {x p q : List Char} (h : operatorRun (x ++ (p ++ q)) = x)
    (hp : opensComment (p ++ q) → p = [] ∨ opensComment p) : operatorRun (x ++ p) = x := by
  induction x with
  | nil =>
    cases p with
    | nil => rfl
    | cons c cs =>
      rw [List.nil_append, operatorRun]
      split
      · next hc =>
        rw [Bool.and_eq_true, Bool.not_eq_true'] at hc
        have ho : opensComment (c :: (cs ++ q)) = false := by
          rw [← Bool.not_eq_true]
          intro ho
          have hcs := (hp ho).resolve_left (by simp)
          simp [hc.2] at hcs
        rw [List.nil_append, List.cons_append, operatorRun] at h
        simp [hc.1, ho] at h
      · rfl
  | cons d x ih =>
    rw [List.cons_append, operatorRun] at h ⊢
    split at h
    · next hd =>
      have hx := (List.cons.inj h).2
      rw [Bool.and_eq_true, Bool.not_eq_true'] at hd
      have ho : opensComment (d :: (x ++ p)) = false := by
        rw [← Bool.not_eq_true]
        intro ho
        have hcut := opensComment_append q ho
        rw [List.cons_append, List.append_assoc, hd.2] at hcut
        simp at hcut
      rw [if_pos (by simp [hd.1, ho]), ih hx]
    · simp at h

end Piece

/-- A lexeme stays one when the text after it is cut off anywhere but inside the opening of a
comment. -/
theorem LexemeAt.truncate {x p q : List Char} (h : LexemeAt x (p ++ q))
    (hp : opensComment (p ++ q) → p = [] ∨ opensComment p) : LexemeAt x p := by
  refine h.follow ?_ opensFraction_of_append fun ho => operatorRun_truncate ho hp
  intro c hc
  left
  rw [List.head?_append, hc]
  rfl

/-- No lexeme starts where a comment opens. -/
theorem LexemeAt.opensComment_eq_false {x rest : List Char} (h : LexemeAt x rest) :
    opensComment (x ++ rest) = false := by
  obtain ⟨c, tail, rfl⟩ := List.exists_cons_of_ne_nil h.ne_nil
  have hhead := head_lexeme h
  rw [← Bool.not_eq_true]
  intro ho
  rw [List.cons_append, opensComment_iff] at ho
  obtain ⟨rfl, hd | hd⟩ := ho
  · simp [head, isSilent, hd] at hhead
  · obtain ⟨ds, hds⟩ := List.head?_eq_some_iff.mp hd
    rw [hds] at hhead
    cases he : blockEnd? ds <;> simp [head, isSilent, he] at hhead

/-- Whether filler opens a comment does not depend on what follows it. -/
theorem Filler.opensComment_append {x : List Char} (h : Filler x) (p q : List Char)
    (ho : opensComment (x ++ p)) : opensComment (x ++ q) := by
  cases h with
  | @blank c hc =>
    rw [List.singleton_append, opensComment_iff] at ho
    rw [ho.1] at hc
    simp [isSilent] at hc
  | line => rfl
  | block => rfl

/-! ## Adding text after the end of a line -/

/-- A text whose last character is a newline. -/
def EndsLine (cs : List Char) : Prop :=
  cs.getLast? = some '\n'

theorem EndsLine.ne_nil {cs : List Char} (h : EndsLine cs) : cs ≠ [] := by
  rintro rfl
  simp [EndsLine] at h

theorem EndsLine.mem {cs : List Char} (h : EndsLine cs) : '\n' ∈ cs :=
  List.mem_of_getLast? h

/-- What stands after a first part of a text that ends a line is nothing or ends that line too. -/
theorem EndsLine.of_append {x rest : List Char} (h : EndsLine (x ++ rest)) :
    (rest = [] ∧ EndsLine x) ∨ EndsLine rest := by
  cases rest with
  | nil => exact .inl ⟨rfl, by simpa using h⟩
  | cons c cs =>
    right
    rwa [EndsLine, List.getLast?_append_of_ne_nil _ (by simp)] at h

namespace Piece

/-- After a first character that is not a newline, a text that ends a line has a second one. -/
theorem head?_append_line {c : Char} {cs : List Char} (h : EndsLine (c :: cs)) (hc : c ≠ '\n')
    (t : List Char) : (cs ++ t).head? = cs.head? := by
  cases cs with
  | nil =>
    rw [EndsLine, List.getLast?_singleton, Option.some.injEq] at h
    exact absurd h hc
  | cons d ds => rfl

theorem opensComment_append_line {cs : List Char} (h : EndsLine cs) (t : List Char) :
    opensComment (cs ++ t) = opensComment cs := by
  obtain ⟨c, ds, rfl⟩ := List.exists_cons_of_ne_nil h.ne_nil
  rw [Bool.eq_iff_iff, List.cons_append, opensComment_iff, opensComment_iff]
  refine and_congr_right ?_
  rintro rfl
  rw [head?_append_line h (by decide)]

theorem opensFraction_append_line {cs : List Char} (h : EndsLine cs) (t : List Char) :
    opensFraction (cs ++ t) = opensFraction cs := by
  obtain ⟨c, ds, rfl⟩ := List.exists_cons_of_ne_nil h.ne_nil
  rw [Bool.eq_iff_iff, List.cons_append, opensFraction_iff, opensFraction_iff]
  refine and_congr_right ?_
  rintro rfl
  rw [head?_append_line h (by decide)]

theorem operatorRun_append_line {cs : List Char} (h : EndsLine cs) (t : List Char) :
    operatorRun (cs ++ t) = operatorRun cs := by
  induction cs with
  | nil => exact absurd rfl h.ne_nil
  | cons c cs ih =>
    have ho := opensComment_append_line h t
    rw [List.cons_append] at ho ⊢
    rw [operatorRun, operatorRun, ho]
    split
    · next hc =>
      have hrest : EndsLine cs := by
        rcases EndsLine.of_append (x := [c]) h with ⟨-, hx⟩ | hrest
        · rw [EndsLine, List.getLast?_singleton, Option.some.injEq] at hx
          subst hx
          simp [isOperatorChar] at hc
        · exact hrest
      rw [ih hrest]
    · rfl

theorem isOperatorChar_of_mem_operatorRun {c : Char} {cs : List Char} (h : c ∈ operatorRun cs) :
    isOperatorChar c := by
  induction cs with
  | nil => simp [operatorRun] at h
  | cons d cs ih =>
    rw [operatorRun] at h
    split at h
    · next hd =>
      rcases List.mem_cons.mp h with rfl | h
      · rw [Bool.and_eq_true] at hd
        exact hd.1
      · exact ih h
    · simp at h

end Piece

/-- The newline is the only lexeme that holds one. -/
theorem LexemeAt.eq_newline {x rest : List Char} (h : LexemeAt x rest) (hmem : '\n' ∈ x) :
    x = ['\n'] := by
  cases h with
  | @quoted q body _ hq hline hbody hlast =>
    have hqn := (isQuote_ne_newline hq).symm
    simp [hqn, hline] at hmem
  | mark hm =>
    rw [List.mem_singleton] at hmem
    rw [hmem]
  | period hr => simp at hmem
  | range => simp at hmem
  | word hne hw hr hd => exact absurd (hw _ hmem) (by decide)
  | @number whole fraction _ hw hd hf hr =>
    rw [Decimal.isDigits, Bool.and_eq_true, List.all_eq_true] at hw
    rcases List.mem_append.mp hmem with hm | hm
    · exact absurd (hw.2 _ hm) (by decide)
    · rcases List.mem_cons.mp hm with hm | hm
      · exact absurd hm (by decide)
      · exact absurd (hf _ hm) (by decide)
  | operator hne ho =>
    rw [← ho] at hmem
    exact absurd (isOperatorChar_of_mem_operatorRun hmem) (by decide)

/-- A lexeme stays one when text is added after the end of a line. -/
theorem LexemeAt.extend {x rest : List Char} (h : LexemeAt x rest) (hline : EndsLine (x ++ rest))
    (t : List Char) : LexemeAt x (rest ++ t) := by
  rcases hline.of_append with ⟨-, hx⟩ | hrest
  · obtain rfl := h.eq_newline hx.mem
    exact .mark rfl
  refine h.follow ?_ ?_ ?_
  · intro c hc
    left
    obtain ⟨d, ds, rfl⟩ := List.exists_cons_of_ne_nil hrest.ne_nil
    exact hc
  · rw [opensFraction_append_line hrest]
    exact id
  · rw [← List.append_assoc, operatorRun_append_line hline]
    exact id

/-- So does a fault, unless it is a comment that the added text may close. -/
theorem FaultAt.extend {f : Fault} {cs : List Char} (h : FaultAt f cs) (hline : EndsLine cs)
    (hf : f ≠ .comment) (t : List Char) : FaultAt f (cs ++ t) := by
  cases h with
  | character hc => exact .character hc
  | @string q body rest hq hl hbody hr =>
    rw [List.cons_append, List.append_assoc]
    refine .string hq hl hbody (.inr ?_)
    rcases hr with rfl | hr
    · -- The text would end in the quote or in the body, which hold no newline.
      rw [List.append_nil] at hline
      rcases List.mem_cons.mp hline.mem with hq' | hmem
      · exact absurd hq'.symm (isQuote_ne_newline hq)
      · exact absurd hmem hl
    · simp [List.head?_append, hr]
  | comment => exact absurd rfl hf

theorem OpenLine.not_endsLine {x : List Char} (h : OpenLine x) : ¬ EndsLine x := by
  obtain ⟨body, hb, rfl⟩ := h
  intro hline
  have hmem := hline.mem
  simp [hb] at hmem

/-! ## Adding text that starts with a blank or a comment

Only one thing can go wrong: a slash at the end of the text and the first one of a comment would
open another comment. -/

theorem Filler.head {f : List Char} (hf : Filler f) (s : List Char) :
    ∃ c, (f ++ s).head? = some c ∧ f.head? = some c ∧ isWordChar c = false ∧ c ≠ '.' ∧ c ≠ '*' := by
  cases hf with
  | @blank c hc =>
    obtain ⟨hword, hop, hperiod⟩ := apart_of_isSilent hc
    refine ⟨c, rfl, rfl, hword, hperiod, ?_⟩
    rintro rfl
    exact absurd hop (by decide)
  | line => exact ⟨'/', rfl, rfl, by decide⟩
  | block => exact ⟨'/', rfl, rfl, by decide⟩

namespace Piece

theorem operatorRun_filler {f : List Char} (hf : Filler f) (s : List Char) :
    operatorRun (f ++ s) = [] := by
  cases hf with
  | @blank c hc =>
    simp [operatorRun, (apart_of_isSilent hc).2.1]
  | line => simp [operatorRun, opensComment]
  | block => simp [operatorRun, opensComment]

theorem opensComment_append_filler {f : List Char} (hf : Filler f) (s : List Char) {c : Char}
    {cs : List Char} (hslash : f.head? = some '/' → (c :: cs).getLast? ≠ some '/') :
    opensComment (c :: (cs ++ (f ++ s))) = opensComment (c :: cs) := by
  rw [Bool.eq_iff_iff, opensComment_iff, opensComment_iff]
  cases cs with
  | nil =>
    obtain ⟨d, hd, hfd, -, -, hstar⟩ := hf.head s
    rw [List.nil_append, hd]
    simp only [Option.some.injEq, List.head?_nil, reduceCtorEq, or_self, and_false, iff_false]
    rintro ⟨rfl, rfl | rfl⟩
    · exact hslash hfd rfl
    · exact hstar rfl
  | cons d ds => rfl

theorem opensFraction_append_filler {f : List Char} (hf : Filler f) (s : List Char)
    {cs : List Char} (h : opensFraction cs = false) : opensFraction (cs ++ (f ++ s)) = false := by
  obtain ⟨d, hd, -, hword, hperiod, -⟩ := hf.head s
  obtain ⟨ds, hds⟩ := List.head?_eq_some_iff.mp hd
  rw [← Bool.not_eq_true] at h ⊢
  rw [hds]
  cases cs with
  | nil =>
    rw [List.nil_append, opensFraction_iff]
    exact fun ho => hperiod ho.1
  | cons c cs =>
    rw [opensFraction_iff] at h
    rw [List.cons_append, opensFraction_iff]
    rintro ⟨rfl, ho⟩
    cases cs with
    | nil =>
      have hdigit : Decimal.isDigit d := by simpa using ho
      rw [isWordChar_of_isDigit hdigit] at hword
      exact absurd hword (by decide)
    | cons e es => exact h ⟨rfl, ho⟩

theorem operatorRun_append_filler {f : List Char} (hf : Filler f) (s : List Char)
    {cs : List Char} (hslash : f.head? = some '/' → cs.getLast? ≠ some '/') :
    operatorRun (cs ++ (f ++ s)) = operatorRun cs := by
  induction cs with
  | nil => exact operatorRun_filler hf s
  | cons c cs ih =>
    have hrest : f.head? = some '/' → cs.getLast? ≠ some '/' := by
      intro hhead
      cases cs with
      | nil => simp
      | cons d ds => simpa using hslash hhead
    rw [List.cons_append, operatorRun, operatorRun, opensComment_append_filler hf s hslash,
      ih hrest]

end Piece

/-- A lexeme stays one when text is added that starts with a blank or a comment. -/
theorem LexemeAt.extend_filler {x rest f : List Char} (h : LexemeAt x rest) (hf : Filler f)
    (hslash : f.head? = some '/' → (x ++ rest).getLast? ≠ some '/') (s : List Char) :
    LexemeAt x (rest ++ (f ++ s)) := by
  refine h.follow ?_ (opensFraction_append_filler hf s) ?_
  · intro c hc
    cases rest with
    | nil =>
      obtain ⟨d, hd, -, hword, hperiod, -⟩ := hf.head s
      obtain rfl : d = c := Option.some.inj (hd.symm.trans hc)
      exact .inr ⟨hword, hperiod⟩
    | cons d ds => exact .inl hc
  · rw [← List.append_assoc, operatorRun_append_filler hf s hslash]
    exact id

end ProjectD
