import ProjectD.Proofs.FirstError
import ProjectD.Proofs.Reconstruction

/-! # A comment stands for a space

Where a comment ends, nothing is left of what it held and nothing of the lexeme that it cut off. So
a comment in the middle of a text can be replaced by a space: the scan finds the same, at other
positions (`SameFindings`).

* `Piece.scan_append_filler`: a text in front of a blank or a comment is scanned on its own.
* `Piece.scan_sameFindings`: the later text is scanned alike wherever it starts.
-/

set_option autoImplicit false

namespace ProjectD

/-- Tokens of the same lexemes and kinds in the same order, or the same error with the same
character, lexeme or text. Positions may differ. -/
inductive SameFindings : Except LexError (List Token) → Except LexError (List Token) → Prop where
  | ok {ts ts' : List Token} (h : ts.map Token.content = ts'.map Token.content) :
    SameFindings (.ok ts) (.ok ts')
  | error (e : LexError) (pos : Position) :
    SameFindings (.error e) (.error (e.moved fun _ => pos))

/-- A text that ends inside a line comment: a newline does not follow the last two slashes, and what
stands before them has tokens of its own, so that they open a comment. -/
def EndsInLineComment (tabWidth : UInt32) (p : String) : Prop :=
  ∃ q body : String, p = q ++ "//" ++ body ∧ '\n' ∉ body.toList ∧
    ∃ ts, tokenize q tabWidth = .ok ts

theorem SameFindings.map_append {r r' : Except LexError (List Token)} (h : SameFindings r r')
    (ts : List Token) : SameFindings (r.map (ts ++ ·)) (r'.map (ts ++ ·)) := by
  cases h with
  | ok h =>
    refine .ok ?_
    rw [List.map_append, List.map_append, h]
  | error e pos => exact .error e pos

namespace Piece

theorem scan_sameFindings (w w' : UInt32) (pos pos' : Position) (cs : List Char) :
    SameFindings (scan w pos cs) (scan w' pos' cs) := by
  cases h : scan w pos cs with
  | ok ts =>
    obtain ⟨gaps, last, hall⟩ := scan_layout_uniform h
    obtain ⟨ts', hs, -, hc⟩ := hall w' pos'
    rw [hs]
    exact .ok hc.symm
  | error e =>
    obtain ⟨before, rest, -, -, -, hall, -⟩ := scan_error_uniform h
    rw [hall]
    exact .error e _

/-- Two slashes that open a comment at the head of a text stand in its first part, or right after
it, or around its end. -/
theorem opensComment_cut {q body : List Char} (h : opensComment (q ++ '/' :: '/' :: body)) :
    q = ['/'] ∨ q = [] ∨ opensComment q := by
  cases q with
  | nil => exact .inr (.inl rfl)
  | cons c cs =>
    rw [List.cons_append, opensComment_iff] at h
    obtain ⟨rfl, h⟩ := h
    cases cs with
    | nil => exact .inl rfl
    | cons d ds => exact .inr (.inr (opensComment_iff.mpr ⟨rfl, h⟩))

theorem getLast?_ne_of_append {x rest : List Char} {c : Char}
    (h : (x ++ rest).getLast? ≠ some c) : rest.getLast? ≠ some c := by
  cases rest with
  | nil => simp
  | cons d ds => rwa [List.getLast?_append_of_ne_nil x (by simp)] at h

/-- A text before a blank or a comment is scanned as if it stood alone, unless it ends inside a line
comment or its last slash would join the comment. -/
theorem scan_append_filler {w : UInt32} {pos : Position} {cs f : List Char} {ts : List Token}
    (h : scan w pos cs = .ok ts) (hf : Filler f)
    (hslash : f.head? = some '/' → cs.getLast? ≠ some '/')
    (hopen : ∀ q body, cs = q ++ '/' :: '/' :: body → '\n' ∉ body → ∀ ts, scan w pos q ≠ .ok ts)
    (s : List Char) :
    scan w pos (cs ++ (f ++ s)) =
      (scan w (pos.advanceOver w (cs ++ f)) s).map (ts ++ ·) := by
  induction cs using pieces_induction generalizing pos ts with
  | nil =>
    obtain rfl : [] = ts := by simpa using h
    rw [List.nil_append, List.nil_append, scan_filler hf]
    cases scan w (pos.advanceOver w f) s <;> rfl
  | filler x rest hx ih =>
    rw [scan_filler hx] at h
    have hslash' := fun hhead => getLast?_ne_of_append (hslash hhead)
    rw [List.append_assoc, List.append_assoc, scan_filler hx, Position.advanceOver_append]
    refine ih h hslash' ?_
    intro q body hrest hbody ts' hq
    refine hopen (x ++ q) body (by rw [hrest, List.append_assoc]) hbody ts' ?_
    rw [scan_filler hx, hq]
  | openLine x hx =>
    obtain ⟨body, hbody, rfl⟩ := hx
    exact absurd scan_nil (hopen [] body rfl hbody [])
  | lexeme x rest hx ih =>
    have hslash' := fun hhead => getLast?_ne_of_append (hslash hhead)
    have hx' : LexemeAt x (rest ++ (f ++ s)) := hx.extend_filler hf hslash s
    obtain ⟨token, ts', hc, hs, rfl⟩ := scan_lexeme_eq_ok hx h
    have hopen' : ∀ q body, rest = q ++ '/' :: '/' :: body → '\n' ∉ body →
        ∀ us, scan w (pos.advanceOver w x) q ≠ .ok us := by
      intro q body hq hbody us hus
      -- The lexeme `x` stays one before `q`, unless the cut divides the slashes of a comment that
      -- opens right after `x`.
      by_cases hcut : q = ['/']
      · subst hcut
        have hx₀ : LexemeAt x [] := LexemeAt.truncate (p := []) hx fun _ => .inl rfl
        refine hopen x ('/' :: body) (by rw [hq]; rfl) (by simpa using hbody) [token] ?_
        rw [← List.append_nil x, scan_lexeme_ok hx₀ hc, scan_nil]
        rfl
      · have hxq : LexemeAt x q := by
          rw [hq] at hx
          exact hx.truncate fun ho => (opensComment_cut ho).resolve_left hcut
        refine hopen (x ++ q) body (by rw [hq, List.append_assoc]) hbody (token :: us) ?_
        rw [scan_lexeme_ok hxq hc, hus]
        rfl
    rw [List.append_assoc, List.append_assoc, scan_lexeme_ok hx' hc, ih hs hslash' hopen',
      Position.advanceOver_append w pos x (rest ++ f)]
    cases scan w ((pos.advanceOver w x).advanceOver w (rest ++ f)) s <;> rfl
  | fault e cs he => simp [scan_fault he] at h

end Piece

open Piece

theorem tokenize_append_filler {p c s : String} {w : UInt32} {ts : List Token}
    (hp : tokenize p w = .ok ts) (hc : Filler c.toList)
    (hslash : c.toList.head? = some '/' → p.toList.getLast? ≠ some '/')
    (hline : ¬ EndsInLineComment w p) :
    ∃ pos, tokenize (p ++ c ++ s) w = (scan w pos s.toList).map (ts ++ ·) := by
  rw [tokenize_eq_map, Scanner.run_ofString] at hp
  have hopen : ∀ q body, p.toList = q ++ '/' :: '/' :: body → '\n' ∉ body →
      ∀ ts, scan w Position.start q ≠ .ok ts := by
    intro q body hpq hbody us hus
    refine hline ⟨String.ofList q, String.ofList body, ?_, ?_, us, ?_⟩
    · rw [← String.toList_inj, hpq]
      simp
    · rwa [String.toList_ofList]
    · rw [tokenize_eq_map, Scanner.run_ofString, String.toList_ofList, hus]
  have hscan := scan_append_filler hp hc hslash hopen s.toList
  refine ⟨Position.start.advanceOver w (p.toList ++ c.toList), ?_⟩
  rw [tokenize_eq_map, Scanner.run_ofString, String.toList_append, String.toList_append,
    List.append_assoc, hscan]

/-- A comment is a space: after a text that has tokens, does not end with a slash and does not end
inside a line comment, any comment can be replaced by a space, whatever follows. -/
theorem tokenize_comment_sameFindings {p c : String} {w : UInt32} {ts : List Token}
    (hp : tokenize p w = .ok ts) (hslash : p.toList.getLast? ≠ some '/')
    (hline : ¬ EndsInLineComment w p) (hc : Filler c.toList) (s : String) :
    SameFindings (tokenize (p ++ c ++ s) w) (tokenize (p ++ " " ++ s) w) := by
  have hspace : Filler " ".toList := .blank (c := ' ') rfl
  obtain ⟨pos, hcomment⟩ := tokenize_append_filler (s := s) hp hc (fun _ => hslash) hline
  obtain ⟨pos', hblank⟩ := tokenize_append_filler (s := s) hp hspace (fun _ => hslash) hline
  rw [hcomment, hblank]
  exact (scan_sameFindings w w pos pos' s.toList).map_append ts

/-- The tokens before the comment. -/
def assignmentTokens : List Token :=
  [⟨"x", ⟨1, 1⟩, .identifier "x"⟩, ⟨":=", ⟨1, 2⟩, .operator .assign⟩,
    ⟨"1", ⟨1, 4⟩, .literal (.integer 1)⟩]

/-- The comment parts the digits from the period, and neither the quote nor the stray character in
it matters. -/
theorem tokenize_comment_sameFindings_number :
    tokenize "x:=1" 4 = .ok assignmentTokens ∧
      SameFindings (tokenize ("x:=1" ++ "/* '/*#* **/" ++ ".5") 4)
        (tokenize ("x:=1" ++ " " ++ ".5") 4) := by
  have hp : tokenize "x:=1" 4 = .ok assignmentTokens := by decide +kernel
  have hline : ¬ EndsInLineComment 4 "x:=1" := by
    rintro ⟨q, body, hq, -⟩
    have hinfix : ['/', '/'] <:+: "x:=1".toList := ⟨q.toList, body.toList, by simp [hq]⟩
    exact absurd hinfix (by decide)
  have hbody : ¬ ['*', '/'] <:+: " '/*#* *".toList ++ ['*'] := by decide
  have hc : Filler "/* '/*#* **/".toList := .block hbody
  exact ⟨hp, tokenize_comment_sameFindings hp (by decide) hline hc ".5"⟩

end ProjectD
