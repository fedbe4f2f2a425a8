import ProjectD.Listing
import ProjectD.Proofs.Digits
import ProjectD.Proofs.Vocabulary

/-! # The text table loses nothing

A table has one row for each token, and from the rows the tokens can be told. The columns of a row
are not delimited, only padded, so a row is read from the left: the position ends at the first
blank, the width of the padding follows from it, and so it goes on with the kind; what is left is
the escaped lexeme.

* `Text.escape_injective`: escapes can be undone, whatever characters are taken for visible.
* `Token.line_injective`: a row determines position and lexeme.

The kind is that of the lexeme, so nothing more has to be read.
-/

set_option autoImplicit false

namespace ProjectD

/-- Two runs of one class that are followed by something else can be told apart. -/
theorem append_stop_inj {p : Char → Bool} {x y a b : List Char} (hx : ∀ c ∈ x, p c)
    (hy : ∀ c ∈ y, p c) (ha : a.head?.any p = false) (hb : b.head?.any p = false)
    (h : x ++ a = y ++ b) : x = y ∧ a = b := by
  have htake := congrArg (List.takeWhile p) h
  have hdrop := congrArg (List.dropWhile p) h
  rw [takeWhile_append_stop hx ha, takeWhile_append_stop hy hb] at htake
  rw [dropWhile_append_stop hx ha, dropWhile_append_stop hy hb] at hdrop
  exact ⟨htake, hdrop⟩

/-! ## Escapes -/

namespace Text

/-- The first character of an escaped text, and the text after its escape. -/
def unescapeChar? : List Char → Option (Char × List Char)
  | [] => none
  | [c] => some (c, [])
  | c :: d :: cs =>
    if c ≠ '\\' then some (c, d :: cs)
    else if d = '0' then some ('\x00', cs)
    else if d = 't' then some ('\t', cs)
    else if d = 'r' then some ('\r', cs)
    else if d = 'n' then some ('\n', cs)
    else if d = 'u' then
      let hex := (cs.drop 1).takeWhile (· ≠ '\x7d')
      some (Char.ofNat (Radix.value 16 hex), cs.drop (hex.length + 2))
    else some (d, cs)

theorem unescapeChar?_plain {c : Char} (h : c ≠ '\\') (rest : List Char) :
    unescapeChar? (c :: rest) = some (c, rest) := by
  cases rest with
  | nil => rfl
  | cons d rest => simp [unescapeChar?, h]

theorem closing_not_mem_hexDigits (n : Nat) : '\x7d' ∉ Nat.toDigits 16 n := fun h =>
  absurd (Radix.isDigitOf_of_mem_hexDigits h) (by decide)

theorem unescapeChar?_codePoint (c : Char) (rest : List Char) :
    unescapeChar? (codePoint c ++ rest) = some (c, rest) := by
  have hhex : (Nat.toDigits 16 c.toNat ++ '\x7d' :: rest).takeWhile
      (fun d => !decide (d = '\x7d')) = Nat.toDigits 16 c.toNat := by
    have hclose : ('\x7d' :: rest).head? = some '\x7d' := rfl
    simpa using takeWhile_ne_append (closing_not_mem_hexDigits c.toNat) (.inr hclose)
  simp [codePoint, unescapeChar?, hhex, Radix.value_hexDigits]

theorem unescapeChar?_escapeChar (glyphs : Glyphs) (marks : Bool) (c : Char) (rest : List Char) :
    unescapeChar? (escapeChar glyphs isQuote marks c ++ rest) = some (c, rest) := by
  unfold escapeChar
  split
  · next h => rw [h]; rfl
  split
  · next h => rw [h]; rfl
  split
  · next h => rw [h]; rfl
  split
  · next h => rw [h]; rfl
  split
  · next h =>
    -- A backslash or a quote, which spells no other escape.
    simp only [isQuote, Bool.or_eq_true, decide_eq_true_eq] at h
    rcases h with rfl | rfl | rfl <;> rfl
  next h =>
  split
  · exact unescapeChar?_codePoint c rest
  split
  · refine unescapeChar?_plain ?_ rest
    rintro rfl
    simp at h
  · exact unescapeChar?_codePoint c rest

theorem escapeChar_append_inj {glyphs : Glyphs} {marks : Bool} {c d : Char} {x y : List Char}
    (h : escapeChar glyphs isQuote marks c ++ x = escapeChar glyphs isQuote marks d ++ y) :
    c = d ∧ x = y := by
  have hread := congrArg unescapeChar? h
  rw [unescapeChar?_escapeChar, unescapeChar?_escapeChar, Option.some.injEq,
    Prod.mk.injEq] at hread
  exact hread

theorem escapeChar_append_ne_nil (glyphs : Glyphs) (marks : Bool) (c : Char) (rest : List Char) :
    escapeChar glyphs isQuote marks c ++ rest ≠ [] := by
  intro h
  have hread := unescapeChar?_escapeChar glyphs marks c rest
  rw [h] at hread
  cases hread

theorem flatMap_escapeChar_injective (glyphs : Glyphs) {cs ds : List Char}
    (h : cs.flatMap (escapeChar glyphs isQuote false) =
      ds.flatMap (escapeChar glyphs isQuote false)) : cs = ds := by
  induction cs generalizing ds with
  | nil =>
    cases ds with
    | nil => rfl
    | cons d ds => exact absurd h.symm (escapeChar_append_ne_nil _ _ _ _)
  | cons c cs ih =>
    cases ds with
    | nil => exact absurd h (escapeChar_append_ne_nil _ _ _ _)
    | cons d ds =>
      obtain ⟨rfl, hrest⟩ := escapeChar_append_inj h
      rw [ih hrest]

theorem escape_injective (glyphs : Glyphs) {cs ds : List Char}
    (h : escape glyphs cs = escape glyphs ds) : cs = ds := by
  cases cs with
  | nil =>
    cases ds with
    | nil => rfl
    | cons d ds => exact absurd h.symm (escapeChar_append_ne_nil _ _ _ _)
  | cons c cs =>
    cases ds with
    | nil => exact absurd h (escapeChar_append_ne_nil _ _ _ _)
    | cons d ds =>
      obtain ⟨rfl, hrest⟩ := escapeChar_append_inj h
      rw [flatMap_escapeChar_injective glyphs hrest]

theorem newline_not_mem_codePoint (c : Char) : '\n' ∉ codePoint c := by
  have hhex : '\n' ∉ Nat.toDigits 16 c.toNat := fun h =>
    absurd (Radix.isDigitOf_of_mem_hexDigits h) (by decide)
  simp [codePoint, hhex]

theorem newline_not_mem_escapeChar (glyphs : Glyphs) (quotes : Char → Bool) (marks : Bool)
    (c : Char) : '\n' ∉ escapeChar glyphs quotes marks c := by
  unfold escapeChar
  split
  · decide
  split
  · decide
  split
  · decide
  split
  · decide
  next hnewline =>
  split
  · simp [Ne.symm hnewline]
  split
  · exact newline_not_mem_codePoint c
  split
  · simpa using Ne.symm hnewline
  · exact newline_not_mem_codePoint c

theorem newline_not_mem_escape (glyphs : Glyphs) (cs : List Char) : '\n' ∉ escape glyphs cs := by
  cases cs with
  | nil => simp [escape]
  | cons c cs =>
    simp only [escape, List.mem_append, List.mem_flatMap, not_or, not_exists, not_and]
    exact ⟨newline_not_mem_escapeChar _ _ _ _, fun d _ => newline_not_mem_escapeChar _ _ _ _⟩

end Text

/-! ## Positions and kinds -/

namespace Position

theorem toList_render (p : Position) :
    p.render.toList = Decimal.digits p.line.toNat ++ ':' :: Decimal.digits p.column.toNat := by
  simp [render, Decimal.digits]

theorem render_injective {p q : Position} (h : p.render.toList = q.render.toList) : p = q := by
  rw [toList_render, toList_render] at h
  obtain ⟨hline, hrest⟩ := append_stop_inj (fun _ hc => Decimal.isDigit_of_mem_digits hc)
    (fun _ hc => Decimal.isDigit_of_mem_digits hc) rfl rfl h
  have hcolumn := (List.cons.inj hrest).2
  have hl : p.line = q.line := UInt32.toNat_inj.mp (Decimal.digits_injective hline)
  have hc : p.column = q.column := UInt32.toNat_inj.mp (Decimal.digits_injective hcolumn)
  exact congr (congrArg Position.mk hl) hc

theorem mem_render {p : Position} {c : Char} (h : c ∈ p.render.toList) :
    Decimal.isDigit c ∨ c = ':' := by
  rw [toList_render, List.mem_append, List.mem_cons] at h
  rcases h with h | rfl | h
  · exact .inl (Decimal.isDigit_of_mem_digits h)
  · exact .inr rfl
  · exact .inl (Decimal.isDigit_of_mem_digits h)

end Position

/-- Characters of positions and kinds: neither a blank that pads them nor one that ends a row. -/
def isCellChar (c : Char) : Bool :=
  c ≠ ' ' && c ≠ '\n'

theorem Position.isCellChar_of_mem_render {p : Position} {c : Char} (h : c ∈ p.render.toList) :
    isCellChar c := by
  rcases mem_render h with hc | rfl
  · rw [isCellChar, Bool.and_eq_true, decide_eq_true_eq, decide_eq_true_eq]
    constructor <;> rintro rfl <;> exact absurd hc (by decide)
  · decide

theorem Kind.isCellChar_of_mem_label {kind : Kind} {c : Char} (h : c ∈ kind.label.toList) :
    isCellChar c := by
  have hall : kind.label.toList.all isCellChar := by
    cases kind with
    | separator s => cases s <;> decide
    | operator o => cases o <;> decide
    | keyword k => cases k <;> decide
    | literal l => cases l <;> simp only [Kind.label, Literal.name] <;> decide
    | identifier name => simp only [Kind.label]; decide
  exact List.all_eq_true.mp hall c h

/-! ## Rows -/

/-- Cells of one column: the padding does not hide where the text of a cell ends. -/
theorem padRight_append_inj {width : Nat} {x y a b : List Char} (hx : ∀ c ∈ x, isCellChar c)
    (hy : ∀ c ∈ y, isCellChar c) (h : padRight width x ++ ' ' :: a = padRight width y ++ ' ' :: b) :
    x = y ∧ a = b := by
  have hblank (n : Nat) (rest : List Char) :
      (List.replicate n ' ' ++ ' ' :: rest).head?.any isCellChar = false := by
    cases n <;> rfl
  rw [padRight, padRight, List.append_assoc, List.append_assoc] at h
  obtain ⟨rfl, hrest⟩ := append_stop_inj hx hy (hblank _ _) (hblank _ _) h
  exact ⟨rfl, (List.cons.inj (List.append_cancel_left hrest)).2⟩

namespace Token

/-- A row without the newline that ends it. -/
def line (glyphs : Text.Glyphs) (t : Token) : List Char :=
  padRight 8 t.position.render.toList ++ [' ', ' '] ++ padRight 22 t.kind.label.toList ++
    [' ', ' '] ++ Text.escape glyphs t.lexeme.toList

theorem row_eq (glyphs : Text.Glyphs) (t : Token) : t.row glyphs = t.line glyphs ++ ['\n'] :=
  rfl

theorem newline_not_mem_line (glyphs : Text.Glyphs) (t : Token) : '\n' ∉ t.line glyphs := by
  have hposition : '\n' ∉ t.position.render.toList := fun h =>
    absurd (Position.isCellChar_of_mem_render h) (by decide)
  have hkind : '\n' ∉ t.kind.label.toList := fun h =>
    absurd (Kind.isCellChar_of_mem_label h) (by decide)
  simp [line, padRight, hposition, hkind, Text.newline_not_mem_escape]

theorem line_injective {glyphs : Text.Glyphs} {t u : Token} (h : t.line glyphs = u.line glyphs) :
    t.lexeme = u.lexeme ∧ t.position = u.position := by
  simp only [line, List.append_assoc, List.cons_append, List.nil_append] at h
  obtain ⟨hposition, h⟩ := padRight_append_inj (fun _ => Position.isCellChar_of_mem_render)
    (fun _ => Position.isCellChar_of_mem_render) h
  obtain ⟨-, h⟩ := padRight_append_inj (fun _ => Kind.isCellChar_of_mem_label)
    (fun _ => Kind.isCellChar_of_mem_label) (List.cons.inj h).2
  have hlexeme := Text.escape_injective glyphs (List.cons.inj h).2
  exact ⟨String.toList_injective hlexeme, Position.render_injective hposition⟩

end Token

theorem flatMap_row_injective {glyphs : Text.Glyphs} {ts us : List Token}
    (h : ts.flatMap (Token.row glyphs) = us.flatMap (Token.row glyphs)) :
    ts.map (Token.line glyphs) = us.map (Token.line glyphs) := by
  induction ts generalizing us with
  | nil =>
    cases us with
    | nil => rfl
    | cons u us => simp [Token.row_eq] at h
  | cons t ts ih =>
    cases us with
    | nil => simp [Token.row_eq] at h
    | cons u us =>
      have hinside (v : Token) : ∀ c ∈ v.line glyphs, decide (c ≠ '\n') := fun c hc =>
        decide_eq_true fun hn => v.newline_not_mem_line glyphs (hn ▸ hc)
      simp only [List.flatMap_cons, Token.row_eq, List.append_assoc] at h
      obtain ⟨hline, hrest⟩ := append_stop_inj (hinside t) (hinside u) rfl rfl h
      rw [List.map_cons, List.map_cons, hline, ih (List.cons.inj hrest).2]

/-! ## Tables -/

/-- Every token of a scan is what its lexeme stands for at its position. -/
theorem classify_of_tokenize {source : String} {tabWidth : UInt32} {tokens : List Token}
    (h : tokenize source tabWidth = .ok tokens) :
    ∀ t ∈ tokens, classify t.lexeme t.position = .ok t := by
  refine forall_mem_of_tokenize h fun x rest pos token _ hclass => ?_
  obtain ⟨hlexeme, hposition⟩ := classify_ok hclass
  rw [hlexeme, hposition, hclass]

theorem eq_of_map_line_eq {glyphs : Text.Glyphs} {ts us : List Token}
    (ht : ∀ t ∈ ts, classify t.lexeme t.position = .ok t)
    (hu : ∀ u ∈ us, classify u.lexeme u.position = .ok u)
    (h : ts.map (Token.line glyphs) = us.map (Token.line glyphs)) : ts = us := by
  induction ts generalizing us with
  | nil => exact (List.map_eq_nil_iff.mp h.symm).symm
  | cons t ts ih =>
    cases us with
    | nil => cases h
    | cons u us =>
      rw [List.map_cons, List.map_cons, List.cons.injEq] at h
      rw [List.forall_mem_cons] at ht hu
      obtain ⟨hlexeme, hposition⟩ := Token.line_injective h.1
      have hclass := ht.1
      rw [hlexeme, hposition, hu.1] at hclass
      rw [Except.ok.inj hclass, ih ht.2 hu.2 h.2]

/-- A table has one line for each token, in their order, each ended by the only newlines that there
are; and sources with the same table have the same tokens. -/
theorem renderTable_lossless (glyphs : Text.Glyphs) {source source' : String}
    {tabWidth tabWidth' : UInt32} {tokens tokens' : List Token}
    (h : tokenize source tabWidth = .ok tokens) (h' : tokenize source' tabWidth' = .ok tokens') :
    ((renderTable glyphs tokens).toList = (tokens.map (Token.line glyphs)).flatMap (· ++ ['\n']) ∧
        ∀ line ∈ tokens.map (Token.line glyphs), '\n' ∉ line) ∧
      (renderTable glyphs tokens = renderTable glyphs tokens' → tokens = tokens') := by
  refine ⟨⟨?_, ?_⟩, fun heq => ?_⟩
  · rw [renderTable, String.toList_ofList, List.flatMap_map]
    rfl
  · intro line hline
    obtain ⟨t, -, rfl⟩ := List.mem_map.mp hline
    exact t.newline_not_mem_line glyphs
  · have hrows := String.ofList_injective heq
    exact eq_of_map_line_eq (classify_of_tokenize h) (classify_of_tokenize h')
      (flatMap_row_injective hrows)

/-- A tab in a string, and a backslash and the letter that stand for one in the table. -/
theorem renderTable_lossless_tab :
    tokenize "'\t'" 4 = .ok [⟨"'\t'", ⟨1, 1⟩, .literal (.string "\t")⟩] ∧
      tokenize "'\\t'" 8 = .ok [⟨"'\\t'", ⟨1, 1⟩, .literal (.string "\\t")⟩] ∧
      '\n' ∉ Token.line .standard ⟨"'\t'", ⟨1, 1⟩, .literal (.string "\t")⟩ ∧
      renderTable .standard [⟨"'\t'", ⟨1, 1⟩, .literal (.string "\t")⟩] ≠
        renderTable .standard [⟨"'\\t'", ⟨1, 1⟩, .literal (.string "\\t")⟩] := by
  have htab : tokenize "'\t'" 4 = .ok [⟨"'\t'", ⟨1, 1⟩, .literal (.string "\t")⟩] := by
    decide +kernel
  have hletter : tokenize "'\\t'" 8 = .ok [⟨"'\\t'", ⟨1, 1⟩, .literal (.string "\\t")⟩] := by
    decide +kernel
  obtain ⟨⟨-, hline⟩, hsame⟩ := renderTable_lossless .standard htab hletter
  exact ⟨htab, hletter, hline _ (List.mem_singleton_self _),
    fun heq => absurd (hsame heq) (by decide)⟩

end ProjectD
