import ProjectD.Proofs.DumpStreams
import ProjectD.Proofs.Tables

/-! # The standard output of a dump

On the standard output each listing is trimmed at its end and then ended by a newline. Trimming
takes nothing away but the newline of a table's last row, because the escaped form of a lexeme does
not end in a blank (`LexemeAt.endsVisibly_escape`). So what is shown for an input is what its output
file would hold, up to a newline at the end (`run_output_eq_files`).
-/

set_option autoImplicit false

namespace ProjectD

/-! ## The end of a text -/

namespace Text

/-- The last character of a text is there and is no blank. -/
def EndsVisibly (cs : List Char) : Prop :=
  ∃ c, cs.getLast? = some c ∧ isBlank c = false

theorem EndsVisibly.append {cs : List Char} (h : EndsVisibly cs) (before : List Char) :
    EndsVisibly (before ++ cs) := by
  obtain ⟨c, hlast, hc⟩ := h
  refine ⟨c, ?_, hc⟩
  rw [List.getLast?_append, hlast]
  rfl

theorem endsVisibly_concat (cs : List Char) {c : Char} (h : isBlank c = false) :
    EndsVisibly (cs ++ [c]) :=
  ⟨c, List.getLast?_concat, h⟩

theorem trimEnd_of_endsVisibly {s : String} (h : EndsVisibly s.toList) : trimEnd s = s := by
  obtain ⟨c, hlast, hc⟩ := h
  have hsplit := List.dropLast_append_getLast? _ hlast
  rw [trimEnd, ← hsplit, List.reverse_append, List.reverse_singleton, List.singleton_append,
    List.dropWhile_cons_of_neg (by simp [hc]), List.reverse_cons, List.reverse_reverse, hsplit,
    String.ofList_toList]

theorem trimEnd_append_newline (s : String) : trimEnd (s ++ "\n") = trimEnd s := by
  have hlist : (s ++ "\n").toList.reverse = '\n' :: s.toList.reverse := by
    rw [String.toList_append, List.reverse_append]
    rfl
  rw [trimEnd, hlist, List.dropWhile_cons_of_pos (by decide), trimEnd]

theorem endsVisibly_of_forall {cs : List Char} (hne : cs ≠ [])
    (h : ∀ c ∈ cs, isBlank c = false) : EndsVisibly cs :=
  ⟨cs.getLast hne, List.getLast?_eq_some_getLast hne, h _ (List.getLast_mem hne)⟩

theorem endsVisibly_codePoint (c : Char) : EndsVisibly (codePoint c) :=
  endsVisibly_concat ('\\' :: 'u' :: '\x7b' :: Nat.toDigits 16 c.toNat) (by decide)

/-- A blank may be shown as itself, so only for other characters the escaped form ends visibly. -/
theorem endsVisibly_escapeChar (glyphs : Glyphs) (quotes : Char → Bool) (marks : Bool) {c : Char}
    (h : isBlank c = false) : EndsVisibly (escapeChar glyphs quotes marks c) := by
  unfold escapeChar
  split
  · exact ⟨'0', rfl, by decide⟩
  split
  · exact ⟨'t', rfl, by decide⟩
  split
  · exact ⟨'r', rfl, by decide⟩
  split
  · exact ⟨'n', rfl, by decide⟩
  split
  · exact ⟨c, rfl, h⟩
  split
  · exact endsVisibly_codePoint c
  split
  · exact ⟨c, rfl, h⟩
  · exact endsVisibly_codePoint c

theorem EndsVisibly.escape {cs : List Char} (h : EndsVisibly cs) (glyphs : Glyphs) :
    EndsVisibly (Text.escape glyphs cs) := by
  obtain ⟨c, hlast, hc⟩ := h
  rw [← List.dropLast_append_getLast? _ hlast]
  cases cs.dropLast with
  | nil =>
    rw [List.nil_append, Text.escape, List.flatMap_nil, List.append_nil]
    exact endsVisibly_escapeChar glyphs isQuote true hc
  | cons d ds =>
    rw [List.cons_append, Text.escape, List.flatMap_append, List.flatMap_singleton,
      ← List.append_assoc]
    exact (endsVisibly_escapeChar glyphs isQuote false hc).append _

theorem not_isBlank_of_isWordChar {c : Char} (h : isWordChar c) : isBlank c = false := by
  have hrange : 48 ≤ c.toNat ∧ c.toNat ≤ 122 := by
    simp only [isWordChar, isLetter, Decimal.isDigit, Bool.or_eq_true, Bool.and_eq_true,
      decide_eq_true_eq, Char.le_def, UInt32.le_iff_toNat_le] at h
    rcases h with ((h | h) | h) | rfl
    · exact ⟨Nat.le_trans (by decide) h.1, h.2⟩
    · exact ⟨Nat.le_trans (by decide) h.1, Nat.le_trans h.2 (by decide)⟩
    · exact ⟨h.1, Nat.le_trans h.2 (by decide)⟩
    · decide
  simp only [isBlank, isWithin, blankRanges, List.any_cons, List.any_nil, Bool.or_false,
    Bool.or_eq_false_iff, Bool.and_eq_false_iff, decide_eq_false_iff_not]
  omega

theorem not_isBlank_of_isOperatorChar {c : Char} (h : isOperatorChar c) : isBlank c = false := by
  simp only [isOperatorChar, Bool.or_eq_true, decide_eq_true_eq] at h
  obtain ((((((rfl | rfl) | rfl) | rfl) | rfl) | rfl) | rfl) | rfl := h <;> decide

end Text

/-! ## The end of a row -/

open Text (EndsVisibly)

theorem endsVisibly_escape_mark {c : Char} (h : Piece.isMark c) (glyphs : Text.Glyphs) :
    EndsVisibly (Text.escape glyphs [c]) := by
  by_cases hnewline : c = '\n'
  · -- The one lexeme that is a blank is always spelt out.
    subst hnewline
    exact ⟨'n', rfl, by decide⟩
  · have hc : Text.isBlank c = false := by
      revert hnewline
      simp only [Piece.isMark, isBracket, Bool.or_eq_true, decide_eq_true_eq] at h
      obtain ((((((((rfl | rfl) | rfl) | rfl) | rfl) | rfl) | rfl) | rfl) | rfl) := h <;> decide
    exact (Text.endsVisibly_concat [] hc).escape glyphs

theorem LexemeAt.endsVisibly_escape {x rest : List Char} (h : LexemeAt x rest)
    (glyphs : Text.Glyphs) : EndsVisibly (Text.escape glyphs x) := by
  cases h with
  | @quoted q body _ hq =>
    have hblank : Text.isBlank q = false := by
      obtain rfl | rfl := (Piece.isQuote_iff q).mp hq
      · decide
      · decide
    exact (Text.endsVisibly_concat (q :: body) hblank).escape glyphs
  | mark hc => exact endsVisibly_escape_mark hc glyphs
  | period => exact (Text.endsVisibly_concat [] (by decide)).escape glyphs
  | range => exact (Text.endsVisibly_concat ['.'] (by decide)).escape glyphs
  | word hne hx =>
    apply EndsVisibly.escape
    apply Text.endsVisibly_of_forall hne
    exact fun c hc => Text.not_isBlank_of_isWordChar (hx c hc)
  | @number whole fraction _ hw hd hf =>
    -- The fraction has a first digit, so it is the fraction that ends the lexeme.
    have hne : fraction ≠ [] := by
      rintro rfl
      cases hd
    apply EndsVisibly.escape
    rw [← List.singleton_append, ← List.append_assoc]
    apply EndsVisibly.append
    apply Text.endsVisibly_of_forall hne
    exact fun c hc => Text.not_isBlank_of_isWordChar (hf c hc)
  | operator hne ho =>
    apply EndsVisibly.escape
    apply Text.endsVisibly_of_forall hne
    intro c hc
    rw [← ho] at hc
    exact Text.not_isBlank_of_isOperatorChar (Piece.isOperatorChar_of_mem_operatorRun hc)

theorem endsVisibly_line_of_tokenize {source : String} {tabWidth : UInt32} {tokens : List Token}
    (h : tokenize source tabWidth = .ok tokens) (glyphs : Text.Glyphs) :
    ∀ t ∈ tokens, EndsVisibly (t.line glyphs) := by
  refine forall_mem_of_tokenize h fun x rest pos token hx hclass => ?_
  obtain ⟨hlexeme, -⟩ := classify_ok hclass
  have hend := hx.endsVisibly_escape glyphs
  rw [Token.line, hlexeme, String.toList_ofList]
  exact hend.append _

/-! ## Trimmed listings -/

/-- What trimming takes from a listing: the end of the last row, if there is one. -/
def lastBreak (format : OutputFormat) (tokens : List Token) : String :=
  if format = .text ∧ tokens ≠ [] then "\n" else ""

theorem trimEnd_renderJson (layout : Json.Layout) (tokens : List Token) :
    Text.trimEnd (renderJson layout tokens) = renderJson layout tokens := by
  apply Text.trimEnd_of_endsVisibly
  rw [renderJson, Json.render, String.toList_ofList, Json.text, ← List.cons_append]
  exact Text.endsVisibly_concat _ (by decide)

theorem trimEnd_renderTable {glyphs : Text.Glyphs} {tokens : List Token} (hne : tokens ≠ [])
    (h : ∀ t ∈ tokens, EndsVisibly (t.line glyphs)) :
    Text.trimEnd (renderTable glyphs tokens) ++ "\n" = renderTable glyphs tokens := by
  obtain ⟨rows, t, rfl⟩ : ∃ rows t, tokens = rows ++ [t] :=
    ⟨_, _, (List.dropLast_concat_getLast hne).symm⟩
  have hrows : renderTable glyphs (rows ++ [t]) =
      String.ofList (rows.flatMap (Token.row glyphs) ++ t.line glyphs) ++ "\n" := by
    rw [renderTable, List.flatMap_append, List.flatMap_singleton, Token.row_eq, ← List.append_assoc,
      String.ofList_append]
  rw [hrows, Text.trimEnd_append_newline, Text.trimEnd_of_endsVisibly]
  rw [String.toList_ofList]
  exact (h t (by simp)).append _

theorem trimEnd_render {source : String} {tabWidth : UInt32} {tokens : List Token}
    (h : tokenize source tabWidth = .ok tokens) (format : OutputFormat) (pretty : Bool) :
    Text.trimEnd (format.render pretty tokens) ++ lastBreak format tokens =
      format.render pretty tokens := by
  cases format with
  | json =>
    rw [lastBreak, if_neg (by simp), String.append_empty, OutputFormat.render, trimEnd_renderJson]
  | text =>
    by_cases hne : tokens = []
    · subst hne
      rfl
    · rw [lastBreak, if_pos ⟨rfl, hne⟩]
      exact trimEnd_renderTable hne (endsVisibly_line_of_tokenize h _)

/-! ## Source files -/

theorem FileTree.tokenize_eq_ok_iff {tree : FileTree} {path : String} {tabWidth : UInt32}
    {tokens : List Token} :
    tree.tokenize path tabWidth = .ok tokens ↔ ∃ content text, tree.readBytes path = .ok content ∧
      String.fromUTF8? content = some text ∧ ProjectD.tokenize text tabWidth = .ok tokens := by
  unfold FileTree.tokenize FileTree.readText
  cases tree.readBytes path with
  | error e => simp
  | ok content =>
    cases htext : String.fromUTF8? content with
    | none => simp [htext]
    | some text => cases htokens : ProjectD.tokenize text tabWidth <;> simp [htext, htokens]

/-- Making directories takes no source file away. -/
theorem FileTree.SameFiles.tokenize {t t' : FileTree} (h : SameFiles t t') {path : String}
    {tabWidth : UInt32} {tokens : List Token} (ht : t.tokenize path tabWidth = .ok tokens) :
    t'.tokenize path tabWidth = .ok tokens := by
  rw [tokenize_eq_ok_iff] at ht ⊢
  obtain ⟨content, text, hread, htext, htokens⟩ := ht
  obtain ⟨place, hplace, hfile⟩ := readBytes_eq_ok_iff.mp hread
  refine ⟨content, text, ?_, htext, htokens⟩
  exact readBytes_eq_ok_iff.mpr ⟨place, h.resolve path place hplace, (h.file_iff _ _).mpr hfile⟩

namespace Dump

variable {tree : FileTree} {settings : Settings} {request : DumpRequest} {format : OutputFormat}
  {plan : Plan}

/-! ## What is shown -/

/-- What is shown of an input with these tokens, if its output file would hold `text`. -/
def shown (format : OutputFormat) (tokens : List Token) (text : String) : String :=
  if format = .json then text ++ "\n" else if tokens = [] then "\n" else text

theorem body_eq_shown {source : String} {tabWidth : UInt32} {tokens : List Token}
    (h : tokenize source tabWidth = .ok tokens) (format : OutputFormat) (pretty : Bool) :
    body format pretty tokens = shown format tokens (format.render pretty tokens) := by
  have htrim := trimEnd_render h format pretty
  unfold body shown
  cases format with
  | json =>
    rw [lastBreak, if_neg (by simp), String.append_empty] at htrim
    rw [if_pos rfl, htrim]
  | text =>
    rw [if_neg (by simp)]
    by_cases hne : tokens = []
    · subst hne
      rfl
    · rw [lastBreak, if_pos ⟨rfl, hne⟩] at htrim
      rw [if_neg hne, htrim]

theorem Plan.run_output (hplan : plan.output = none) (tree : FileTree) (lexed : List Lexed) :
    (plan.run tree lexed).output = String.join (lexed.filterMap fun l =>
      l.result.toOption.map (listing plan.format plan.pretty plan.isMultiple l.path)) := by
  induction lexed using List.reverseRecOn with
  | nil => rfl
  | append_singleton done l ih =>
    rw [Plan.run_concat, List.filterMap_append, String.join_append, ← ih, List.filterMap_cons,
      List.filterMap_nil]
    rcases plan.step_stdout_cases hplan (plan.run tree done) l with
      ⟨tokens, hresult, hstep⟩ | ⟨e, hresult, hstep⟩
    · rw [hstep, hresult]
      simp [Except.toOption]
    · rw [hstep, hresult]
      exact String.append_empty.symm

theorem run_output (hout : request.output = none)
    (hformat : chooseFormat request settings = .ok format) :
    (run tree settings request).output = String.join (request.files.filterMap fun path =>
      (tree.tokenize path settings.tabWidth).toOption.map
        (listing format (request.pretty || settings.pretty) (decide (1 < request.files.length))
          path)) := by
  by_cases hfiles : request.files = []
  · rw [hfiles, run, hfiles]
    rfl
  · have hbegins := Begins.of_stdout tree hfiles hformat hout
    have houtput := (planOf request settings format).run_output hout tree
      (tree.tokenizeAll request.files settings.tabWidth)
    rw [hbegins.run_eq, Progress.report, houtput, FileTree.tokenizeAll, List.filterMap_map]
    rfl

/-! ## The same input in an output file -/

/-- The same options for other files, dumped into a directory. -/
def intoDirectory (request : DumpRequest) (files : List String) (dir : String) (force : Bool) :
    DumpRequest :=
  { request with files := files, output := some dir, force := force }

/-- Dumps into a directory leave `text` in the output file of `path`, unless they fail or a later
input has the same stem. -/
def Leaves (tree : FileTree) (settings : Settings) (request : DumpRequest) (format : OutputFormat)
    (path text : String) : Prop :=
  ∀ files dir force i, files[i]? = some path → LastOfStem files i (Path.fileStem? path) →
    (run tree settings (intoDirectory request files dir force)).result = .ok () →
    ∃ target, outputPath path dir format = .ok target ∧
      (run tree settings (intoDirectory request files dir force)).tree.readBytes target =
        .ok text.toUTF8

theorem leaves_render (hformat : chooseFormat request settings = .ok format) {path : String}
    {tokens : List Token} (htokens : tree.tokenize path settings.tabWidth = .ok tokens) :
    Leaves tree settings request format path
      (format.render (request.pretty || settings.pretty) tokens) := by
  intro files dir force i hpath hlast hok
  obtain ⟨format', made, h⟩ := Begins.of_ok hok
  obtain rfl : format = format' := Except.ok.inj (hformat.symm.trans h.format)
  have hmade := ((h.grownBy rfl).sameFiles).tokenize htokens
  rw [h.run_eq] at hok ⊢
  have hlog := Progress.log_eq_nil hok
  have hstreams := streams_run (planOf (intoDirectory request files dir force) settings format) rfl
    made (made.tokenizeAll files settings.tabWidth)
  have hl := FileTree.getElem?_tokenizeAll hpath made settings.tabWidth
  rw [hmade] at hl
  obtain ⟨_, target, ⟨⟩, htarget, hread⟩ := hstreams.readBytes hlog hl
  rw [FileTree.map_path_tokenizeAll] at hread
  exact ⟨target, htarget, hread hlast⟩

/-- On the standard output the inputs with tokens follow each other, each with what its output file
would hold. In a table of several inputs each has a heading. -/
theorem run_output_eq_files (tree : FileTree) (settings : Settings) (request : DumpRequest)
    (format : OutputFormat) (hout : request.output = none)
    (hformat : chooseFormat request settings = .ok format) :
    (run tree settings request).output = String.join (request.files.filterMap fun path =>
      (tree.tokenize path settings.tabWidth).toOption.map fun tokens =>
        (if format = .text ∧ 1 < request.files.length then "==> " ++ path ++ " <==\n" else "") ++
          shown format tokens (format.render (request.pretty || settings.pretty) tokens)) ∧
    ∀ path tokens, tree.tokenize path settings.tabWidth = .ok tokens →
      Leaves tree settings request format path
        (format.render (request.pretty || settings.pretty) tokens) ∧
      Text.trimEnd (format.render (request.pretty || settings.pretty) tokens) ++
        lastBreak format tokens = format.render (request.pretty || settings.pretty) tokens := by
  constructor
  · rw [run_output hout hformat]
    congr 1
    apply List.filterMap_congr
    intro path _
    cases htokens : tree.tokenize path settings.tabWidth with
    | error e => rfl
    | ok tokens =>
      obtain ⟨_, text, -, -, hlex⟩ := FileTree.tokenize_eq_ok_iff.mp htokens
      have hbody := body_eq_shown hlex format (request.pretty || settings.pretty)
      simp only [Except.toOption, Option.map_some, listing, heading, hbody, decide_eq_true_eq,
        and_comm]
  · intro path tokens htokens
    obtain ⟨_, text, -, -, hlex⟩ := FileTree.tokenize_eq_ok_iff.mp htokens
    exact ⟨leaves_render hformat htokens, trimEnd_render hlex format _⟩

/-- A source that ends in a blank, one that is at fault, and one without tokens. -/
def mixedSources : FileTree where
  entries := [(["a.pd"], .file "x\n".toUTF8), (["b.pd"], .file "?".toUTF8),
    (["c.pd"], .file "".toUTF8)]
  workingDirectory := []

/-- All of them as tables. -/
def mixedTables : DumpRequest where
  files := ["a.pd", "b.pd", "c.pd"]
  format := some "text"

theorem run_output_eq_files_mixed :
    (run mixedSources {} mixedTables).output =
        "==> a.pd <==\n" ++
        "1:1       Identifier              x\n1:2       Separator.NewLine       \\n\n" ++
        "==> c.pd <==\n\n" ∧
      (run mixedSources {} (intoDirectory mixedTables ["a.pd"] "o" false)).tree.readBytes
        "o/a.txt" = .ok
          "1:1       Identifier              x\n1:2       Separator.NewLine       \\n\n".toUTF8 := by
  obtain ⟨houtput, hfiles⟩ := run_output_eq_files mixedSources {} mixedTables .text rfl rfl
  have htokens : mixedSources.tokenize "a.pd" ({} : Settings).tabWidth =
      .ok [⟨"x", ⟨1, 1⟩, .identifier "x"⟩, ⟨"\n", ⟨1, 2⟩, .separator .newline⟩] := by
    decide +kernel
  obtain ⟨target, htarget, hread⟩ := (hfiles "a.pd" _ htokens).1 ["a.pd"] "o" false 0 rfl
    (fun j path hj hpath => by cases j <;> simp at hj hpath) (by decide +kernel)
  obtain rfl : "o/a.txt" = target := by
    have hname : outputPath "a.pd" "o" .text = .ok "o/a.txt" := by decide +kernel
    exact Except.ok.inj (hname.symm.trans htarget)
  have htable : OutputFormat.text.render false
      [⟨"x", ⟨1, 1⟩, .identifier "x"⟩, ⟨"\n", ⟨1, 2⟩, .separator .newline⟩] =
        "1:1       Identifier              x\n1:2       Separator.NewLine       \\n\n" := by
    decide +kernel
  rw [← htable]
  exact ⟨houtput.trans (by decide +kernel), hread⟩

end Dump

end ProjectD
