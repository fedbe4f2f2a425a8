import Mathlib.Data.List.Forall2
import ProjectD.Commands
import ProjectD.Proofs.DumpSteps
import ProjectD.Proofs.Tables

/-! # The report of a check

A check prints one line for each file, because no message has a newline in it: what a message quotes
of a source is on one line (`LexError.Possible.newline_not_mem_message`). A check and a dump to the
standard output read the same files and log the same failures (`check_report`).
-/

set_option autoImplicit false

namespace ProjectD

/-! ## Messages are on one line -/

/-- A text without a newline. -/
def OneLine (s : String) : Prop :=
  '\n' ∉ s.toList

instance (s : String) : Decidable (OneLine s) :=
  inferInstanceAs (Decidable ('\n' ∉ s.toList))

theorem OneLine.append {s t : String} (hs : OneLine s) (ht : OneLine t) : OneLine (s ++ t) := by
  rw [OneLine, String.toList_append, List.mem_append, not_or]
  exact ⟨hs, ht⟩

theorem oneLine_ofList {cs : List Char} (h : '\n' ∉ cs) : OneLine (String.ofList cs) := by
  rwa [OneLine, String.toList_ofList]

theorem oneLine_quotedChar (c : Char) : OneLine (Text.quotedChar c) := by
  have hescape := Text.newline_not_mem_escapeChar .standard (fun d => d = '\'') true c
  apply oneLine_ofList
  rw [Text.quoteChar, List.mem_cons, List.mem_append, List.mem_singleton]
  exact not_or_intro (by decide) (not_or_intro hescape (by decide))

theorem oneLine_toString (n : Nat) : OneLine (toString n) := by
  intro h
  have hdigit : '\n' ∈ Decimal.digits n := by simpa [Decimal.digits] using h
  exact absurd (Decimal.isDigit_of_mem_digits hdigit) (by decide)

theorem oneLine_position (p : Position) : OneLine p.render := fun h =>
  absurd (Position.isCellChar_of_mem_render h) (by decide)

theorem newline_not_mem_word {x : List Char} (hx : ∀ c ∈ x, isWordChar c) : '\n' ∉ x :=
  fun hmem => absurd (hx _ hmem) (by decide)

/-- What a message quotes of the source. -/
theorem LexError.Possible.oneLine_description {e : LexError} (h : e.Possible) :
    OneLine e.description := by
  -- A quotation stands between two fixed texts.
  have hquote {before after : String} {x : List Char} (hbefore : OneLine before)
      (hafter : OneLine after) (hx : '\n' ∉ x) : OneLine (before ++ String.ofList x ++ after) :=
    (hbefore.append (oneLine_ofList hx)).append hafter
  have hend : OneLine "`" := by decide
  cases h with
  | character => exact OneLine.append (by decide) (oneLine_quotedChar _)
  | string hq hline =>
    apply hquote (by decide) hend
    exact List.not_mem_cons_of_ne_of_not_mem (Piece.isQuote_ne_newline hq).symm hline
  | comment => exact (by decide : OneLine "unterminated block comment")
  | identifier _ hx =>
    apply hquote (by decide) hend
    exact fun hmem => absurd (hx _ hmem) (by decide)
  | word _ hx =>
    apply hquote (by decide) hend
    exact newline_not_mem_word hx
  | number hw _ hf =>
    apply hquote (by decide) hend
    obtain ⟨c, cs, rfl, hall⟩ := Piece.exists_cons_of_isDigits hw
    apply List.not_mem_append
    · exact newline_not_mem_word fun a ha => Piece.isWordChar_of_isDigit (hall a ha)
    · exact List.not_mem_cons_of_ne_of_not_mem (by decide) (newline_not_mem_word hf)

theorem LexError.Possible.oneLine_message {e : LexError} (h : e.Possible) : OneLine e.message :=
  ((oneLine_position _).append (by decide)).append h.oneLine_description

theorem LexemeAt.possible {x rest : List Char} {pos : Position} {e : LexError}
    (h : LexemeAt x rest) (hclass : classify (String.ofList x) pos = .error e) : e.Possible := by
  rcases h.settled pos with ⟨kind, -, hok⟩ | ⟨e', he, herror⟩
  · rw [hok] at hclass
    cases hclass
  · rw [herror] at hclass
    obtain rfl := Except.error.inj hclass
    exact he

theorem oneLine_of_tokenize {source : String} {tabWidth : UInt32} {e : LexError}
    (h : tokenize source tabWidth = .error e) : OneLine e.message := by
  rw [tokenize_eq_map, Scanner.run_ofString] at h
  have hscan := Piece.scan_findings (P := fun _ => True) (Q := LexError.Possible)
    (fun _ _ _ _ _ _ => trivial) (fun _ _ _ _ hx hclass => hx.possible hclass)
    (fun _ _ pos hf => hf.possible pos) tabWidth Position.start source.toList
  exact (hscan.2 e h).oneLine_message

/-! ## Causes of unreadable files -/

/-- The causes that have a text of their own, not one from elsewhere. -/
def FileError.isKnown : FileError → Bool
  | other _ => false
  | _ => true

theorem FileError.oneLine_message {e : FileError} (h : e.isKnown) : OneLine e.message := by
  cases e with
  | other message => cases h
  | _ => decide +kernel

theorem FileTree.isKnown_of_walk {t : FileTree} {place : Place} {parts : List String}
    {e : FileError} (h : t.walk place parts = .error e) : e.isKnown := by
  induction parts generalizing place with
  | nil => cases h
  | cons part parts ih =>
    unfold walk at h
    split at h
    · obtain rfl := Except.error.inj h
      rfl
    split at h
    · exact ih h
    split at h
    · exact ih h
    split at h
    · obtain rfl := Except.error.inj h
      rfl
    split at h
    · obtain rfl := Except.error.inj h
      rfl
    · exact ih h

theorem FileTree.isKnown_of_resolve {t : FileTree} {path : String} {e : FileError}
    (h : t.resolve path = .error e) : e.isKnown := by
  unfold resolve at h
  split at h
  · next hcheck =>
    obtain rfl := Except.error.inj h
    unfold checkPath at hcheck
    split at hcheck
    · obtain rfl := Except.error.inj hcheck
      rfl
    split at hcheck
    · obtain rfl := Except.error.inj hcheck
      rfl
    split at hcheck
    · obtain rfl := Except.error.inj hcheck
      rfl
    · cases hcheck
  · exact isKnown_of_walk h

theorem FileTree.isKnown_of_readText {t : FileTree} {path : String} {e : FileError}
    (h : t.readText path = .error e) : e.isKnown := by
  unfold readText readBytes at h
  cases hresolve : t.resolve path with
  | error cause =>
    rw [hresolve] at h
    obtain rfl := Except.error.inj h
    exact isKnown_of_resolve hresolve
  | ok place =>
    rw [hresolve] at h
    cases hget : t.get? place with
    | none =>
      simp only [hget] at h
      obtain rfl := Except.error.inj h
      rfl
    | some entry =>
      cases entry with
      | directory =>
        simp only [hget] at h
        obtain rfl := Except.error.inj h
        rfl
      | file content =>
        simp only [hget] at h
        split at h
        · cases h
        · obtain rfl := Except.error.inj h
          rfl

theorem oneLine_of_source {tree : FileTree} {path : String} {tabWidth : UInt32} {e : SourceError}
    (h : tree.tokenize path tabWidth = .error e) (hpath : OneLine path) : OneLine e.message := by
  unfold FileTree.tokenize at h
  split at h
  · next cause hread =>
    obtain rfl := Except.error.inj h
    have hcause := FileError.oneLine_message (FileTree.isKnown_of_readText hread)
    have hpresent : OneLine ("failed to read " ++ path) :=
      OneLine.append (by decide) hpath
    exact (hpresent.append (by decide)).append hcause
  · split at h
    · next e' hlex =>
      obtain rfl := Except.error.inj h
      exact oneLine_of_tokenize hlex
    · cases h

/-! ## Lines and failures of a check -/

section Check

variable {tree : FileTree} {tabWidth : UInt32} {files : List String}

/-- What a check says about the file that `path` leads to. -/
inductive ReportLine (tree : FileTree) (tabWidth : UInt32) (path : String) : String → Prop where
  | ok {tokens : List Token} (h : tree.tokenize path tabWidth = .ok tokens) :
    ReportLine tree tabWidth path (path ++ ": ok (" ++ toString tokens.length ++ " tokens)")
  | error {e : SourceError} (h : tree.tokenize path tabWidth = .error e) :
    ReportLine tree tabWidth path (path ++ ": " ++ e.message)

/-- The files that have no tokens, in order. -/
def failing (tree : FileTree) (tabWidth : UInt32) (files : List String) : List String :=
  files.filter fun path => !(tree.tokenize path tabWidth).isOk

/-- A log with one record for each file that fails, in order, with its own message. -/
structure LogsFailures (tree : FileTree) (tabWidth : UInt32) (files : List String)
    (log : List LogRecord) : Prop where
  files : log.map (·.file) = failing tree tabWidth files
  message : ∀ r ∈ log, ∃ e, tree.tokenize r.file tabWidth = .error e ∧ r.message = e.message

theorem reportLine_line (tree : FileTree) (tabWidth : UInt32) (path : String) :
    ReportLine tree tabWidth path (Lexed.line ⟨path, tree.tokenize path tabWidth⟩) := by
  unfold Lexed.line
  cases h : tree.tokenize path tabWidth with
  | error e => exact .error h
  | ok tokens =>
    have htext : path ++ ": " ++ ("ok (" ++ toString tokens.length ++ " tokens)") =
        path ++ ": ok (" ++ toString tokens.length ++ " tokens)" := by
      rw [← String.append_assoc, ← String.append_assoc, @String.append_assoc path]
      rfl
    exact htext ▸ ReportLine.ok h

theorem ReportLine.oneLine {path line : String} (h : ReportLine tree tabWidth path line)
    (hpath : OneLine path) : OneLine line := by
  cases h with
  | ok h => exact ((hpath.append (by decide)).append (oneLine_toString _)).append (by decide)
  | error h => exact (hpath.append (by decide)).append (oneLine_of_source h hpath)

/-- The log of both commands: one record for each input without tokens. -/
def failures (tree : FileTree) (tabWidth : UInt32) (files : List String) : List LogRecord :=
  (tree.tokenizeAll files tabWidth).filterMap Lexed.failure?

theorem logsFailures (tree : FileTree) (tabWidth : UInt32) (files : List String) :
    LogsFailures tree tabWidth files (failures tree tabWidth files) := by
  induction files with
  | nil => exact ⟨rfl, fun r hr => absurd hr List.not_mem_nil⟩
  | cons path files ih =>
    have hcons : failures tree tabWidth (path :: files) =
        (Lexed.failure? ⟨path, tree.tokenize path tabWidth⟩).toList ++
          failures tree tabWidth files := by
      rw [failures, FileTree.tokenizeAll, List.map_cons, List.filterMap_cons]
      cases tree.tokenize path tabWidth <;> rfl
    rw [hcons]
    cases h : tree.tokenize path tabWidth with
    | ok tokens =>
      refine ⟨?_, ih.message⟩
      rw [failing, List.filter_cons_of_neg (by simp [h, Except.isOk, Except.toBool])]
      exact ih.files
    | error e =>
      refine ⟨?_, ?_⟩
      · rw [failing, List.filter_cons_of_pos (by simp [h, Except.isOk, Except.toBool])]
        exact congrArg (path :: ·) ih.files
      · intro r hr
        rcases List.mem_cons.mp hr with rfl | hr
        · exact ⟨e, h, rfl⟩
        · exact ih.message r hr

theorem LogsFailures.length_eq {log : List LogRecord} (h : LogsFailures tree tabWidth files log) :
    log.length = (failing tree tabWidth files).length := by
  rw [← h.files, List.length_map]

theorem failing_eq_nil_iff : failing tree tabWidth files = [] ↔
    ∀ path ∈ files, ∃ tokens, tree.tokenize path tabWidth = .ok tokens := by
  rw [failing, List.filter_eq_nil_iff]
  apply forall₂_congr
  intro path _
  cases tree.tokenize path tabWidth with
  | ok tokens => simp [Except.isOk, Except.toBool]
  | error e => simp [Except.isOk, Except.toBool]

theorem failures_eq_nil_iff : failures tree tabWidth files = [] ↔
    ∀ path ∈ files, ∃ tokens, tree.tokenize path tabWidth = .ok tokens := by
  rw [← failing_eq_nil_iff, ← List.length_eq_zero_iff,
    (logsFailures tree tabWidth files).length_eq, List.length_eq_zero_iff]

/-- How a command with this log ends. -/
def verdict (log : List LogRecord) (e : ToolError) : Except ToolError Unit :=
  if log.isEmpty then .ok () else .error e

theorem verdict_eq_ok_iff {log : List LogRecord} {e : ToolError} :
    verdict log e = .ok () ↔ log = [] := by
  cases log with
  | nil => exact ⟨fun _ => rfl, fun _ => rfl⟩
  | cons r log =>
    constructor
    · intro h
      cases h
    · intro h
      cases h

theorem verdict_eq_error {log : List LogRecord} {e : ToolError} (h : log ≠ []) :
    verdict log e = .error e := by
  rw [verdict, List.isEmpty_eq_false_iff.mpr h]
  rfl

theorem check_eq (tree : FileTree) (tabWidth : UInt32) (hfiles : files ≠ []) :
    check tree tabWidth files =
      { output := String.join ((files.map fun path =>
          Lexed.line ⟨path, tree.tokenize path tabWidth⟩).map (· ++ "\n"))
        log := failures tree tabWidth files
        tree := tree
        result := verdict (failures tree tabWidth files)
          (.checksFailed (failures tree tabWidth files).length files.length) } := by
  rw [check, List.isEmpty_eq_false_iff.mpr hfiles, List.map_map]
  simp only [Bool.false_eq_true, if_false, failures, FileTree.tokenizeAll, List.map_map]
  rfl

end Check

/-! ## The same files in a dump -/

namespace Dump

variable {plan : Plan}

theorem Plan.run_log (hplan : plan.output = none) (tree : FileTree) (lexed : List Lexed) :
    (plan.run tree lexed).log = lexed.filterMap Lexed.failure? := by
  induction lexed using List.reverseRecOn with
  | nil => rfl
  | append_singleton done l ih =>
    rw [Plan.run_concat, List.filterMap_append, ← ih, List.filterMap_cons, List.filterMap_nil,
      Lexed.failure?]
    rcases plan.step_stdout_cases hplan (plan.run tree done) l with
      ⟨tokens, hresult, hstep⟩ | ⟨e, hresult, hstep⟩
    · rw [hstep, hresult]
      exact (List.append_nil _).symm
    · rw [hstep, hresult]

theorem run_eq_failures (tree : FileTree) {settings : Settings} {request : DumpRequest}
    {format : OutputFormat} (hfiles : request.files ≠ []) (hout : request.output = none)
    (hformat : chooseFormat request settings = .ok format) :
    (run tree settings request).log = failures tree settings.tabWidth request.files ∧
      (run tree settings request).result =
        verdict (failures tree settings.tabWidth request.files)
          (.filesFailed (failures tree settings.tabWidth request.files).length) := by
  have hbegins := Begins.of_stdout tree hfiles hformat hout
  have hlog := (planOf request settings format).run_log hout tree
    (tree.tokenizeAll request.files settings.tabWidth)
  rw [hbegins.run_eq, Progress.report]
  dsimp only
  rw [hlog]
  exact ⟨rfl, rfl⟩

end Dump

/-- A check prints one line for each file and fails if one of the files does. A dump of the same
files to the standard output logs the same failures and ends the same way. -/
theorem check_report (tree : FileTree) (settings : Settings) (files : List String)
    (hfiles : files ≠ []) (hpaths : ∀ path ∈ files, OneLine path) :
    (∃ lines : List String,
      (check tree settings.tabWidth files).output = String.join (lines.map (· ++ "\n")) ∧
        List.Forall₂ (ReportLine tree settings.tabWidth) files lines ∧
        ∀ line ∈ lines, OneLine line) ∧
    (∀ source tabWidth e, tokenize source tabWidth = .error e → OneLine e.message) ∧
    ((check tree settings.tabWidth files).result = .ok () ↔
      ∀ path ∈ files, ∃ tokens, tree.tokenize path settings.tabWidth = .ok tokens) ∧
    ((check tree settings.tabWidth files).result ≠ .ok () →
      (check tree settings.tabWidth files).result = .error (.commandExecution
        (toString (failing tree settings.tabWidth files).length ++ " of " ++
          toString files.length ++ " file(s) failed the lexical check"))) ∧
    LogsFailures tree settings.tabWidth files (check tree settings.tabWidth files).log ∧
    ∀ request format, request.files = files → request.output = none →
      Dump.chooseFormat request settings = .ok format →
      (Dump.run tree settings request).log = (check tree settings.tabWidth files).log ∧
      ((Dump.run tree settings request).result = .ok () ↔
        (check tree settings.tabWidth files).result = .ok ()) ∧
      ((check tree settings.tabWidth files).result ≠ .ok () →
        (Dump.run tree settings request).result = .error (.commandExecution
          (toString (failing tree settings.tabWidth files).length ++
            " file(s) failed to lex"))) := by
  have hlog := logsFailures tree settings.tabWidth files
  rw [check_eq tree settings.tabWidth hfiles]
  dsimp only
  rw [hlog.length_eq, verdict_eq_ok_iff]
  refine ⟨⟨_, rfl, ?_, ?_⟩, fun _ _ _ => oneLine_of_tokenize, failures_eq_nil_iff, ?_, hlog, ?_⟩
  · rw [List.forall₂_map_right_iff, List.forall₂_same]
    exact fun path _ => reportLine_line tree settings.tabWidth path
  · intro line hline
    obtain ⟨path, hpath, rfl⟩ := List.mem_map.mp hline
    exact (reportLine_line tree settings.tabWidth path).oneLine (hpaths path hpath)
  · exact fun hne => verdict_eq_error fun hnil => hne (verdict_eq_ok_iff.mpr hnil)
  · rintro request format rfl hout hformat
    obtain ⟨hrun, hresult⟩ := Dump.run_eq_failures tree hfiles hout hformat
    rw [hresult, verdict_eq_ok_iff, hlog.length_eq]
    exact ⟨hrun, Iff.rfl, fun hne => verdict_eq_error fun hnil => hne (verdict_eq_ok_iff.mpr hnil)⟩

/-- A source with two tokens, and one with a string that its line does not close. -/
def checkedSources : FileTree where
  entries := [(["a.pd"], .file "1 2".toUTF8), (["b.pd"], .file "'x\ny".toUTF8)]
  workingDirectory := []

theorem check_report_sources :
    (check checkedSources 4 ["b.pd", "a.pd", "c.pd"]).output =
        "b.pd: 1:1: unterminated string literal `'x`\na.pd: ok (2 tokens)\n" ++
        "c.pd: failed to read c.pd: No such file or directory (os error 2)\n" ∧
      (∃ lines : List String, (check checkedSources 4 ["b.pd", "a.pd", "c.pd"]).output =
          String.join (lines.map (· ++ "\n")) ∧
        List.Forall₂ (ReportLine checkedSources 4) ["b.pd", "a.pd", "c.pd"] lines ∧
        ∀ line ∈ lines, OneLine line) ∧
      (check checkedSources 4 ["b.pd", "a.pd", "c.pd"]).result =
        .error (.commandExecution "2 of 3 file(s) failed the lexical check") ∧
      (Dump.run checkedSources {} ⟨["b.pd", "a.pd", "c.pd"], none, false, none, false⟩).result =
        .error (.commandExecution "2 file(s) failed to lex") := by
  have hfails : (check checkedSources 4 ["b.pd", "a.pd", "c.pd"]).result ≠ .ok () := by
    decide +kernel
  obtain ⟨hlines, -, -, hcount, -, hdump⟩ := check_report checkedSources {}
    ["b.pd", "a.pd", "c.pd"] (by decide) (by decide)
  have hsame := hdump ⟨["b.pd", "a.pd", "c.pd"], none, false, none, false⟩ .json rfl rfl rfl
  have htwo : (failing checkedSources ({} : Settings).tabWidth ["b.pd", "a.pd", "c.pd"]).length =
      2 := by decide +kernel
  have hcheck := hcount hfails
  have hrun := hsame.2.2 hfails
  rw [htwo] at hcheck hrun
  exact ⟨by decide +kernel, hlines, hcheck, hrun⟩

end ProjectD
