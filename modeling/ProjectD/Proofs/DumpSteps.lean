import ProjectD.Proofs.OutputPaths

/-! # One step of a dump into a directory

A dump first settles its plan and makes the output directory (`run_cases`). Then it deals with one
input after another, and a step does one of two things: it sets one file at the slot of the input's
output path, or it adds one record to the log (`Plan.step_cases`).
-/

set_option autoImplicit false

namespace ProjectD

theorem FileTree.map_path_tokenizeAll (tree : FileTree) (paths : List String)
    (tabWidth : UInt32) : (tree.tokenizeAll paths tabWidth).map (·.path) = paths := by
  simp [tokenizeAll, Function.comp_def]

theorem FileTree.getElem?_tokenizeAll {paths : List String} {i : Nat} {path : String}
    (h : paths[i]? = some path) (tree : FileTree) (tabWidth : UInt32) :
    (tree.tokenizeAll paths tabWidth)[i]? = some ⟨path, tree.tokenize path tabWidth⟩ := by
  rw [tokenizeAll, List.getElem?_map, h]
  rfl

namespace Dump

variable {tree made : FileTree} {settings : Settings} {request : DumpRequest}
  {format : OutputFormat} {dir : String}

/-! ## Before the first input -/

/-- A run gets as far as its inputs, which it reads in the tree `made`. -/
structure Begins (tree : FileTree) (settings : Settings) (request : DumpRequest)
    (format : OutputFormat) (made : FileTree) : Prop where
  files : request.files ≠ []
  format : chooseFormat request settings = .ok format
  directory : prepare tree request.output = (made, .ok ())

theorem Progress.log_eq_nil {p : Progress} (h : p.report.result = .ok ()) : p.log = [] := by
  unfold Progress.report at h
  dsimp only at h
  split at h
  · next hempty => exact List.isEmpty_iff.mp hempty
  · cases h

theorem run_of_format (tree : FileTree) (hfiles : request.files ≠ [])
    (hformat : chooseFormat request settings = .ok format) :
    run tree settings request =
      match prepare tree request.output with
      | (made, .error e) => .failed made e
      | (made, .ok ()) =>
        ((planOf request settings format).run made
          (made.tokenizeAll request.files settings.tabWidth)).report := by
  rw [run, List.isEmpty_eq_false_iff.mpr hfiles, hformat]
  rfl

theorem Begins.run_eq (h : Begins tree settings request format made) :
    run tree settings request =
      ((planOf request settings format).run made
        (made.tokenizeAll request.files settings.tabWidth)).report := by
  rw [run_of_format tree h.files h.format, h.directory]

theorem Begins.of_stdout (tree : FileTree) (hfiles : request.files ≠ [])
    (hformat : chooseFormat request settings = .ok format) (hout : request.output = none) :
    Begins tree settings request format tree :=
  ⟨hfiles, hformat, by rw [hout]; rfl⟩

theorem prepare_cases (tree : FileTree) (output : Option String) :
    (prepare tree output).2 = .ok () ∨
      (∃ detail, prepare tree output = (tree, .error (.validation detail))) ∨
      ∃ e, (prepare tree output).2 = .error (.io e) := by
  cases output with
  | none => exact .inl rfl
  | some dir =>
    simp only [prepare, prepareDirectory]
    split
    · exact .inr (.inl ⟨_, rfl⟩)
    · split
      · exact .inl rfl
      · exact .inr (.inr ⟨_, rfl⟩)

theorem prepare_grownBy (tree : FileTree) (dir : String) :
    FileTree.GrownBy tree (prepare tree (some dir)).1 (Path.ancestors dir) := by
  have hchain := FileTree.makeChain_grownBy tree (Path.ancestors dir)
  rw [← FileTree.makeDirectories] at hchain
  simp only [prepare, prepareDirectory]
  split
  · exact .refl tree _
  · split
    · next hmade => rwa [hmade] at hchain
    · next hmade => rwa [hmade] at hchain

theorem Begins.grownBy (h : Begins tree settings request format made)
    (hdir : request.output = some dir) : FileTree.GrownBy tree made (Path.ancestors dir) := by
  have hgrown := prepare_grownBy tree dir
  rwa [← hdir, h.directory] at hgrown

theorem Begins.result_cases (h : Begins tree settings request format made) :
    (run tree settings request).result = .ok () ∨
      ∃ n, (run tree settings request).result = .error (.filesFailed n) := by
  rw [h.run_eq, Progress.report]
  dsimp only
  split
  · exact .inl rfl
  · exact .inr ⟨_, rfl⟩

theorem Begins.error_eq {t : FileTree} {e : ToolError}
    (h : Begins tree settings request format made)
    (hrun : run tree settings request = .failed t e) : ∃ n, e = .filesFailed n := by
  rcases h.result_cases with hresult | ⟨n, hresult⟩
  · rw [hrun] at hresult
    cases hresult
  · rw [hrun] at hresult
    exact ⟨n, Except.error.inj hresult⟩

theorem chooseFormat_error {e : ToolError} (h : chooseFormat request settings = .error e) :
    ∃ detail, e = .validation detail ∨
      e = .config detail ∧ OutputFormat.ofName? settings.format = none := by
  unfold chooseFormat at h
  split at h <;> split at h <;> cases h
  · exact ⟨_, .inl rfl⟩
  · next hnone => exact ⟨_, .inr ⟨rfl, hnone⟩⟩

/-- A run reads its inputs, or refuses the request and does nothing, or fails to make the output
directory. -/
theorem run_cases (tree : FileTree) (settings : Settings) (request : DumpRequest) :
    (∃ format made, Begins tree settings request format made) ∨
      (∃ e detail, (e = .validation detail ∨
          e = .config detail ∧ OutputFormat.ofName? settings.format = none) ∧
        run tree settings request = .failed tree e) ∨
      ∃ e, run tree settings request = .failed (prepare tree request.output).1 (.io e) := by
  by_cases hfiles : request.files = []
  · refine .inr (.inl ⟨.noInput, _, .inl rfl, ?_⟩)
    rw [run, hfiles]
    rfl
  cases hformat : chooseFormat request settings with
  | error e =>
    obtain ⟨detail, he⟩ := chooseFormat_error hformat
    refine .inr (.inl ⟨e, detail, he, ?_⟩)
    rw [run, List.isEmpty_eq_false_iff.mpr hfiles, hformat]
    rfl
  | ok format =>
    rw [run_of_format tree hfiles hformat]
    rcases prepare_cases tree request.output with hok | ⟨detail, herror⟩ | ⟨e, herror⟩
    · exact .inl ⟨format, _, hfiles, hformat, Prod.ext rfl hok⟩
    · exact .inr (.inl ⟨_, detail, .inl rfl, by rw [herror]⟩)
    · have hpair : prepare tree request.output =
          ((prepare tree request.output).1, .error (.io e)) := Prod.ext rfl herror
      exact .inr (.inr ⟨e, by rw [hpair]⟩)

/-! ## One input -/

variable {plan : Plan} {p p' : Progress} {l : Lexed}

/-- The bytes that a plan writes for a token list. -/
def Plan.content (plan : Plan) (tokens : List Token) : ByteArray :=
  (plan.format.render plan.pretty tokens).toUTF8

theorem writeTokens_eq_ok_iff {t t' : FileTree} {force pretty : Bool} {path : String}
    {tokens : List Token} :
    writeTokens t dir force format pretty path tokens = .ok t' ↔
      ∃ target place, outputPath path dir format = .ok target ∧ t.Slot target place ∧
        t.get? place ≠ some .directory ∧ (force = false → t.get? place = none) ∧
        t' = t.set place (.file (format.render pretty tokens).toUTF8) := by
  unfold writeTokens
  cases htarget : outputPath path dir format with
  | error e => simp
  | ok target =>
    constructor
    · intro h
      dsimp only at h
      split at h
      · cases h
      next hfree =>
      split at h
      · cases h
      next written hwrite =>
      obtain rfl := Except.ok.inj h
      obtain ⟨place, hslot, hdir, rfl⟩ := FileTree.writeFile_eq_ok_iff.mp hwrite
      refine ⟨target, place, rfl, hslot, hdir, fun hforce => ?_, rfl⟩
      simpa [hslot.contains, hforce] using hfree
    · rintro ⟨_, place, ⟨⟩, hslot, hdir, hfree, rfl⟩
      have hwrite : t.writeFile target (format.render pretty tokens).toUTF8 = .ok _ :=
        FileTree.writeFile_eq_ok_iff.mpr ⟨place, hslot, hdir, rfl⟩
      dsimp only
      rw [if_neg, hwrite]
      cases force with
      | true => simp
      | false => simp [hslot.contains, hfree rfl]

theorem Plan.attempt_eq_ok_iff (hplan : plan.output = some dir) :
    plan.attempt p l = .ok p' ↔
      ∃ tokens target place, l.result = .ok tokens ∧
        outputPath l.path dir plan.format = .ok target ∧ p.tree.Slot target place ∧
        p.tree.get? place ≠ some .directory ∧ (plan.force = false → p.tree.get? place = none) ∧
        p' = { p with tree := p.tree.set place (.file (plan.content tokens)) } := by
  unfold Plan.attempt Plan.emit
  rw [hplan]
  cases l.result with
  | error e => simp
  | ok tokens =>
    dsimp only
    constructor
    · intro h
      split at h
      · cases h
      next tree hwrite =>
      obtain rfl := Except.ok.inj h
      obtain ⟨target, place, htarget, hslot, hdir, hfree, rfl⟩ := writeTokens_eq_ok_iff.mp hwrite
      exact ⟨tokens, target, place, rfl, htarget, hslot, hdir, hfree, rfl⟩
    · rintro ⟨_, target, place, ⟨⟩, htarget, hslot, hdir, hfree, rfl⟩
      rw [writeTokens_eq_ok_iff.mpr ⟨target, place, htarget, hslot, hdir, hfree, rfl⟩]
      rfl

theorem Plan.step_cases (plan : Plan) (p : Progress) (l : Lexed) :
    plan.attempt p l = .ok (plan.step p l) ∨ ∃ e, plan.attempt p l = .error e ∧
      plan.step p l = { p with log := p.log ++ [⟨e.message, l.path⟩] } := by
  unfold Plan.step
  cases plan.attempt p l with
  | ok written => exact .inl rfl
  | error e => exact .inr ⟨e, rfl, rfl⟩

/-- On the standard output only an input without tokens fails. -/
theorem Plan.step_stdout_cases (hplan : plan.output = none) (p : Progress) (l : Lexed) :
    (∃ tokens, l.result = .ok tokens ∧ plan.step p l = { p with
      output := p.output ++ listing plan.format plan.pretty plan.isMultiple l.path tokens }) ∨
    ∃ e, l.result = .error e ∧
      plan.step p l = { p with log := p.log ++ [⟨e.message, l.path⟩] } := by
  unfold Plan.step Plan.attempt Plan.emit
  rw [hplan]
  cases l.result with
  | ok tokens => exact .inl ⟨tokens, rfl, rfl⟩
  | error e => exact .inr ⟨e, rfl, rfl⟩

theorem Plan.run_concat (plan : Plan) (t : FileTree) (done : List Lexed) (l : Lexed) :
    plan.run t (done ++ [l]) = plan.step (plan.run t done) l := by
  simp only [Plan.run, List.foldl_append, List.foldl_cons, List.foldl_nil]

theorem getElem?_concat_cases {done : List Lexed} {l' : Lexed} {i : Nat}
    (h : (done ++ [l])[i]? = some l') :
    (i < done.length ∧ done[i]? = some l') ∨ (i = done.length ∧ l' = l) := by
  have hi := (List.getElem?_eq_some_iff.mp h).1
  rw [List.length_append, List.length_singleton] at hi
  rcases Nat.lt_or_eq_of_le (Nat.le_of_lt_succ hi) with hlt | rfl
  · exact .inl ⟨hlt, by rwa [List.getElem?_append_left hlt] at h⟩
  · rw [List.getElem?_concat_length] at h
    exact .inr ⟨rfl, (Option.some.inj h).symm⟩

end Dump

end ProjectD
