import ProjectD.Proofs.DumpAccounts

/-! # The streams that a successful dump leaves

When a dump into a directory succeeds, every input has tokens, and the output file of a stem holds
those of the last input with this stem (`LeavesStreams`). Without `force` no two inputs share a stem
then, so no stream is lost. With `force` they may, and a later input replaces the file of an earlier
one.
-/

set_option autoImplicit false

namespace ProjectD.Dump

variable {tree made t : FileTree} {settings : Settings} {request : DumpRequest}
  {format : OutputFormat} {dir : String} {plan : Plan} {p : Progress} {l : Lexed}
  {lexed done : List Lexed} {i : Nat}

/-- No input after `i` has the stem `stem`. -/
def LastOfStem (files : List String) (i : Nat) (stem : Option String) : Prop :=
  ∀ j path, i < j → files[j]? = some path → Path.fileStem? path ≠ stem

/-! ## The streams of a run -/

/-- As long as nothing is logged, every input has tokens and a slot, where those of the last input of
the stem stand. -/
structure Streams (plan : Plan) (dir : String) (t : FileTree) (done : List Lexed) (p : Progress) :
    Prop where
  filesWritten : FileTree.FilesWritten t p.tree
  stream : p.log = [] → ∀ i l, done[i]? = some l → ∃ tokens target place,
    l.result = .ok tokens ∧ outputPath l.path dir plan.format = .ok target ∧ t.Slot target place ∧
      (LastOfStem (done.map (·.path)) i (Path.fileStem? l.path) →
        p.tree.get? place = some (.file (plan.content tokens)))

theorem Streams.start (plan : Plan) (dir : String) (t : FileTree) :
    Streams plan dir t [] ⟨"", [], t⟩ :=
  ⟨.refl t, by simp⟩

theorem LastOfStem.of_concat {files : List String} {path : String} {stem : Option String}
    (h : LastOfStem (files ++ [path]) i stem) (hi : i < files.length) :
    LastOfStem files i stem ∧ Path.fileStem? path ≠ stem := by
  refine ⟨fun j path' hj hpath' => h j path' hj ?_, h files.length path hi ?_⟩
  · rw [List.getElem?_append_left (List.getElem?_eq_some_iff.mp hpath').1, hpath']
  · exact List.getElem?_concat_length

theorem Streams.step (h : Streams plan dir t done p) (hplan : plan.output = some dir) (l : Lexed) :
    Streams plan dir t (done ++ [l]) (plan.step p l) := by
  rcases plan.step_cases p l with hok | ⟨e, -, hstep⟩
  · obtain ⟨tokens, target, place, htokens, htarget, hslot, hdir, -, hstep⟩ :=
      (Plan.attempt_eq_ok_iff hplan).mp hok
    rw [hstep]
    refine ⟨h.filesWritten.trans (FileTree.filesWritten_set hslot.ne_nil hdir _), ?_⟩
    intro hlog i l' hl'
    have hset := fun q => FileTree.get?_set p.tree (q := q) hslot.ne_nil
    rw [h.filesWritten.slot_iff] at hslot
    rcases getElem?_concat_cases hl' with ⟨hi, hl'⟩ | ⟨rfl, rfl⟩
    · obtain ⟨tokens', target', place', htokens', htarget', hslot', hcontent⟩ :=
        h.stream hlog i l' hl'
      refine ⟨tokens', target', place', htokens', htarget', hslot', fun hlast => ?_⟩
      rw [List.map_append] at hlast
      obtain ⟨hlast, hstem⟩ := hlast.of_concat (by simpa using hi)
      rw [hset, if_neg, hcontent hlast]
      rintro rfl
      exact hstem (stem_eq_of_slot htarget htarget' hslot hslot')
    · exact ⟨tokens, target, place, htokens, htarget, hslot, fun _ => by rw [hset, if_pos rfl]⟩
  · rw [hstep]
    exact ⟨h.filesWritten, fun hlog => by simp at hlog⟩

theorem streams_run (plan : Plan) (hplan : plan.output = some dir) (t : FileTree)
    (lexed : List Lexed) : Streams plan dir t lexed (plan.run t lexed) := by
  induction lexed using List.reverseRecOn with
  | nil => exact .start plan dir t
  | append_singleton done l ih =>
    rw [Plan.run_concat]
    exact ih.step hplan l

theorem Streams.readBytes (h : Streams plan dir t done p) (hlog : p.log = [])
    (hl : done[i]? = some l) :
    ∃ tokens target, l.result = .ok tokens ∧ outputPath l.path dir plan.format = .ok target ∧
      (LastOfStem (done.map (·.path)) i (Path.fileStem? l.path) →
        p.tree.readBytes target = .ok (plan.content tokens)) := by
  obtain ⟨tokens, target, place, htokens, htarget, hslot, hcontent⟩ := h.stream hlog i l hl
  refine ⟨tokens, target, htokens, htarget, fun hlast => ?_⟩
  have hfile := hcontent hlast
  have hplace := (h.filesWritten.slot_iff.mpr hslot).resolve (by rw [hfile]; rfl)
  exact FileTree.readBytes_eq_ok_iff.mpr ⟨place, hplace, hfile⟩

/-- If nothing may be replaced and nothing is logged, all stems are different. -/
theorem Ledger.lastOfStem (h : Ledger plan dir t lexed p) (hlog : p.log = [])
    (hl : lexed[i]? = some l) :
    LastOfStem (lexed.map (·.path)) i (Path.fileStem? l.path) := by
  have hlogged := h.logged
  rw [hlog] at hlogged
  intro j path hij hpath hstem
  rw [List.getElem?_map] at hpath
  obtain ⟨l', hl', rfl⟩ := Option.map_eq_some_iff.mp hpath
  obtain ⟨_, _, hchosen⟩ := hlogged.written_of_nil hl
  obtain ⟨_, _, hchosen'⟩ := hlogged.written_of_nil hl'
  obtain ⟨tokens, -, htokens, -, -, -, -⟩ := hchosen.of_getElem? hl
  obtain ⟨-, -, -, -, -, hfirst, -⟩ := hchosen'.of_getElem? hl'
  exact hfirst i l hij hl hstem.symm tokens htokens

theorem Begins.of_ok (h : (run tree settings request).result = .ok ()) :
    ∃ format made, Begins tree settings request format made := by
  rcases run_cases tree settings request with hbegins | ⟨e, detail, -, hrun⟩ | ⟨e, hrun⟩
  · exact hbegins
  · rw [hrun] at h
    cases h
  · rw [hrun] at h
    cases h

/-- What a successful dump into `dir` leaves: each input has tokens, and its output file holds them,
unless `force` let a later input of the same stem replace it. -/
structure LeavesStreams (tree : FileTree) (settings : Settings) (request : DumpRequest)
    (dir : String) (format : OutputFormat) (made : FileTree) (r : Report) : Prop where
  begins : Begins tree settings request format made
  sameFiles : FileTree.SameFiles tree made
  stream : ∀ i path, request.files[i]? = some path → ∃ stem tokens,
    Path.fileStem? path = some stem ∧ made.tokenize path settings.tabWidth = .ok tokens ∧
      ((request.force = true → LastOfStem request.files i (some stem)) →
        r.tree.readBytes (Path.join dir (stem ++ "." ++ format.extension)) =
          .ok ((planOf request settings format).content tokens))

/-- A dump into a directory that ends well has found tokens in every input, and leaves those of the
last input of each stem. -/
theorem run_ok_streams (tree : FileTree) (settings : Settings) (request : DumpRequest)
    (dir : String) (hdir : request.output = some dir)
    (hok : (run tree settings request).result = .ok ()) :
    ∃ format made, LeavesStreams tree settings request dir format made
      (run tree settings request) := by
  obtain ⟨format, made, h⟩ := Begins.of_ok hok
  refine ⟨format, made, h, (h.grownBy hdir).sameFiles, fun i path hpath => ?_⟩
  rw [h.run_eq] at hok ⊢
  have hlog := Progress.log_eq_nil hok
  have hstreams := streams_run (planOf request settings format) hdir made
    (made.tokenizeAll request.files settings.tabWidth)
  have hl := FileTree.getElem?_tokenizeAll hpath made settings.tabWidth
  obtain ⟨tokens, target, htokens, htarget, hread⟩ := hstreams.readBytes hlog hl
  obtain ⟨stem, hstem, rfl⟩ := outputPath_eq_ok_iff.mp htarget
  rw [FileTree.map_path_tokenizeAll, hstem] at hread
  refine ⟨stem, tokens, hstem, htokens, fun hforced => hread ?_⟩
  cases hforce : request.force with
  | true => exact hforced hforce
  | false =>
    have hlast := (ledger_run _ hdir hforce _ _).lastOfStem hlog hl
    rwa [FileTree.map_path_tokenizeAll, hstem] at hlast

/-- Two inputs of one stem, with leave to replace files. -/
def forcedSiblings : DumpRequest where
  files := ["a/x.pd", "b/x.pd"]
  output := some "o"
  force := true

theorem run_ok_streams_siblings :
    (run siblings {} forcedSiblings).result = .ok () ∧
      ∃ format made, LeavesStreams siblings {} forcedSiblings "o" format made
        (run siblings {} forcedSiblings) :=
  have hok : (run siblings {} forcedSiblings).result = .ok () := by decide +kernel
  ⟨hok, run_ok_streams siblings {} forcedSiblings "o" rfl hok⟩

/-- The dump succeeds, but the output file of the first input does not hold its tokens. -/
theorem run_forced_loses_stream :
    (run siblings {} forcedSiblings).result = .ok () ∧
      chooseFormat forcedSiblings {} = .ok .json ∧
      outputPath "a/x.pd" "o" .json = .ok "o/x.json" ∧
      ∃ tokens, siblings.tokenize "a/x.pd" ({} : Settings).tabWidth = .ok tokens ∧
        (run siblings {} forcedSiblings).tree.find? "o/x.json" ≠
          some (.file ((planOf forcedSiblings {} .json).content tokens)) :=
  ⟨by decide +kernel, by rfl, by decide +kernel, [⟨"1", ⟨1, 1⟩, .literal (.integer 1)⟩],
    by decide +kernel⟩

end ProjectD.Dump
