import Mathlib.Data.List.Forall2
import ProjectD.Proofs.DumpSteps
import ProjectD.Proofs.RepeatedWrites

/-! # A dump that is run again

With `force`, what a dump into a directory makes of an input is settled by the input and by the
directories of the tree (`Plan.effect`). No file that the dump writes has a say in it, so a run is a
list of writes and a list of faults, both read off the tree in which it begins (`Plan.run_forced`).

A second run finds the output directory made and reads the same sources, unless an output file is
one of them. It writes the same again, which leaves the tree as it is (`run_forced_again`). Only one
trace of the first run can show: a source below an output file is missing at first, and later it is
in a place that is no directory.
-/

set_option autoImplicit false

namespace ProjectD

theorem FileTree.tokenize_congr {t t' : FileTree} {path : String}
    (h : t'.readBytes path = t.readBytes path) (tabWidth : UInt32) :
    t'.tokenize path tabWidth = t.tokenize path tabWidth := by
  rw [FileTree.tokenize, FileTree.tokenize, FileTree.readText, FileTree.readText, h]

theorem FileTree.tokenize_of_error {t : FileTree} {path : String} {e : FileError}
    (h : t.readBytes path = .error e) (tabWidth : UInt32) :
    t.tokenize path tabWidth = .error (.unreadable path e) := by
  rw [FileTree.tokenize, FileTree.readText, h]

namespace Dump

variable {tree made t : FileTree} {settings : Settings} {request : DumpRequest}
  {format : OutputFormat} {dir : String} {plan : Plan} {l : Lexed} {lexed : List Lexed}

/-! ## The output directory -/

theorem made_of_prepare (h : prepare tree (some dir) = (made, .ok ())) : made.Made dir := by
  simp only [prepare, prepareDirectory] at h
  split at h
  · cases h
  split at h
  · next grown hgrown =>
    obtain ⟨rfl, -⟩ := Prod.mk.inj h
    exact FileTree.made_of_makeDirectories hgrown
  · cases h

theorem prepare_of_made (h : t.Made dir) : prepare t (some dir) = (t, .ok ()) := by
  have hdir : (t.contains dir && !t.isDirectory dir) = false := by
    cases hthere : t.contains dir with
    | false => rfl
    | true => simp [h.isDirectory hthere]
  simp [prepare, prepareDirectory, hdir, h.makeDirectories]

/-! ## One input -/

/-- What becomes of an input: a file to be written, or a reason why there is none. -/
def Plan.effect (plan : Plan) (dir : String) (t : FileTree) (l : Lexed) :
    Except ToolError (Place × ByteArray) :=
  match l.result with
  | .error e => .error (.source e)
  | .ok tokens =>
    match outputPath l.path dir plan.format with
    | .error e => .error e
    | .ok target =>
      match t.slot? target with
      | .error e => .error (.io e)
      | .ok place => .ok (place, plan.content tokens)

def Plan.write? (plan : Plan) (dir : String) (t : FileTree) (l : Lexed) :
    Option (Place × ByteArray) :=
  (plan.effect dir t l).toOption

def Plan.fault? (plan : Plan) (dir : String) (t : FileTree) (l : Lexed) : Option LogRecord :=
  match plan.effect dir t l with
  | .ok _ => none
  | .error e => some ⟨e.message, l.path⟩

theorem Plan.attempt_forced (hplan : plan.output = some dir) (hforce : plan.force = true)
    (p : Progress) (l : Lexed) :
    plan.attempt p l =
      (plan.effect dir p.tree l).map fun w => { p with tree := p.tree.set w.1 (.file w.2) } := by
  unfold Plan.attempt Plan.effect Plan.emit
  rw [hplan]
  cases l.result with
  | error e => rfl
  | ok tokens =>
    simp only [writeTokens, hforce, Bool.not_true, Bool.and_false, Bool.false_eq_true, if_false,
      FileTree.writeFile_eq_map]
    cases outputPath l.path dir plan.format with
    | error e => rfl
    | ok target =>
      dsimp only
      cases p.tree.slot? target <;> rfl

theorem Plan.effect_eq_ok {w : Place × ByteArray} (h : plan.effect dir t l = .ok w) :
    ∃ target, outputPath l.path dir plan.format = .ok target ∧ t.Slot target w.1 ∧
      t.get? w.1 ≠ some .directory := by
  unfold Plan.effect at h
  split at h
  · cases h
  split at h
  · cases h
  next target htarget =>
  split at h
  · cases h
  next place hplace =>
  obtain rfl := Except.ok.inj h
  exact ⟨target, htarget, FileTree.slot?_eq_ok_iff.mp hplace⟩

/-- Files that were written have no say in what becomes of an input. -/
theorem Plan.effect_filesWritten (plan : Plan) (hmade : made.Made dir)
    (ht : FileTree.FilesWritten made t) (l : Lexed) :
    plan.effect dir t l = plan.effect dir made l := by
  have hslot : ∀ target, outputPath l.path dir plan.format = .ok target →
      t.slot? target = made.slot? target := by
    intro target htarget
    obtain ⟨stem, hstem, rfl⟩ := outputPath_eq_ok_iff.mp htarget
    have hname := not_mem_outputName hstem plan.format
    obtain ⟨before, hparts, hbefore⟩ := Path.exists_parts_join dir hname
    apply ht.slot?_eq
    rw [hparts, List.dropLast_concat, FileTree.origin, Path.isAbsolute_join dir hname]
    exact hmade.walk_ne_notFound hbefore
  unfold Plan.effect
  cases l.result with
  | error e => rfl
  | ok tokens =>
    cases htarget : outputPath l.path dir plan.format with
    | error e => rfl
    | ok target =>
      dsimp only
      rw [hslot target htarget]

/-! ## All inputs -/

theorem Plan.mem_writes {w : Place × ByteArray} (h : w ∈ lexed.filterMap (plan.write? dir t)) :
    ∃ l ∈ lexed, ∃ target, outputPath l.path dir plan.format = .ok target ∧ t.Slot target w.1 ∧
      t.get? w.1 ≠ some .directory := by
  obtain ⟨l, hl, hwrite⟩ := List.mem_filterMap.mp h
  refine ⟨l, hl, Plan.effect_eq_ok ?_⟩
  unfold Plan.write? at hwrite
  cases heffect : plan.effect dir t l with
  | error e =>
    rw [heffect] at hwrite
    cases hwrite
  | ok v =>
    rw [heffect] at hwrite
    rw [Option.some.inj hwrite]

theorem Plan.writes_ne_root (plan : Plan) (dir : String) (t : FileTree) (lexed : List Lexed) :
    ∀ w ∈ lexed.filterMap (plan.write? dir t), w.1 ≠ [] := by
  intro w hw
  obtain ⟨_, -, _, -, hslot, -⟩ := Plan.mem_writes hw
  exact hslot.ne_nil

theorem Plan.filesWritten_writes (plan : Plan) (dir : String)
    (ht : FileTree.FilesWritten made t) (lexed : List Lexed) :
    FileTree.FilesWritten made (t.writeAll (lexed.filterMap (plan.write? dir made))) := by
  refine ht.trans (.writeAll fun w hw => ?_)
  obtain ⟨l, -, target, -, hslot, hdir⟩ := Plan.mem_writes hw
  exact ⟨hslot.ne_nil, mt (ht.directory_iff w.1).mp hdir⟩

/-- A forced run from any tree that differs in files only from the one with the output directory. -/
theorem Plan.run_forced (hplan : plan.output = some dir) (hforce : plan.force = true)
    (hmade : made.Made dir) (ht : FileTree.FilesWritten made t) (lexed : List Lexed) :
    plan.run t lexed = ⟨"", lexed.filterMap (plan.fault? dir made),
      t.writeAll (lexed.filterMap (plan.write? dir made))⟩ := by
  induction lexed using List.reverseRecOn with
  | nil => rfl
  | append_singleton done l ih =>
    have hwritten := plan.filesWritten_writes dir ht done
    have heffect := plan.effect_filesWritten hmade hwritten l
    rw [Plan.run_concat, ih, Plan.step, Plan.attempt_forced hplan hforce, heffect]
    simp only [List.filterMap_append]
    cases hl : plan.effect dir made l with
    | ok w =>
      simp [Plan.fault?, Plan.write?, hl, Except.map, Except.toOption, FileTree.writeAll_concat]
    | error e =>
      simp [Plan.fault?, Plan.write?, hl, Except.map, Except.toOption]

/-! ## Two runs -/

/-- The paths of the output files that a dump writes if it can. -/
def targets (request : DumpRequest) (settings : Settings) (dir : String) : List String :=
  match chooseFormat request settings with
  | .ok format => request.files.filterMap fun input => (outputPath input dir format).toOption
  | .error _ => []

theorem mem_targets {input target : String} (hformat : chooseFormat request settings = .ok format)
    (hinput : input ∈ request.files) (htarget : outputPath input dir format = .ok target) :
    target ∈ targets request settings dir := by
  rw [targets, hformat]
  exact List.mem_filterMap.mpr ⟨input, hinput, by rw [htarget]; rfl⟩

/-- What a second run reads in place of what the first one read. -/
inductive Reread (request : DumpRequest) (settings : Settings) (dir : String) (t : FileTree) :
    Lexed → Lexed → Prop where
  | same (l : Lexed) : Reread request settings dir t l l
  | below {input target : String} (hinput : input ∈ request.files)
    (htarget : target ∈ targets request settings dir) (h : t.Below target input) :
    Reread request settings dir t ⟨input, .error (.unreadable input .notFound)⟩
      ⟨input, .error (.unreadable input .notADirectory)⟩

/-- What a second run logs in place of a record of the first one. -/
inductive Relogged (request : DumpRequest) (settings : Settings) (dir : String) (t : FileTree) :
    LogRecord → LogRecord → Prop where
  | same (r : LogRecord) : Relogged request settings dir t r r
  | below {input target : String} (hinput : input ∈ request.files)
    (htarget : target ∈ targets request settings dir) (h : t.Below target input) :
    Relogged request settings dir t ⟨(SourceError.unreadable input .notFound).message, input⟩
      ⟨(SourceError.unreadable input .notADirectory).message, input⟩

theorem Reread.write? {l' : Lexed} (h : Reread request settings dir t l l') :
    Option.Rel Eq (plan.write? dir made l) (plan.write? dir made l') := by
  cases h with
  | same =>
    cases plan.write? dir made l with
    | none => exact .none
    | some w => exact .some rfl
  | below => exact .none

theorem Reread.fault? {l' : Lexed} (h : Reread request settings dir t l l') :
    Option.Rel (Relogged request settings dir t) (plan.fault? dir made l)
      (plan.fault? dir made l') := by
  cases h with
  | same =>
    cases plan.fault? dir made l with
    | none => exact .none
    | some r => exact .some (.same r)
  | below hinput htarget hbelow => exact .some (.below hinput htarget hbelow)

theorem writes_of_reread {lexed' : List Lexed} (plan : Plan) (made : FileTree)
    (h : List.Forall₂ (Reread request settings dir t) lexed lexed') :
    lexed'.filterMap (plan.write? dir made) = lexed.filterMap (plan.write? dir made) := by
  have hrel : List.Forall₂ Eq (lexed.filterMap (plan.write? dir made))
      (lexed'.filterMap (plan.write? dir made)) :=
    List.rel_filterMap (fun _ _ hl => hl.write?) h
  rw [List.forall₂_eq_eq_eq] at hrel
  exact hrel.symm

theorem faults_of_reread {lexed' : List Lexed} (plan : Plan) (made : FileTree)
    (h : List.Forall₂ (Reread request settings dir t) lexed lexed') :
    List.Forall₂ (Relogged request settings dir t) (lexed.filterMap (plan.fault? dir made))
      (lexed'.filterMap (plan.fault? dir made)) :=
  List.rel_filterMap (fun _ _ hl => hl.fault?) h

theorem reread_tokenizeAll (hw : FileTree.FilesWritten made t)
    (hnew : FileTree.WrittenTo made t (targets request settings dir))
    (hapart : ∀ input ∈ request.files, ∀ target ∈ targets request settings dir,
      ¬ t.NameOneFile target input) :
    List.Forall₂ (Reread request settings dir t)
      (made.tokenizeAll request.files settings.tabWidth)
      (t.tokenizeAll request.files settings.tabWidth) := by
  rw [FileTree.tokenizeAll, FileTree.tokenizeAll, List.forall₂_map_left_iff,
    List.forall₂_map_right_iff, List.forall₂_same]
  intro input hinput
  rcases hw.readBytes_cases hnew (hapart input hinput) with
    hsame | ⟨⟨target, htarget, hbelow⟩, hfirst, hsecond⟩
  · rw [FileTree.tokenize_congr hsame]
    exact .same _
  · rw [FileTree.tokenize_of_error hfirst, FileTree.tokenize_of_error hsecond]
    exact .below hinput htarget hbelow

/-- The report of a forced run that reads its inputs in `t`. -/
structure Forced (plan : Plan) (dir : String) (made t : FileTree) (lexed : List Lexed)
    (r : Report) : Prop where
  output : r.output = ""
  log : r.log = lexed.filterMap (plan.fault? dir made)
  tree : r.tree = t.writeAll (lexed.filterMap (plan.write? dir made))
  result : r.result = if r.log.length = 0 then .ok () else .error (.filesFailed r.log.length)

theorem Begins.forced (h : Begins tree settings request format t) (hdir : request.output = some dir)
    (hforce : request.force = true) (hmade : made.Made dir)
    (ht : FileTree.FilesWritten made t) :
    Forced (planOf request settings format) dir made t
      (t.tokenizeAll request.files settings.tabWidth) (run tree settings request) := by
  rw [h.run_eq, Plan.run_forced hdir hforce hmade ht]
  refine ⟨rfl, rfl, rfl, ?_⟩
  simp only [Progress.report, List.isEmpty_iff_length_eq_zero]

/-- The files that a forced run changes are those that its targets lead to. -/
theorem Forced.writtenTo {r : Report} (h : Forced plan dir made made lexed r)
    (htargets : ∀ l ∈ lexed, ∀ target, outputPath l.path dir plan.format = .ok target →
      target ∈ targets request settings dir) :
    FileTree.WrittenTo made r.tree (targets request settings dir) := by
  intro place hdiffers
  rw [h.tree] at hdiffers ⊢
  have hwritten := plan.filesWritten_writes dir (.refl made) lexed
  rcases FileTree.get?_writeAll made (plan.writes_ne_root dir made lexed) place with
    hold | ⟨w, hw, rfl, hnew⟩
  · exact absurd hold hdiffers
  obtain ⟨l, hl, target, htarget, hslot, -⟩ := Plan.mem_writes hw
  refine ⟨target, htargets l hl target htarget, w.2, ?_, hnew⟩
  exact (hwritten.slot_iff.mpr hslot).resolve (by rw [hnew]; rfl)

theorem Begins.of_result (h : (run tree settings request).result = .ok () ∨
      ∃ detail, (run tree settings request).result = .error (.commandExecution detail)) :
    ∃ format made, Begins tree settings request format made := by
  rcases run_cases tree settings request with hbegins | ⟨e, detail, he, hrun⟩ | ⟨e, hrun⟩
  · exact hbegins
  · rw [hrun] at h
    obtain rfl | ⟨rfl, -⟩ := he <;> simp [Report.failed] at h
  · rw [hrun] at h
    simp [Report.failed] at h

/-- The second of two runs of one dump, as seen from the first. -/
structure Repeats (request : DumpRequest) (settings : Settings) (dir : String)
    (first second : Report) : Prop where
  tree : second.tree = first.tree
  result : second.result = first.result
  output : second.output = first.output
  log : List.Forall₂ (Relogged request settings dir first.tree) first.log second.log

/-- A forced dump that has dealt with its inputs, once more with the same arguments. Where the
targets lead is asked of the tree that it leaves. -/
theorem run_forced_again (tree : FileTree) (settings : Settings) (request : DumpRequest)
    (dir : String) (hdir : request.output = some dir) (hforce : request.force = true)
    (hresult : (run tree settings request).result = .ok () ∨
      ∃ detail, (run tree settings request).result = .error (.commandExecution detail))
    (hapart : ∀ input ∈ request.files, ∀ target ∈ targets request settings dir,
      ¬ (run tree settings request).tree.NameOneFile target input) :
    Repeats request settings dir (run tree settings request)
      (run (run tree settings request).tree settings request) := by
  obtain ⟨format, made, h⟩ := Begins.of_result hresult
  have hmade : made.Made dir := made_of_prepare (by rw [← hdir, h.directory])
  have hfirst := h.forced hdir hforce hmade (.refl made)
  generalize run tree settings request = first at hapart hfirst ⊢
  have hwritten := (planOf request settings format).filesWritten_writes dir (.refl made)
    (made.tokenizeAll request.files settings.tabWidth)
  rw [← hfirst.tree] at hwritten
  have hnew : FileTree.WrittenTo made first.tree (targets request settings dir) := by
    refine hfirst.writtenTo fun l hl target htarget => ?_
    obtain ⟨input, hinput, rfl⟩ := List.mem_map.mp hl
    exact mem_targets h.format hinput htarget
  -- The second run begins where the first one ended, and has no directory to make there.
  have hbegins : Begins first.tree settings request format first.tree :=
    ⟨h.files, h.format, by rw [hdir, prepare_of_made (hmade.filesWritten hwritten)]⟩
  have hsecond := hbegins.forced hdir hforce hmade hwritten
  have hreread := reread_tokenizeAll hwritten hnew hapart
  have hlog := faults_of_reread (planOf request settings format) made hreread
  rw [← hfirst.log, ← hsecond.log] at hlog
  refine ⟨?_, ?_, ?_, hlog⟩
  · rw [hsecond.tree, writes_of_reread _ _ hreread, hfirst.tree]
    exact FileTree.writeAll_writeAll made (Plan.writes_ne_root _ dir made _)
  · rw [hsecond.result, hfirst.result, hlog.length_eq]
  · rw [hsecond.output, hfirst.output]

/-- Two sources of one stem, and one whose output file would be a directory. -/
def crowded : FileTree where
  entries := [(["a"], .directory), (["a", "x.pd"], .file "1".toUTF8), (["b"], .directory),
    (["b", "x.pd"], .file "2 3".toUTF8), (["y.pd"], .file "4".toUTF8), (["o"], .directory),
    (["o", "y.json"], .directory)]
  workingDirectory := []

def crowdedDump : DumpRequest where
  files := ["a/x.pd", "y.pd", "b/x.pd"]
  output := some "o"
  force := true

theorem run_forced_again_crowded :
    (run crowded {} crowdedDump).result = .error (.filesFailed 1) ∧
      targets crowdedDump {} "o" = ["o/x.json", "o/y.json", "o/x.json"] ∧
      Repeats crowdedDump {} "o" (run crowded {} crowdedDump)
        (run (run crowded {} crowdedDump).tree {} crowdedDump) := by
  have hresult : (run crowded {} crowdedDump).result = .error (.filesFailed 1) := by decide +kernel
  exact ⟨hresult, by decide +kernel,
    run_forced_again crowded {} crowdedDump "o" rfl rfl (.inr ⟨_, hresult⟩) (by decide +kernel)⟩

/-- A source, and a path that goes on below its output file. -/
def lone : FileTree where
  entries := [(["x.pd"], .file "1".toUTF8)]
  workingDirectory := []

def belowTarget : DumpRequest where
  files := ["x.pd", "o/x.json/y.pd"]
  output := some "o"
  force := true

/-- No target names a source, but the second run logs another cause. -/
theorem run_forced_again_relogs :
    (run lone {} belowTarget).result = .error (.filesFailed 1) ∧
      (∀ input ∈ belowTarget.files, ∀ target ∈ targets belowTarget {} "o",
        ¬ (run lone {} belowTarget).tree.NameOneFile target input) ∧
      (run lone {} belowTarget).log =
        [⟨"failed to read o/x.json/y.pd: No such file or directory (os error 2)",
          "o/x.json/y.pd"⟩] ∧
      (run (run lone {} belowTarget).tree {} belowTarget).log =
        [⟨"failed to read o/x.json/y.pd: Not a directory (os error 20)", "o/x.json/y.pd"⟩] :=
  ⟨by decide +kernel, by decide +kernel, by decide +kernel, by decide +kernel⟩

end Dump

end ProjectD
