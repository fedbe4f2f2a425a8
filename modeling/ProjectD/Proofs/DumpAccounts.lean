import Mathlib.Data.List.Induction
import Mathlib.Data.Nat.Find
import ProjectD.Proofs.DumpSteps

/-! # A dump that replaces nothing

Without `force`, a dump into a directory keeps all that is there, and accounts for every input: it is
either written to a file of its own or logged. Which of the two is settled before anything is
written (`Chosen`): an input is written exactly if it has tokens, its slot is free, and no earlier
input of its stem has tokens. `Ledger` says what this makes of the tree and of the log after any part
of the inputs, and every step keeps it.
-/

set_option autoImplicit false

namespace ProjectD.Dump

variable {tree made t : FileTree} {settings : Settings} {request : DumpRequest}
  {format : OutputFormat} {dir : String} {plan : Plan} {p p' : Progress} {l : Lexed}
  {lexed done : List Lexed} {i j : Nat} {place : Place} {content : ByteArray}

/-! ## The inputs that are written -/

/-- No input before `i` has tokens and the stem `stem`. -/
def FirstOfStem (lexed : List Lexed) (i : Nat) (stem : Option String) : Prop :=
  ∀ j l, j < i → lexed[j]? = some l → Path.fileStem? l.path = stem → ∀ tokens, l.result ≠ .ok tokens

/-- Input `i` is to be written: its slot in `t` is free, and it is the first of its stem. -/
inductive Chosen (plan : Plan) (dir : String) (t : FileTree) (lexed : List Lexed) (i : Nat) :
    Place → ByteArray → Prop where
  | intro {l : Lexed} {tokens : List Token} {target : String} {place : Place}
    (hl : lexed[i]? = some l) (htokens : l.result = .ok tokens)
    (htarget : outputPath l.path dir plan.format = .ok target) (hslot : t.Slot target place)
    (hfree : t.get? place = none) (hfirst : FirstOfStem lexed i (Path.fileStem? l.path)) :
    Chosen plan dir t lexed i place (plan.content tokens)

theorem Chosen.lt (h : Chosen plan dir t lexed i place content) : i < lexed.length := by
  obtain ⟨hl, -, -, -, -, -⟩ := h
  exact (List.getElem?_eq_some_iff.mp hl).1

theorem Chosen.free (h : Chosen plan dir t lexed i place content) : t.get? place = none := by
  obtain ⟨-, -, -, -, hfree, -⟩ := h
  exact hfree

theorem Chosen.ne_nil (h : Chosen plan dir t lexed i place content) : place ≠ [] := by
  obtain ⟨-, -, -, hslot, -, -⟩ := h
  exact hslot.ne_nil

theorem Chosen.of_getElem? (h : Chosen plan dir t lexed i place content) (hl : lexed[i]? = some l) :
    ∃ tokens target, l.result = .ok tokens ∧ outputPath l.path dir plan.format = .ok target ∧
      t.Slot target place ∧ FirstOfStem lexed i (Path.fileStem? l.path) ∧
      content = plan.content tokens := by
  obtain ⟨hl', htokens, htarget, hslot, -, hfirst⟩ := h
  rw [hl] at hl'
  obtain rfl := Option.some.inj hl'
  exact ⟨_, _, htokens, htarget, hslot, hfirst, rfl⟩

theorem Chosen.place_unique {place' : Place} {content' : ByteArray}
    (h : Chosen plan dir t lexed i place content)
    (h' : Chosen plan dir t lexed i place' content') : place = place' := by
  obtain ⟨hl, -, htarget, hslot, -, -⟩ := h
  obtain ⟨-, target', -, htarget', hslot', -, -⟩ := h'.of_getElem? hl
  rw [htarget] at htarget'
  obtain rfl := Except.ok.inj htarget'
  exact hslot.unique hslot'

/-- One place is for one input. -/
theorem Chosen.unique {content' : ByteArray} (h : Chosen plan dir t lexed i place content)
    (h' : Chosen plan dir t lexed j place content') : i = j ∧ content = content' := by
  have hindex : i = j := by
    obtain ⟨hl, htokens, htarget, hslot, -, hfirst⟩ := h
    obtain ⟨hl', htokens', htarget', hslot', -, hfirst'⟩ := h'
    have hstem := stem_eq_of_slot htarget htarget' hslot hslot'
    rcases Nat.lt_trichotomy i j with hlt | heq | hlt
    · exact absurd htokens (hfirst' _ _ hlt hl hstem _)
    · exact heq
    · exact absurd htokens' (hfirst _ _ hlt hl' hstem.symm _)
  subst hindex
  refine ⟨rfl, ?_⟩
  obtain ⟨hl, htokens, -, -, -, -⟩ := h
  obtain ⟨tokens', -, htokens', -, -, -, rfl⟩ := h'.of_getElem? hl
  rw [htokens] at htokens'
  rw [Except.ok.inj htokens']

theorem firstOfStem_concat {stem : Option String} (hi : i ≤ done.length) :
    FirstOfStem (done ++ [l]) i stem ↔ FirstOfStem done i stem := by
  refine forall_congr' fun j => forall_congr' fun l' => imp_congr_right fun hj => ?_
  rw [List.getElem?_append_left (Nat.lt_of_lt_of_le hj hi)]

/-- Whether an input is chosen does not depend on those after it. -/
theorem chosen_concat_of_lt (hi : i < done.length) :
    Chosen plan dir t (done ++ [l]) i place content ↔ Chosen plan dir t done i place content := by
  constructor
  · rintro ⟨hl, htokens, htarget, hslot, hfree, hfirst⟩
    rw [List.getElem?_append_left hi] at hl
    exact ⟨hl, htokens, htarget, hslot, hfree, (firstOfStem_concat (Nat.le_of_lt hi)).mp hfirst⟩
  · rintro ⟨hl, htokens, htarget, hslot, hfree, hfirst⟩
    rw [← List.getElem?_append_left hi] at hl
    exact ⟨hl, htokens, htarget, hslot, hfree, (firstOfStem_concat (Nat.le_of_lt hi)).mpr hfirst⟩

theorem chosen_concat_iff
    (hnot : ∀ content, ¬ Chosen plan dir t (done ++ [l]) done.length place content) :
    Chosen plan dir t (done ++ [l]) i place content ↔ Chosen plan dir t done i place content := by
  refine ⟨fun h => ?_, fun h => (chosen_concat_of_lt h.lt).mpr h⟩
  rcases Nat.lt_or_eq_of_le (Nat.le_of_lt_succ (List.length_append ▸ h.lt)) with hlt | rfl
  · exact (chosen_concat_of_lt hlt).mp h
  · exact absurd h (hnot content)

/-- If no input was chosen for a free slot, none with its stem has tokens. -/
theorem firstOfStem_of_not_chosen {target : String}
    (htarget : outputPath l.path dir plan.format = .ok target) (hslot : t.Slot target place)
    (hfree : t.get? place = none) (h : ∀ i content, ¬ Chosen plan dir t done i place content) :
    FirstOfStem done done.length (Path.fileStem? l.path) := by
  classical
  intro j l' hj hl' hstem tokens htokens
  -- Of the inputs with this stem and tokens, the first one is chosen.
  have hex : ∃ k, ∃ l' : Lexed, done[k]? = some l' ∧
      Path.fileStem? l'.path = Path.fileStem? l.path ∧ ∃ tokens, l'.result = .ok tokens :=
    ⟨j, l', hl', hstem, tokens, htokens⟩
  obtain ⟨l₀, hl₀, hstem₀, tokens₀, htokens₀⟩ := Nat.find_spec hex
  refine h (Nat.find hex) _
    ⟨hl₀, htokens₀, outputPath_congr hstem₀.symm htarget, hslot, hfree, ?_⟩
  intro k l₁ hk hl₁ hstem₁ tokens₁ htokens₁
  exact Nat.find_min hex hk ⟨l₁, hl₁, hstem₁.trans hstem₀, tokens₁, htokens₁⟩

/-! ## The log -/

/-- The log has one record for each input that is not written, in order. -/
def Logged (written : Nat → Prop) (lexed : List Lexed) (log : List LogRecord) : Prop :=
  ∃ fate : Nat → Option LogRecord, log = (List.range lexed.length).filterMap fate ∧
    ∀ i l, lexed[i]? = some l →
      (fate i = none ↔ written i) ∧ ∀ record, fate i = some record → record.file = l.path

theorem Logged.congr {written written' : Nat → Prop} {log : List LogRecord}
    (h : Logged written lexed log) (hiff : ∀ i, i < lexed.length → (written i ↔ written' i)) :
    Logged written' lexed log := by
  obtain ⟨fate, hlog, hfate⟩ := h
  refine ⟨fate, hlog, fun i l hl => ?_⟩
  rw [← hiff i (List.getElem?_eq_some_iff.mp hl).1]
  exact hfate i l hl

theorem Logged.concat {written : Nat → Prop} {log : List LogRecord} (h : Logged written done log)
    (last : Option LogRecord) (hlast : last = none ↔ written done.length)
    (hfile : ∀ record, last = some record → record.file = l.path) :
    Logged written (done ++ [l]) (log ++ last.toList) := by
  obtain ⟨fate, rfl, hfate⟩ := h
  refine ⟨fun i => if i = done.length then last else fate i, ?_, fun i l' hl' => ?_⟩
  · rw [List.length_append, List.length_singleton, List.range_succ, List.filterMap_append]
    congr 1
    · refine List.filterMap_congr fun i hi => ?_
      rw [if_neg (Nat.ne_of_lt (List.mem_range.mp hi))]
    · cases last <;> simp
  · rcases getElem?_concat_cases hl' with ⟨hi, hl'⟩ | ⟨rfl, rfl⟩
    · simpa [Nat.ne_of_lt hi] using hfate i l' hl'
    · simpa using ⟨hlast, hfile⟩

theorem Logged.written_of_nil {written : Nat → Prop} (h : Logged written lexed [])
    (hl : lexed[i]? = some l) : written i := by
  obtain ⟨fate, hlog, hfate⟩ := h
  have hnone := List.filterMap_eq_nil_iff.mp hlog.symm i
    (List.mem_range.mpr (List.getElem?_eq_some_iff.mp hl).1)
  exact (hfate i l hl).1.mp hnone

/-! ## The ledger of a run -/

/-- After the inputs `done`, the tree is the one at the start with the files of those chosen, and
the others are logged. -/
structure Ledger (plan : Plan) (dir : String) (t : FileTree) (done : List Lexed) (p : Progress) :
    Prop where
  output : p.output = ""
  workingDirectory : p.tree.workingDirectory = t.workingDirectory
  get?_iff : ∀ place entry, p.tree.get? place = some entry ↔ t.get? place = some entry ∨
    ∃ i content, Chosen plan dir t done i place content ∧ entry = .file content
  logged : Logged (fun i => ∃ place content, Chosen plan dir t done i place content) done p.log

theorem Ledger.keptIn (h : Ledger plan dir t done p) : FileTree.KeptIn t p.tree :=
  ⟨h.workingDirectory, fun hp => (h.get?_iff _ _).mpr (.inl hp)⟩

theorem Ledger.filesWritten (h : Ledger plan dir t done p) : FileTree.FilesWritten t p.tree := by
  refine ⟨h.workingDirectory, fun place => ?_, h.keptIn.passable.present⟩
  rw [h.get?_iff]
  simp

theorem Ledger.get?_eq_none_iff (h : Ledger plan dir t done p) :
    p.tree.get? place = none ↔ t.get? place = none ∧
      ∀ i content, ¬ Chosen plan dir t done i place content := by
  simp only [Option.eq_none_iff_forall_ne_some, Ne, h.get?_iff, not_or, forall_and]
  refine and_congr_right fun _ => ⟨fun hno i content hchosen => ?_, fun hno entry => ?_⟩
  · exact hno _ ⟨i, content, hchosen, rfl⟩
  · rintro ⟨i, content, hchosen, -⟩
    exact hno i content hchosen

theorem Ledger.start (plan : Plan) (dir : String) (t : FileTree) :
    Ledger plan dir t [] ⟨"", [], t⟩ where
  output := rfl
  workingDirectory := rfl
  get?_iff place entry := by
    refine ⟨.inl, ?_⟩
    rintro (h | ⟨i, content, hchosen, -⟩)
    · exact h
    · exact absurd hchosen.lt (Nat.not_lt_zero i)
  logged := ⟨fun _ => none, rfl, by simp⟩

/-- The next input is written exactly if it is chosen. -/
theorem Ledger.attempt_eq_ok_iff (h : Ledger plan dir t done p) (hplan : plan.output = some dir)
    (hforce : plan.force = false) :
    plan.attempt p l = .ok p' ↔ ∃ place content,
      Chosen plan dir t (done ++ [l]) done.length place content ∧
        p' = { p with tree := p.tree.set place (.file content) } := by
  rw [Plan.attempt_eq_ok_iff hplan]
  constructor
  · rintro ⟨tokens, target, place, htokens, htarget, hslot, -, hfree, rfl⟩
    rw [h.filesWritten.slot_iff] at hslot
    obtain ⟨hnone, hpassed⟩ := h.get?_eq_none_iff.mp (hfree hforce)
    have hfirst := firstOfStem_of_not_chosen htarget hslot hnone hpassed
    exact ⟨place, _, ⟨List.getElem?_concat_length, htokens, htarget, hslot, hnone,
      (firstOfStem_concat (Nat.le_refl _)).mpr hfirst⟩, rfl⟩
  · rintro ⟨place, content, hchosen, rfl⟩
    have hnone : p.tree.get? place = none := by
      refine h.get?_eq_none_iff.mpr ⟨?_, fun i content' hi => ?_⟩
      · exact hchosen.free
      · exact Nat.ne_of_lt hi.lt (((chosen_concat_of_lt hi.lt).mpr hi).unique hchosen).1
    obtain ⟨tokens, target, htokens, htarget, hslot, -, rfl⟩ :=
      hchosen.of_getElem? List.getElem?_concat_length
    exact ⟨tokens, target, place, htokens, htarget, h.filesWritten.slot_iff.mpr hslot,
      by simp [hnone], fun _ => hnone, rfl⟩

theorem Ledger.logged_concat (h : Ledger plan dir t done p) (l : Lexed) (last : Option LogRecord)
    (hlast : last = none ↔ ∃ place content,
      Chosen plan dir t (done ++ [l]) done.length place content)
    (hfile : ∀ record, last = some record → record.file = l.path) :
    Logged (fun i => ∃ place content, Chosen plan dir t (done ++ [l]) i place content) (done ++ [l])
      (p.log ++ last.toList) := by
  refine (h.logged.congr fun i hi => ?_).concat last hlast hfile
  simp only [chosen_concat_of_lt hi]

theorem Ledger.written (h : Ledger plan dir t done p)
    (hchosen : Chosen plan dir t (done ++ [l]) done.length place content) :
    Ledger plan dir t (done ++ [l]) { p with tree := p.tree.set place (.file content) } where
  output := h.output
  workingDirectory := h.workingDirectory
  get?_iff q entry := by
    rw [FileTree.get?_set p.tree hchosen.ne_nil]
    by_cases hq : q = place
    · subst hq
      rw [if_pos rfl, Option.some.injEq, eq_comm]
      constructor
      · exact fun hentry => .inr ⟨_, _, hchosen, hentry⟩
      · rintro (hold | ⟨i, content', hi, hentry⟩)
        · rw [hchosen.free] at hold
          cases hold
        · rw [hentry, (hi.unique hchosen).2]
    · have hnot : ∀ content', ¬ Chosen plan dir t (done ++ [l]) done.length q content' :=
        fun _ hlast => hq (hlast.place_unique hchosen)
      simp only [if_neg hq, h.get?_iff, chosen_concat_iff hnot]
  logged := by
    simpa using h.logged_concat l none (by simpa using ⟨_, _, hchosen⟩) (by simp)

theorem Ledger.failed (h : Ledger plan dir t done p) (message : String)
    (hnot : ¬ ∃ place content, Chosen plan dir t (done ++ [l]) done.length place content) :
    Ledger plan dir t (done ++ [l]) { p with log := p.log ++ [⟨message, l.path⟩] } where
  output := h.output
  workingDirectory := h.workingDirectory
  get?_iff q entry := by
    simp only [h.get?_iff, chosen_concat_iff fun content' hlast => hnot ⟨q, content', hlast⟩]
  logged := h.logged_concat l (some ⟨message, l.path⟩) (by simpa using hnot) (by simp)

theorem Ledger.step (h : Ledger plan dir t done p) (hplan : plan.output = some dir)
    (hforce : plan.force = false) (l : Lexed) :
    Ledger plan dir t (done ++ [l]) (plan.step p l) := by
  rcases plan.step_cases p l with hok | ⟨e, herror, hstep⟩
  · obtain ⟨place, content, hchosen, hstep⟩ := (h.attempt_eq_ok_iff hplan hforce).mp hok
    rw [hstep]
    exact h.written hchosen
  · rw [hstep]
    refine h.failed e.message ?_
    rintro ⟨place, content, hchosen⟩
    have hok := (h.attempt_eq_ok_iff hplan hforce).mpr ⟨place, content, hchosen, rfl⟩
    rw [herror] at hok
    cases hok

/-- What every dump without `force` keeps, whatever the inputs are. -/
theorem ledger_run (plan : Plan) (hplan : plan.output = some dir) (hforce : plan.force = false)
    (t : FileTree) (lexed : List Lexed) : Ledger plan dir t lexed (plan.run t lexed) := by
  induction lexed using List.reverseRecOn with
  | nil => exact .start plan dir t
  | append_singleton done l ih =>
    rw [Plan.run_concat]
    exact ih.step hplan hforce l

/-! ## What the files show afterwards -/

/-- Input `i` was written by a run: its output file is new at `place`, it holds the tokens, and no
input of this stem before it had any. -/
inductive Written (plan : Plan) (dir : String) (before after : FileTree) (lexed : List Lexed)
    (i : Nat) : Place → Prop where
  | intro {l : Lexed} {tokens : List Token} {target : String} {place : Place}
    (hl : lexed[i]? = some l) (htokens : l.result = .ok tokens)
    (htarget : outputPath l.path dir plan.format = .ok target)
    (hplace : after.resolve target = .ok place) (hnew : before.get? place = none)
    (hcontent : after.get? place = some (.file (plan.content tokens)))
    (hfirst : FirstOfStem lexed i (Path.fileStem? l.path)) :
    Written plan dir before after lexed i place

/-- Nothing stands in the way of input `i`: it has tokens, as the first of its stem, and its output
file can be made in `t`. -/
def Writable (plan : Plan) (dir : String) (t : FileTree) (lexed : List Lexed) (i : Nat) : Prop :=
  ∃ l tokens target t', lexed[i]? = some l ∧ l.result = .ok tokens ∧
    outputPath l.path dir plan.format = .ok target ∧
    FirstOfStem lexed i (Path.fileStem? l.path) ∧ t.contains target = false ∧
    t.writeFile target (plan.content tokens) = .ok t'

theorem writable_iff_chosen :
    Writable plan dir t lexed i ↔ ∃ place content, Chosen plan dir t lexed i place content := by
  constructor
  · rintro ⟨l, tokens, target, t', hl, htokens, htarget, hfirst, hcontains, hwrite⟩
    obtain ⟨place, hslot, -, -⟩ := FileTree.writeFile_eq_ok_iff.mp hwrite
    rw [hslot.contains, Option.isSome_eq_false_iff, Option.isNone_iff_eq_none] at hcontains
    exact ⟨place, _, hl, htokens, htarget, hslot, hcontains, hfirst⟩
  · rintro ⟨place, -, @⟨l, tokens, target, _, hl, htokens, htarget, hslot, hfree, hfirst⟩⟩
    refine ⟨l, tokens, target, t.set place (.file (plan.content tokens)), hl, htokens, htarget,
      hfirst, ?_, ?_⟩
    · rw [hslot.contains, hfree]
      rfl
    · exact FileTree.writeFile_eq_ok_iff.mpr ⟨place, hslot, by simp [hfree], rfl⟩

/-- The inputs that were to be written are those whose files are there afterwards. -/
theorem Ledger.written_iff {paths : List String} (h : Ledger plan dir made lexed p)
    (hgrown : FileTree.GrownBy tree made paths) :
    Written plan dir tree p.tree lexed i place ↔
      ∃ content, Chosen plan dir made lexed i place content := by
  constructor
  · rintro ⟨hl, htokens, htarget, hplace, hnew, hcontent, hfirst⟩
    have hslot := h.filesWritten.slot_iff.mp (slot_of_resolve htarget hplace)
    have hfree : made.get? place = none := by
      rw [Option.eq_none_iff_forall_ne_some]
      intro entry hentry
      obtain rfl := Option.some.inj ((h.keptIn.get? hentry).symm.trans hcontent)
      rw [hgrown.file hentry] at hnew
      cases hnew
    exact ⟨_, hl, htokens, htarget, hslot, hfree, hfirst⟩
  · rintro ⟨content, hchosen⟩
    have hcontent := (h.get?_iff _ _).mpr (.inr ⟨i, content, hchosen, rfl⟩)
    obtain ⟨hl, htokens, htarget, hslot, hfree, hfirst⟩ := hchosen
    have hplace := (h.filesWritten.slot_iff.mpr hslot).resolve (by rw [hcontent]; rfl)
    exact ⟨hl, htokens, htarget, hplace, hgrown.get?_eq_none hfree, hcontent, hfirst⟩

/-- The account of a run that has read its inputs in `made`: each input is written, if it can be, and
otherwise logged. -/
structure Accounts (plan : Plan) (dir : String) (tree made : FileTree) (lexed : List Lexed)
    (r : Report) : Prop where
  sameFiles : FileTree.SameFiles tree made
  written : ∀ i, (∃ place, Written plan dir tree r.tree lexed i place) ↔
    Writable plan dir made lexed i
  logged : Logged (fun i => ∃ place, Written plan dir tree r.tree lexed i place) lexed r.log
  result : r.result = if r.log = [] then .ok () else .error (.filesFailed r.log.length)

theorem Ledger.accounts {paths : List String} (h : Ledger plan dir made lexed p)
    (hgrown : FileTree.GrownBy tree made paths) : Accounts plan dir tree made lexed p.report where
  sameFiles := hgrown.sameFiles
  written i := by
    rw [writable_iff_chosen]
    exact exists_congr fun place => h.written_iff hgrown
  logged := h.logged.congr fun i _ => exists_congr fun place => (h.written_iff hgrown).symm
  result := by simp [Progress.report]

/-- What a dump into `dir` promises when it may not replace files. -/
structure KeepsAccounts (tree : FileTree) (settings : Settings) (request : DumpRequest)
    (dir : String) (r : Report) : Prop where
  kept : ∀ place entry, tree.get? place = some entry → r.tree.get? place = some entry
  created : ∀ place entry, r.tree.get? place = some entry → tree.get? place = some entry ∨
    (entry = .directory ∧ ∃ path ∈ Path.ancestors dir, r.tree.resolve path = .ok place) ∨
    ∃ format made i, Begins tree settings request format made ∧
      Written (planOf request settings format) dir tree r.tree
        (made.tokenizeAll request.files settings.tabWidth) i place
  silent : r.output = ""
  accounts : ∀ format made, Begins tree settings request format made →
    Accounts (planOf request settings format) dir tree made
      (made.tokenizeAll request.files settings.tabWidth) r
  stopped : (¬ ∃ format made, Begins tree settings request format made) →
    r.log = [] ∧ ∃ e, r.result = .error e
  refused : ∀ detail, r.result = .error (.validation detail) ∨ r.result = .error (.config detail) →
    r.tree = tree ∧ r.log = []

theorem Begins.keepsAccounts (h : Begins tree settings request format made)
    (hdir : request.output = some dir) (hforce : request.force = false) :
    KeepsAccounts tree settings request dir (run tree settings request) := by
  have hgrown := h.grownBy hdir
  have hledger := ledger_run (planOf request settings format) hdir hforce made
    (made.tokenizeAll request.files settings.tabWidth)
  refine ⟨?_, ?_, ?_, ?_, fun hnot => absurd ⟨format, made, h⟩ hnot, ?_⟩
  · intro place entry hentry
    rw [h.run_eq]
    exact hledger.keptIn.get? (hgrown.get? hentry)
  · intro place entry hentry
    rw [h.run_eq] at hentry ⊢
    rcases (hledger.get?_iff _ _).mp hentry with hmade | ⟨i, content, hchosen, rfl⟩
    · rcases hgrown.new hmade with hold | ⟨rfl, path, hpath, hplace⟩
      · exact .inl hold
      · exact .inr (.inl ⟨rfl, path, hpath, hledger.keptIn.passable.resolve hplace⟩)
    · exact .inr (.inr ⟨format, made, i, h, (hledger.written_iff hgrown).mpr ⟨content, hchosen⟩⟩)
  · rw [h.run_eq]
    exact hledger.output
  · intro format' made' h'
    rw [h'.run_eq]
    exact (ledger_run _ hdir hforce _ _).accounts (h'.grownBy hdir)
  · intro detail hresult
    rcases h.result_cases with hok | ⟨n, hfailed⟩
    · simp [hok] at hresult
    · simp [hfailed, ToolError.filesFailed] at hresult

theorem keepsAccounts_failed {e : ToolError}
    (hgrown : FileTree.GrownBy tree t (Path.ancestors dir))
    (hnot : ¬ ∃ format made, Begins tree settings request format made)
    (hrefused : ∀ detail, e = .validation detail ∨ e = .config detail → t = tree) :
    KeepsAccounts tree settings request dir (.failed t e) where
  kept _ _ hentry := hgrown.get? hentry
  created _ _ hentry := (hgrown.new hentry).imp id .inl
  silent := rfl
  accounts format made h := absurd ⟨format, made, h⟩ hnot
  stopped _ := ⟨rfl, e, rfl⟩
  refused detail hresult := by
    refine ⟨hrefused detail ?_, rfl⟩
    exact hresult.imp Except.error.inj Except.error.inj

/-- A dump into a directory without `force` keeps every file that was there, and accounts for every
input: it is written to a new file, or logged. -/
theorem run_keepsAccounts (tree : FileTree) (settings : Settings) (request : DumpRequest)
    (dir : String) (hdir : request.output = some dir) (hforce : request.force = false) :
    KeepsAccounts tree settings request dir (run tree settings request) := by
  rcases run_cases tree settings request with ⟨format, made, h⟩ | ⟨e, detail, he, hrun⟩ | ⟨e, hrun⟩
  · exact h.keepsAccounts hdir hforce
  · rw [hrun]
    refine keepsAccounts_failed (.refl tree _) ?_ fun _ _ => rfl
    rintro ⟨format, made, h⟩
    obtain ⟨n, rfl⟩ := h.error_eq hrun
    rcases he with he | ⟨he, -⟩ <;> cases he
  · rw [hrun]
    refine keepsAccounts_failed ?_ ?_ ?_
    · rw [hdir]
      exact prepare_grownBy tree dir
    · rintro ⟨format, made, h⟩
      obtain ⟨n, he⟩ := h.error_eq hrun
      cases he
    · rintro detail (⟨⟨⟩⟩ | ⟨⟨⟩⟩)

/-- Two directories with a file of the same stem in each, and a file that has no tokens. -/
def siblings : FileTree where
  entries := [(["a"], .directory), (["a", "x.pd"], .file "1".toUTF8), (["b"], .directory),
    (["b", "x.pd"], .file "2 3".toUTF8), (["c.pd"], .file "?".toUTF8)]
  workingDirectory := []

theorem run_keepsAccounts_siblings :
    (run siblings {} ⟨["c.pd", "a/x.pd", "b/x.pd"], none, false, some "o/p", false⟩).log.map
        (·.file) = ["c.pd", "b/x.pd"] ∧
      KeepsAccounts siblings {} ⟨["c.pd", "a/x.pd", "b/x.pd"], none, false, some "o/p", false⟩ "o/p"
        (run siblings {} ⟨["c.pd", "a/x.pd", "b/x.pd"], none, false, some "o/p", false⟩) :=
  ⟨by decide +kernel, run_keepsAccounts siblings {} _ "o/p" rfl rfl⟩

end ProjectD.Dump
