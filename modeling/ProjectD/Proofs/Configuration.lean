import ProjectD.Program
import ProjectD.Proofs.DumpSteps

/-! # The configuration that a command runs under

Which file the settings come from depends only on what is asked for and on which files exist
(`Source`), never on what they hold. If that file cannot be used, the run ends before its command has
done anything. Otherwise the command runs under settings that it can use, and no command then
complains about its configuration (`Gated`).
-/

set_option autoImplicit false

namespace ProjectD

variable {tree : FileTree} {path : String} {settings : Settings}

/-! ## Settings that a command can use -/

/-- Settings within bounds; `jobs` counts with any number of processors. -/
structure Settings.Usable (s : Settings) : Prop where
  jobs : ∀ processors, 1 ≤ processors → 1 ≤ s.jobs.getD processors
  tabWidth : 1 ≤ s.tabWidth.toNat ∧ s.tabWidth.toNat ≤ 64
  format : ∃ format, OutputFormat.ofName? s.format = some format

theorem Settings.jobs_iff (s : Settings) :
    (∀ processors, 1 ≤ processors → 1 ≤ s.jobs.getD processors) ↔ s.jobs ≠ some 0 := by
  cases s.jobs with
  | none => simp
  | some n =>
    simp only [Option.getD_some, ne_eq, Option.some.injEq]
    exact ⟨fun h => Nat.ne_of_gt (h 1 (Nat.le_refl 1)), fun h _ _ => Nat.pos_of_ne_zero h⟩

theorem Settings.check_eq_ok_iff : settings.check = .ok () ↔ settings.Usable := by
  have htab : ¬ (settings.tabWidth < 1 ∨ maxTabWidth < settings.tabWidth) ↔
      1 ≤ settings.tabWidth.toNat ∧ settings.tabWidth.toNat ≤ 64 := by
    rw [not_or, UInt32.not_lt, UInt32.not_lt, UInt32.le_iff_toNat_le, UInt32.le_iff_toNat_le]
    rfl
  have hformat : OutputFormat.ofName? settings.format ≠ none ↔
      ∃ format, OutputFormat.ofName? settings.format = some format := Option.ne_none_iff_exists'
  unfold Settings.check
  split
  · next hjobs => exact ⟨nofun, fun h => absurd hjobs (settings.jobs_iff.mp h.jobs)⟩
  next hjobs =>
  split
  · next hbounds => exact ⟨nofun, fun h => absurd hbounds (htab.mpr h.tabWidth)⟩
  next hbounds =>
  split
  · next hnone => exact ⟨nofun, fun h => absurd hnone (hformat.mpr h.format)⟩
  next hsome =>
  exact ⟨fun _ => ⟨settings.jobs_iff.mpr hjobs, htab.mp hbounds, hformat.mp hsome⟩, fun _ => rfl⟩

/-- A text is a document with settings of the right types. -/
def Settings.Spelled (text : String) (s : Settings) : Prop :=
  ∃ document, Toml.read? text = some document ∧ ofDocument? document = some s

/-- A file cannot be used as configuration. -/
inductive Settings.Unusable (tree : FileTree) (path : String) : Prop where
  | missing (h : tree.contains path = false)
  | unreadable {e : FileError} (h : tree.readText path = .error e)
  | unparsable {text : String} (hread : tree.readText path = .ok text)
    (h : ∀ s, ¬ Settings.Spelled text s)
  | invalid {text : String} {s : Settings} (hread : tree.readText path = .ok text)
    (hspelled : Settings.Spelled text s) (h : ¬ s.Usable)

theorem Settings.parse_eq_ok_iff {text : String} :
    parse text = .ok settings ↔ Spelled text settings ∧ settings.Usable := by
  have hspelled : ∀ s, Spelled text s ↔ (Toml.read? text).bind ofDocument? = some s := by
    simp [Spelled, Option.bind_eq_some_iff]
  unfold parse
  split
  · next hnone => simp [hspelled, hnone]
  next s hsome =>
  rw [hspelled, hsome, Option.some.injEq]
  split
  · next e herror =>
    refine ⟨nofun, ?_⟩
    rintro ⟨rfl, husable⟩
    rw [check_eq_ok_iff.mpr husable] at herror
    cases herror
  · next hok =>
    rw [Except.ok.injEq]
    exact ⟨fun h => ⟨h, h ▸ check_eq_ok_iff.mp hok⟩, And.left⟩

theorem FileTree.contains_of_readText {text : String} (h : tree.readText path = .ok text) :
    tree.contains path = true := by
  unfold readText at h
  split at h
  · cases h
  next content hcontent =>
  obtain ⟨place, hplace, hfile⟩ := readBytes_eq_ok_iff.mp hcontent
  rw [contains, find?_eq_some_iff.mpr ⟨place, hplace, hfile⟩]
  rfl

theorem Settings.load_eq_ok_iff :
    load tree path = .ok settings ↔
      ∃ text, tree.readText path = .ok text ∧ Spelled text settings ∧ settings.Usable := by
  unfold load
  cases hread : tree.readText path with
  | error e => cases tree.contains path <;> simp
  | ok text => simp [FileTree.contains_of_readText hread, parse_eq_ok_iff]

/-- Loading fails for the four reasons only. -/
theorem Settings.unusable_iff : Unusable tree path ↔ ∀ s, load tree path ≠ .ok s := by
  constructor
  · intro hunusable s hload
    obtain ⟨text, hread, ⟨document, hdocument, hs⟩, husable⟩ := load_eq_ok_iff.mp hload
    cases hunusable with
    | missing h => simp [FileTree.contains_of_readText hread] at h
    | unreadable h => simp [hread] at h
    | unparsable hread' h =>
      obtain rfl := Except.ok.inj (hread.symm.trans hread')
      exact h s ⟨document, hdocument, hs⟩
    | invalid hread' hspelled h =>
      obtain rfl := Except.ok.inj (hread.symm.trans hread')
      obtain ⟨document', hdocument', hs'⟩ := hspelled
      obtain rfl := Option.some.inj (hdocument.symm.trans hdocument')
      obtain rfl := Option.some.inj (hs.symm.trans hs')
      exact h husable
  · intro hload
    cases hread : tree.readText path with
    | error e => exact .unreadable hread
    | ok text =>
      by_cases hspelled : ∃ s, Spelled text s
      · obtain ⟨s, hs⟩ := hspelled
        exact .invalid hread hs fun husable =>
          hload s (load_eq_ok_iff.mpr ⟨text, hread, hs, husable⟩)
      · exact .unparsable hread (not_exists.mp hspelled)

/-! ## Where the settings come from -/

/-- The file that the settings come from: the one asked for, or else the first that exists of the
one in the working directory, the one in the home directory and the one in the directory for
configuration, or else none. -/
inductive Settings.Source (tree : FileTree) (homes : Settings.Homes) :
    Option String → Option String → Prop where
  | asked (path : String) : Source tree homes (some path) (some path)
  | working (h : tree.contains "pdt.toml") : Source tree homes none (some "pdt.toml")
  | home {dir : String} (hdir : homes.home = some dir) (hworking : ¬ tree.contains "pdt.toml")
    (h : tree.contains (Path.join dir ".config/pdt/pdt.toml")) :
    Source tree homes none (some (Path.join dir ".config/pdt/pdt.toml"))
  | config {dir : String} (hdir : homes.config = some dir) (hworking : ¬ tree.contains "pdt.toml")
    (hhome : ∀ dir, homes.home = some dir → ¬ tree.contains (Path.join dir ".config/pdt/pdt.toml"))
    (h : tree.contains (Path.join dir "pdt/pdt.toml")) :
    Source tree homes none (some (Path.join dir "pdt/pdt.toml"))
  | default (hworking : ¬ tree.contains "pdt.toml")
    (hhome : ∀ dir, homes.home = some dir → ¬ tree.contains (Path.join dir ".config/pdt/pdt.toml"))
    (hconfig : ∀ dir, homes.config = some dir → ¬ tree.contains (Path.join dir "pdt/pdt.toml")) :
    Source tree homes none none

/-- The settings that a source gives. -/
inductive Settings.Given (tree : FileTree) : Option String → Settings → Prop where
  | file {path text : String} {s : Settings} (hread : tree.readText path = .ok text)
    (hspelled : Settings.Spelled text s) : Given tree (some path) s
  | default : Given tree none {}

/-- The source that `choose` takes. -/
def Settings.source (tree : FileTree) (homes : Homes) (asked : Option String) : Option String :=
  asked.or ((candidates homes).find? tree.contains)

theorem Settings.candidates_eq (homes : Homes) :
    candidates homes = "pdt.toml" ::
      ((homes.home.map fun dir => Path.join dir ".config/pdt/pdt.toml").toList ++
        (homes.config.map fun dir => Path.join dir "pdt/pdt.toml").toList) := by
  have hconfig : ∀ dir, Path.join (Path.join dir "pdt") "pdt.toml" =
      Path.join dir "pdt/pdt.toml" :=
    fun dir => Path.join_join dir (by decide) (by decide) rfl
  have hhome : ∀ dir, Path.join (Path.join dir ".config") "pdt/pdt.toml" =
      Path.join dir ".config/pdt/pdt.toml" :=
    fun dir => Path.join_join dir (by decide) (by decide) rfl
  simp only [candidates, fileName, hconfig, hhome]
  rfl

theorem Settings.find?_join {home : Option String} {rest : String}
    (h : ∀ dir, home = some dir → ¬ tree.contains (Path.join dir rest)) :
    (home.map fun dir => Path.join dir rest).toList.find? tree.contains = none := by
  cases home with
  | none => rfl
  | some dir => simpa using h dir rfl

theorem Settings.Source.source_eq {homes : Homes} {asked s : Option String}
    (h : Source tree homes asked s) : Settings.source tree homes asked = s := by
  cases h with
  | asked path => rfl
  | working h => simp [Settings.source, candidates_eq, h]
  | home hdir hworking h => simp [Settings.source, candidates_eq, hdir, hworking, h]
  | config hdir hworking hhome h =>
    simp [Settings.source, candidates_eq, hworking, List.find?_append, find?_join hhome, hdir, h]
  | default hworking hhome hconfig =>
    simp [Settings.source, candidates_eq, hworking, List.find?_append, find?_join hhome,
      find?_join hconfig]

theorem Settings.exists_source (tree : FileTree) (homes : Homes) (asked : Option String) :
    ∃ s, Source tree homes asked s := by
  cases asked with
  | some path => exact ⟨_, .asked path⟩
  | none =>
    by_cases hworking : tree.contains "pdt.toml"
    · exact ⟨_, .working hworking⟩
    by_cases hhome : ∃ dir, homes.home = some dir ∧
        tree.contains (Path.join dir ".config/pdt/pdt.toml")
    · obtain ⟨dir, hdir, h⟩ := hhome
      exact ⟨_, .home hdir hworking h⟩
    have hhome' := fun dir hdir h => hhome ⟨dir, hdir, h⟩
    by_cases hconfig : ∃ dir, homes.config = some dir ∧ tree.contains (Path.join dir "pdt/pdt.toml")
    · obtain ⟨dir, hdir, h⟩ := hconfig
      exact ⟨_, .config hdir hworking hhome' h⟩
    · exact ⟨_, .default hworking hhome' fun dir hdir h => hconfig ⟨dir, hdir, h⟩⟩

theorem Settings.source_iff {homes : Homes} {asked s : Option String} :
    Source tree homes asked s ↔ s = Settings.source tree homes asked := by
  refine ⟨fun h => h.source_eq.symm, ?_⟩
  rintro rfl
  obtain ⟨s, h⟩ := exists_source tree homes asked
  rwa [h.source_eq]

theorem Settings.choose_eq (tree : FileTree) (homes : Homes) (asked : Option String) :
    choose tree homes asked = (source tree homes asked).elim (.ok {}) (load tree) := by
  unfold choose source
  cases asked with
  | some path => rfl
  | none => cases (candidates homes).find? tree.contains <;> rfl

theorem Settings.choose_error {homes : Homes} {asked : Option String}
    (hsource : source tree homes asked = some path) (hunusable : Unusable tree path) :
    ∃ e, choose tree homes asked = .error e := by
  rw [choose_eq, hsource, Option.elim_some]
  cases hload : load tree path with
  | error e => exact ⟨e, rfl⟩
  | ok s => exact absurd hload (unusable_iff.mp hunusable s)

theorem Settings.choose_ok {homes : Homes} {asked : Option String}
    (h : ¬ ∃ path, source tree homes asked = some path ∧ Unusable tree path) :
    ∃ s, choose tree homes asked = .ok s ∧ Given tree (source tree homes asked) s ∧ s.Usable := by
  rw [choose_eq]
  cases hsource : source tree homes asked with
  | none => exact ⟨{}, rfl, .default, check_eq_ok_iff.mp (by decide)⟩
  | some path =>
    have husable : ∃ s, load tree path = .ok s := by
      simpa [hsource, unusable_iff] using h
    obtain ⟨s, hload⟩ := husable
    obtain ⟨text, hread, hspelled, husable⟩ := load_eq_ok_iff.mp hload
    exact ⟨s, hload, .file hread hspelled, husable⟩

/-! ## Running a command -/

theorem Dump.run_ne_config (husable : settings.Usable) (request : DumpRequest) (detail : String) :
    (Dump.run tree settings request).result ≠ .error (.config detail) := by
  intro hconfig
  rcases Dump.run_cases tree settings request with ⟨format, made, h⟩ | ⟨e, _, he, hrun⟩ | ⟨e, hrun⟩
  · rcases h.result_cases with hok | ⟨n, hfailed⟩
    · simp [hok] at hconfig
    · simp [hfailed, ToolError.filesFailed] at hconfig
  · obtain ⟨format, hformat⟩ := husable.format
    rcases he with rfl | ⟨-, hnone⟩
    · simp [hrun, Report.failed] at hconfig
    · simp [hformat] at hnone
  · simp [hrun, Report.failed] at hconfig

theorem Outcome.failure?_finished {report : Report} {e : ToolError} :
    (finished report).failure? = some e ↔ report.result = .error e := by
  cases hresult : report.result with
  | error e' => simp [failure?, hresult]
  | ok _ => simp [failure?, hresult]

theorem Request.run_ne_config (husable : settings.Usable) (request : Request) (detail : String) :
    (request.run tree settings).result ≠ .error (.config detail) := by
  cases request with
  | tokens request => exact Dump.run_ne_config husable request detail
  | check files =>
    simp only [Request.run, ProjectD.check]
    split
    · nofun
    · dsimp only
      split <;> nofun

/-- What a run does with the file that its settings come from. -/
structure Gated (tree : FileTree) (homes : Settings.Homes) (i : Invocation) (o : Outcome)
    (source : Option String) : Prop where
  source_iff : ∀ other, Settings.Source tree homes i.config other ↔ other = source
  stopped : (∃ path, source = some path ∧ Settings.Unusable tree path) →
    o.status ≠ 0 ∧ o.output = "" ∧ o.log = [] ∧ o.tree tree = tree
  configured : (¬ ∃ path, source = some path ∧ Settings.Unusable tree path) →
    ∃ settings, Settings.Given tree source settings ∧ settings.Usable ∧
      o = .finished (i.request.run tree settings) ∧ ∀ detail, o.failure? ≠ some (.config detail)

/-- The settings come from one file or none, whatever the files hold. If that file cannot be used,
nothing is done and the run fails; otherwise the command runs under its settings. -/
theorem run_gated (tree : FileTree) (homes : Settings.Homes) (env : Environment)
    (args : List String) (i : Invocation) (hread : CommandLine.read env args = .ok i) :
    ∃ source, Gated tree homes i (run tree homes env args) source := by
  have hrun : run tree homes env args = .finished (i.run tree homes) := by rw [run, hread]
  rw [hrun, Invocation.run]
  refine ⟨_, fun _ => Settings.source_iff, ?_, fun h => ?_⟩
  · rintro ⟨path, hsource, hunusable⟩
    obtain ⟨e, he⟩ := Settings.choose_error hsource hunusable
    rw [he]
    exact ⟨Nat.one_ne_zero, rfl, rfl, rfl⟩
  · obtain ⟨settings, hchoose, hgiven, husable⟩ := Settings.choose_ok h
    rw [hchoose]
    refine ⟨settings, hgiven, husable, rfl, fun detail hfailure => ?_⟩
    exact i.request.run_ne_config husable detail (Outcome.failure?_finished.mp hfailure)

/-- No configuration file in the working directory, one without jobs in the home directory, and one
without fault behind it. -/
def faultyHome : FileTree where
  entries := [(["h"], .directory), (["h", ".config"], .directory),
    (["h", ".config", "pdt"], .directory),
    (["h", ".config", "pdt", "pdt.toml"], .file "jobs = 0".toUTF8), (["x"], .directory),
    (["x", "pdt"], .directory), (["x", "pdt", "pdt.toml"], .file "".toUTF8),
    (["a.pd"], .file "1".toUTF8)]
  workingDirectory := []

theorem run_gated_faultyHome :
    (run faultyHome ⟨some "/h", some "/x"⟩ [] ["check", "a.pd"]).failure? = some .noJobs ∧
      Gated faultyHome ⟨some "/h", some "/x"⟩ ⟨none, .check ["a.pd"]⟩
        (run faultyHome ⟨some "/h", some "/x"⟩ [] ["check", "a.pd"])
        (some "/h/.config/pdt/pdt.toml") := by
  obtain ⟨source, h⟩ := run_gated faultyHome ⟨some "/h", some "/x"⟩ [] ["check", "a.pd"]
    ⟨none, .check ["a.pd"]⟩ rfl
  have hplace : Settings.Source faultyHome ⟨some "/h", some "/x"⟩ none
      (some (Path.join "/h" ".config/pdt/pdt.toml")) :=
    .home rfl (by decide +kernel) (by decide +kernel)
  have hjoin : Path.join "/h" ".config/pdt/pdt.toml" = "/h/.config/pdt/pdt.toml" := by
    decide +kernel
  rw [← (h.source_iff _).mp hplace, hjoin] at h
  exact ⟨by decide +kernel, h⟩

end ProjectD
