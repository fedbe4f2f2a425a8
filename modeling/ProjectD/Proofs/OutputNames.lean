import ProjectD.Proofs.OutputPaths

/-! # The names of output files

What a path ends in can be told from its text. Before the last name stands nothing or a slash, and
after it only slashes and single periods (`LastName`); the stem of a name ends at its last period
(`IsStem`). In these terms an output file is an entry of the output directory, named by the stem of
the input and nothing else (`outputPath_isEntry`).
-/

set_option autoImplicit false

namespace ProjectD.Path

/-! ## The last name of a path -/

/-- What may follow the last name: slashes, and single periods after them. -/
inductive Trail : List Char → Prop where
  | nil : Trail []
  | slash {cs : List Char} (h : Trail cs) : Trail ('/' :: cs)
  | here {cs : List Char} (h : Trail cs) : Trail ('/' :: '.' :: cs)

/-- The last part of a path that is neither empty nor a single period. -/
inductive LastName : List Char → List Char → Prop where
  | intro {before name after : List Char} (hbefore : before = [] ∨ before.getLast? = some '/')
    (hslash : '/' ∉ name) (hname : name ≠ [] ∧ name ≠ ['.']) (hafter : Trail after) :
    LastName (before ++ (name ++ after)) name

/-- A path of slashes and single periods. -/
def Blank (path : List Char) : Prop :=
  Trail path ∨ ∃ rest, path = '.' :: rest ∧ Trail rest

/-- A path that ends in no name: there is none in it, or the last one is the step to the parent. -/
def Nameless (path : List Char) : Prop :=
  Blank path ∨ LastName path ['.', '.']

theorem lastName_append {name after : List Char} (hslash : '/' ∉ name)
    (hname : name ≠ [] ∧ name ≠ ['.']) (hafter : Trail after) : LastName (name ++ after) name :=
  @LastName.intro [] name after (.inl rfl) hslash hname hafter

theorem LastName.cons {path name : List Char} (h : LastName path name) (c : Char) :
    LastName (c :: path) name ∨ LastName (c :: path) (c :: name) := by
  obtain @⟨before, _, after, hbefore, hslash, hname, hafter⟩ := h
  rcases hbefore with rfl | hbefore
  · -- The name is at the start, so a slash ends what is before it and anything else lengthens it.
    by_cases hc : c = '/'
    · subst hc
      exact .inl (@LastName.intro ['/'] name after (.inr rfl) hslash hname hafter)
    · have hlonger : LastName ((c :: name) ++ after) (c :: name) := by
        apply lastName_append _ _ hafter
        · simp [Ne.symm hc, hslash]
        · simp [hname.1]
      exact .inr hlonger
  · refine .inl (@LastName.intro (c :: before) name after (.inr ?_) hslash hname hafter)
    rw [List.getLast?_cons, hbefore]
    rfl

theorem Blank.cons {path : List Char} (h : Blank path) (c : Char) :
    Blank (c :: path) ∨ ∃ name, LastName (c :: path) name := by
  by_cases hc : c = '/'
  · subst hc
    rcases h with h | ⟨rest, rfl, h⟩
    · exact .inl (.inl h.slash)
    · exact .inl (.inl h.here)
  rcases h with h | ⟨rest, rfl, h⟩
  · by_cases hperiod : c = '.'
    · exact .inl (.inr ⟨path, by rw [hperiod], h⟩)
    · have hlast : LastName ([c] ++ path) [c] := by
        apply lastName_append _ _ h
        · simp [Ne.symm hc]
        · simp [hperiod]
      exact .inr ⟨_, hlast⟩
  · have hlast : LastName ([c, '.'] ++ rest) [c, '.'] := by
      apply lastName_append _ _ h
      · simp [Ne.symm hc]
      · simp
    exact .inr ⟨_, hlast⟩

theorem blank_or_lastName (path : List Char) : Blank path ∨ ∃ name, LastName path name := by
  induction path with
  | nil => exact .inl (.inl .nil)
  | cons c path ih =>
    rcases ih with h | ⟨name, h⟩
    · exact h.cons c
    · rcases h.cons c with h | h
      · exact .inr ⟨_, h⟩
      · exact .inr ⟨_, h⟩

/-! ## Names in a text -/

theorem names_append_slash (a b : List Char) :
    names (String.ofList (a ++ '/' :: b)) =
      names (String.ofList a) ++ names (String.ofList b) := by
  simp only [names, parts, String.toList_ofList, split_append_slash, List.map_append,
    List.filter_append]

theorem names_of_not_mem {name : List Char} (hslash : '/' ∉ name)
    (hname : name ≠ [] ∧ name ≠ ['.']) : names (String.ofList name) = [String.ofList name] := by
  have hblank : String.ofList name ≠ "" := fun h => hname.1 (String.ofList_injective h)
  have hhere : String.ofList name ≠ "." := fun h => hname.2 (String.ofList_injective h)
  simp [names, parts, split_of_not_mem hslash, hblank, hhere]

theorem Trail.names_append {after : List Char} (h : Trail after) (path : List Char) :
    names (String.ofList (path ++ after)) = names (String.ofList path) := by
  induction h generalizing path with
  | nil => rw [List.append_nil]
  | slash h ih =>
    have hrest := ih []
    rw [List.nil_append] at hrest
    rw [names_append_slash, hrest]
    exact List.append_nil _
  | here h ih =>
    rw [names_append_slash, ← List.singleton_append, ih ['.']]
    exact List.append_nil _

theorem Blank.names_eq {path : List Char} (h : Blank path) : names (String.ofList path) = [] := by
  rcases h with h | ⟨rest, rfl, h⟩
  · exact h.names_append []
  · exact h.names_append ['.']

theorem LastName.getLast?_names {path name : List Char} (h : LastName path name) :
    (names (String.ofList path)).getLast? = some (String.ofList name) := by
  obtain @⟨before, _, after, hbefore, hslash, hname, hafter⟩ := h
  rw [← List.append_assoc, hafter.names_append]
  rcases hbefore with rfl | hbefore
  · rw [List.nil_append, names_of_not_mem hslash hname]
    rfl
  · rw [← List.dropLast_append_getLast? _ hbefore, List.append_assoc, List.singleton_append,
      names_append_slash, names_of_not_mem hslash hname, List.getLast?_concat]

theorem LastName.fileName? {path : String} {name : List Char} (h : LastName path.toList name)
    (hup : name ≠ ['.', '.']) : fileName? path = some (String.ofList name) := by
  have hlast := h.getLast?_names
  rw [String.ofList_toList] at hlast
  unfold Path.fileName?
  rw [hlast]
  split
  · next heq => exact absurd (String.ofList_injective (Option.some.inj heq)) hup
  · rfl

theorem Nameless.fileName? {path : String} (h : Nameless path.toList) : fileName? path = none := by
  unfold Path.fileName?
  rcases h with h | h
  · have hnames := h.names_eq
    rw [String.ofList_toList] at hnames
    rw [hnames]
    rfl
  · have hlast := h.getLast?_names
    rw [String.ofList_toList] at hlast
    rw [hlast]
    rfl

/-! ## Stems -/

/-- The stem of a name: what stands before its last period, or all of it if there is no period but
one in front. -/
inductive IsStem : List Char → List Char → Prop where
  | whole {name : List Char} (h : '.' ∉ name.tail) : IsStem name name
  | cut {stem extension : List Char} (hstem : stem ≠ []) (h : '.' ∉ extension) :
    IsStem (stem ++ '.' :: extension) stem

/-- A path ends in a name with this stem. -/
def HasStem (path stem : List Char) : Prop :=
  ∃ name, LastName path name ∧ name ≠ ['.', '.'] ∧ IsStem name stem

theorem stemOfName_append {extension : List Char} (h : '.' ∉ extension) (stem : List Char) :
    stemOfName (stem ++ '.' :: extension) =
      if stem.isEmpty then stem ++ '.' :: extension else stem := by
  have hdrop : (stem ++ '.' :: extension).reverse.dropWhile (· ≠ '.') = '.' :: stem.reverse := by
    rw [List.reverse_append, List.reverse_cons, List.append_assoc, List.singleton_append,
      List.dropWhile_append_of_pos, List.dropWhile_cons_of_neg (by simp)]
    intro c hc
    rw [decide_eq_true_eq]
    rintro rfl
    exact h (List.mem_reverse.mp hc)
  unfold stemOfName
  rw [hdrop]
  simp

theorem stemOfName_of_not_mem {name : List Char} (h : '.' ∉ name) : stemOfName name = name := by
  have hdrop : name.reverse.dropWhile (· ≠ '.') = [] := by
    rw [List.dropWhile_eq_nil_iff]
    intro c hc
    rw [decide_eq_true_eq]
    rintro rfl
    exact h (List.mem_reverse.mp hc)
  unfold stemOfName
  rw [hdrop]
  rfl

theorem isStem_stemOfName (name : List Char) : IsStem name (stemOfName name) := by
  by_cases hmem : '.' ∈ name
  · obtain ⟨extension, stem, hsplit, hext⟩ :=
      List.eq_append_cons_of_mem (List.mem_reverse.mpr hmem)
    obtain rfl : name = stem.reverse ++ '.' :: extension.reverse := by
      rw [← List.reverse_reverse name, hsplit]
      simp
    have hext' : '.' ∉ extension.reverse := by rwa [List.mem_reverse]
    rw [stemOfName_append hext']
    split
    · next hempty =>
      rw [List.isEmpty_iff.mp hempty]
      exact .whole hext'
    · next hne => exact .cut (fun hnil => hne (by rw [hnil]; rfl)) hext'
  · rw [stemOfName_of_not_mem hmem]
    exact .whole fun htail => hmem (List.mem_of_mem_tail htail)

theorem IsStem.stemOfName_eq {name stem : List Char} (h : IsStem name stem) :
    stemOfName name = stem := by
  cases h with
  | whole h =>
    by_cases hmem : '.' ∈ name
    · -- The only period is in front, so nothing stands before it.
      cases name with
      | nil => rfl
      | cons c rest =>
        obtain rfl : c = '.' := by
          rcases List.mem_cons.mp hmem with heq | hrest
          · exact heq.symm
          · exact absurd hrest h
        exact stemOfName_append h []
    · exact stemOfName_of_not_mem hmem
  | cut hstem h =>
    rw [stemOfName_append h, if_neg]
    rwa [List.isEmpty_iff]

theorem fileStem?_eq_some_iff {path stem : String} :
    fileStem? path = some stem ↔ HasStem path.toList stem.toList := by
  constructor
  · intro h
    obtain ⟨name, hname, rfl⟩ := Option.map_eq_some_iff.mp h
    have hnamed : ¬ Nameless path.toList := fun hnameless => by
      rw [hnameless.fileName?] at hname
      cases hname
    rw [Nameless, not_or] at hnamed
    obtain ⟨last, hlast⟩ := (blank_or_lastName path.toList).resolve_left hnamed.1
    have hup : last ≠ ['.', '.'] := by
      rintro rfl
      exact hnamed.2 hlast
    rw [hlast.fileName? hup] at hname
    obtain rfl := Option.some.inj hname
    rw [String.toList_ofList, String.toList_ofList]
    exact ⟨last, hlast, hup, isStem_stemOfName last⟩
  · rintro ⟨name, hlast, hup, hstem⟩
    rw [fileStem?, hlast.fileName? hup, Option.map_some, String.toList_ofList,
      hstem.stemOfName_eq, String.ofList_toList]

theorem fileStem?_eq_none_iff {path : String} :
    fileStem? path = none ↔ Nameless path.toList := by
  constructor
  · intro h
    rw [Option.eq_none_iff_forall_ne_some] at h
    rcases blank_or_lastName path.toList with hblank | ⟨name, hlast⟩
    · exact .inl hblank
    by_cases hup : name = ['.', '.']
    · exact .inr (hup ▸ hlast)
    · refine absurd (fileStem?_eq_some_iff.mpr ?_) (h (String.ofList (stemOfName name)))
      rw [String.toList_ofList]
      exact ⟨name, hlast, hup, isStem_stemOfName name⟩
  · intro h
    rw [fileStem?, h.fileName?]
    rfl

/-! ## Entries of a directory -/

/-- A path leads from the directory `dir` one step down, to `name`. -/
structure IsEntry (dir name path : String) : Prop where
  join : path = Path.join dir name
  single : '/' ∉ name.toList
  noStep : name ≠ "" ∧ name ≠ "." ∧ name ≠ ".."
  names : Path.names path = Path.names dir ++ [name]
  isAbsolute : Path.isAbsolute path = Path.isAbsolute dir

theorem isEntry_join (dir : String) {name : String} (hslash : '/' ∉ name.toList)
    (hstep : name ≠ "" ∧ name ≠ "." ∧ name ≠ "..") : IsEntry dir name (join dir name) := by
  refine ⟨rfl, hslash, hstep, ?_, isAbsolute_join dir hslash⟩
  obtain ⟨before, hparts, hdir⟩ := exists_parts_join dir hslash
  have hbefore : Path.names dir = before.filter fun part => part ≠ "" ∧ part ≠ "." := by
    rw [Path.names]
    rcases hdir with hdir | hdir
    · rw [hdir]
    · rw [hdir, List.filter_append]
      exact List.append_nil _
  rw [hbefore, Path.names, hparts, List.filter_append]
  simp [hstep.1, hstep.2.1]

end ProjectD.Path

namespace ProjectD.Dump

variable {dir input : String} {format : OutputFormat}

theorem outputPath_eq_error_iff :
    (∃ detail, outputPath input dir format = .error (.fileOperation detail)) ↔
      Path.Nameless input.toList := by
  rw [← Path.fileStem?_eq_none_iff]
  unfold outputPath
  cases Path.fileStem? input with
  | none => exact ⟨fun _ => rfl, fun _ => ⟨_, rfl⟩⟩
  | some stem => simp

theorem outputPath_of_hasStem {stem : List Char} (h : Path.HasStem input.toList stem) :
    outputPath input dir format =
      .ok (Path.join dir (String.ofList stem ++ "." ++ format.extension)) := by
  have hstem : Path.fileStem? input = some (String.ofList stem) := by
    rw [Path.fileStem?_eq_some_iff, String.toList_ofList]
    exact h
  exact outputPath_eq_ok_iff.mpr ⟨_, hstem, rfl⟩

/-- Different stems give different entries. -/
theorem stem_eq_of_join {a b : String}
    (ha : '/' ∉ (a ++ "." ++ format.extension).toList)
    (hb : '/' ∉ (b ++ "." ++ format.extension).toList)
    (h : Path.join dir (a ++ "." ++ format.extension) =
      Path.join dir (b ++ "." ++ format.extension)) : a = b := by
  have hnames := (Path.isEntry_join dir ha (outputName_ne a format)).names
  rw [h, (Path.isEntry_join dir hb (outputName_ne b format)).names] at hnames
  have hname := List.singleton_inj.mp (List.append_cancel_left hnames)
  have hlist := congrArg String.toList hname
  simp only [String.toList_append, List.append_assoc] at hlist
  exact String.toList_inj.mp (List.append_cancel_right hlist).symm

/-- An input without a name has no output file. Any other one has an entry of the directory, which
depends only on its last name and which it shares with the inputs of the same stem. -/
theorem outputPath_isEntry (input dir : String) (format : OutputFormat) :
    ((∃ detail, outputPath input dir format = .error (.fileOperation detail)) ↔
      Path.Nameless input.toList) ∧
    (¬ Path.Nameless input.toList → ∃ name stem target,
      Path.LastName input.toList name ∧ Path.IsStem name stem ∧
        outputPath input dir format = .ok target ∧
        Path.IsEntry dir (String.ofList stem ++ "." ++ format.extension) target ∧
        ∀ input' : String, Path.LastName input'.toList name →
          outputPath input' dir format = .ok target) ∧
    ∀ input' : String,
      (∃ target, outputPath input dir format = .ok target ∧
        outputPath input' dir format = .ok target) ↔
      ∃ stem, Path.HasStem input.toList stem ∧ Path.HasStem input'.toList stem := by
  refine ⟨outputPath_eq_error_iff, fun hnamed => ?_, fun input' => ⟨?_, ?_⟩⟩
  · rw [← Path.fileStem?_eq_none_iff, ← ne_eq, Option.ne_none_iff_exists'] at hnamed
    obtain ⟨stem, hstem⟩ := hnamed
    have hentry := Path.isEntry_join dir (not_mem_outputName hstem format)
      (outputName_ne stem format)
    obtain ⟨name, hlast, hup, hname⟩ := Path.fileStem?_eq_some_iff.mp hstem
    refine ⟨name, stem.toList, _, hlast, hname, outputPath_of_hasStem ⟨name, hlast, hup, hname⟩, ?_,
      fun input' hlast' => outputPath_of_hasStem ⟨name, hlast', hup, hname⟩⟩
    rw [String.ofList_toList]
    exact hentry
  · rintro ⟨target, h, h'⟩
    obtain ⟨stem, hstem, rfl⟩ := outputPath_eq_ok_iff.mp h
    obtain ⟨stem', hstem', heq⟩ := outputPath_eq_ok_iff.mp h'
    obtain rfl := stem_eq_of_join (not_mem_outputName hstem format)
      (not_mem_outputName hstem' format) heq
    exact ⟨_, Path.fileStem?_eq_some_iff.mp hstem, Path.fileStem?_eq_some_iff.mp hstem'⟩
  · rintro ⟨stem, h, h'⟩
    exact ⟨_, outputPath_of_hasStem h, outputPath_of_hasStem h'⟩

theorem outputPath_isEntry_trailing :
    outputPath "a/../b.x.pd/./" "out/" .json = .ok "out/b.x.json" ∧
      ¬ Path.Nameless "a/../b.x.pd/./".toList ∧
      (∃ name stem, Path.LastName "a/../b.x.pd/./".toList name ∧ Path.IsStem name stem ∧
        Path.IsEntry "out/" (String.ofList stem ++ "." ++ OutputFormat.json.extension)
          "out/b.x.json" ∧
        ∀ input' : String, Path.LastName input'.toList name →
          outputPath input' "out/" .json = .ok "out/b.x.json") ∧
      Path.Nameless "x/../.".toList := by
  have htarget : outputPath "a/../b.x.pd/./" "out/" .json = .ok "out/b.x.json" := by decide +kernel
  have hnamed : ¬ Path.Nameless "a/../b.x.pd/./".toList := by
    intro hnameless
    obtain ⟨detail, herror⟩ := (outputPath_isEntry _ "out/" .json).1.mpr hnameless
    rw [htarget] at herror
    cases herror
  obtain ⟨name, stem, target, hlast, hstem, hok, hentry, hother⟩ :=
    (outputPath_isEntry _ "out/" .json).2.1 hnamed
  rw [htarget] at hok
  obtain rfl := Except.ok.inj hok
  have herror : outputPath "x/../." "out/" .json =
      .error (.fileOperation "Invalid file path: x/../.") := by decide +kernel
  exact ⟨htarget, hnamed, ⟨name, stem, hlast, hstem, hentry, hother⟩,
    (outputPath_isEntry _ "out/" .json).1.mp ⟨_, herror⟩⟩

end ProjectD.Dump
