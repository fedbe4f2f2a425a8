import ProjectD.Commands
import ProjectD.Proofs.FileTrees

/-! # Where output files stand

The name of an output file is one part of a path: no slash comes from the input. So all output files
of a dump stand side by side in its directory, and two inputs share a file exactly when they have the
same stem (`stem_eq_of_slot`).
-/

set_option autoImplicit false

namespace ProjectD.Path

/-! ## Parts -/

theorem split_of_not_mem {cs : List Char} (h : '/' ∉ cs) : split cs = [cs] := by
  induction cs with
  | nil => rfl
  | cons c cs ih =>
    rw [List.mem_cons, not_or] at h
    rw [split, if_neg (Ne.symm h.1), ih h.2]

theorem split_append_slash (a b : List Char) : split (a ++ '/' :: b) = split a ++ split b := by
  induction a with
  | nil => simp [split]
  | cons c a ih =>
    rw [List.cons_append, split, split, ih]
    split
    · rfl
    · cases h : split a with
      | nil => exact absurd h (split_ne_nil a)
      | cons part parts => rfl

theorem not_mem_of_mem_split {cs part : List Char} (h : part ∈ split cs) : '/' ∉ part := by
  induction cs generalizing part with
  | nil =>
    simp only [split, List.mem_singleton] at h
    simp [h]
  | cons c cs ih =>
    unfold split at h
    split at h
    · rcases List.mem_cons.mp h with rfl | h
      · simp
      · exact ih h
    next hc =>
    split at h
    · next hnil => exact absurd hnil (split_ne_nil cs)
    next first parts hsplit =>
    rcases List.mem_cons.mp h with rfl | h
    · have hfirst : '/' ∉ first := ih (by rw [hsplit]; exact List.mem_cons_self ..)
      simp [Ne.symm hc, hfirst]
    · exact ih (by rw [hsplit]; exact List.mem_cons_of_mem _ h)

theorem not_isAbsolute {name : String} (h : '/' ∉ name.toList) : isAbsolute name = false := by
  simp only [isAbsolute, decide_eq_false_iff_not]
  exact fun hhead => h (List.mem_of_mem_head? (by simp [hhead]))

/-- The three ways of joining differ only in the slash between directory and name. -/
theorem join_cases (dir : String) {name : String} (h : '/' ∉ name.toList) :
    (dir = "" ∧ join dir name = name) ∨
      (∃ before, dir.toList = before ++ ['/'] ∧
        (join dir name).toList = before ++ '/' :: name.toList) ∨
      (dir ≠ "" ∧ (join dir name).toList = dir.toList ++ '/' :: name.toList) := by
  simp only [join, not_isAbsolute h, Bool.false_eq_true, false_or]
  split
  · next hdir => exact .inl ⟨hdir, rfl⟩
  next hdir =>
  split
  · next hlast =>
    have hsplit := List.dropLast_append_getLast? _ hlast
    refine .inr (.inl ⟨dir.toList.dropLast, hsplit.symm, ?_⟩)
    rw [String.toList_append, ← hsplit]
    simp
  · exact .inr (.inr ⟨hdir, by simp⟩)

theorem exists_parts_join (dir : String) {name : String} (h : '/' ∉ name.toList) :
    ∃ before, parts (join dir name) = before ++ [name] ∧
      (parts dir = before ∨ parts dir = before ++ [""]) := by
  rcases join_cases dir h with ⟨rfl, hjoin⟩ | ⟨before, hdir, hjoin⟩ | ⟨-, hjoin⟩
  · exact ⟨[], by simp [hjoin, parts, split_of_not_mem h], .inr rfl⟩
  · refine ⟨(split before).map String.ofList, ?_, .inr ?_⟩
    · simp [parts, hjoin, split_append_slash, split_of_not_mem h]
    · simp [parts, hdir, split_append_slash, split]
  · exact ⟨parts dir, by simp [parts, hjoin, split_append_slash, split_of_not_mem h], .inl rfl⟩

theorem isAbsolute_join (dir : String) {name : String} (h : '/' ∉ name.toList) :
    isAbsolute (join dir name) = isAbsolute dir := by
  rcases join_cases dir h with ⟨rfl, hjoin⟩ | ⟨before, hdir, hjoin⟩ | ⟨hne, hjoin⟩
  · rw [hjoin, not_isAbsolute h]
    rfl
  · simp only [isAbsolute, hjoin, hdir]
    cases before <;> rfl
  · simp only [isAbsolute, hjoin]
    cases hcs : dir.toList with
    | nil => exact absurd (String.toList_eq_nil_iff.mp hcs) hne
    | cons c cs => rfl

/-- Going down by one name and then further is going down at once. -/
theorem join_join (dir : String) {name rest : String} (hname : name ≠ "")
    (hslash : '/' ∉ name.toList) (hrest : isAbsolute rest = false) :
    join (join dir name) rest = join dir (name ++ "/" ++ rest) := by
  have hcs : name.toList ≠ [] := mt String.toList_eq_nil_iff.mp hname
  obtain ⟨before, hjoin⟩ : ∃ before, (join dir name).toList = before ++ name.toList := by
    rcases join_cases dir hslash with ⟨-, hjoin⟩ | ⟨before, -, hjoin⟩ | ⟨-, hjoin⟩
    · exact ⟨[], by rw [hjoin, List.nil_append]⟩
    · exact ⟨before ++ ['/'], by simp [hjoin]⟩
    · exact ⟨dir.toList ++ ['/'], by simp [hjoin]⟩
  have hlast : (join dir name).toList.getLast? ≠ some '/' := by
    rw [hjoin, List.getLast?_append_of_ne_nil _ hcs]
    exact fun hlast => hslash (List.mem_of_getLast? hlast)
  have hne : join dir name ≠ "" := by
    intro hempty
    rw [hempty] at hjoin
    exact hcs (List.append_eq_nil_iff.mp hjoin.symm).2
  have hlong : isAbsolute (name ++ "/" ++ rest) = false := by
    rw [← not_isAbsolute hslash]
    simp only [isAbsolute, String.toList_append, List.append_assoc,
      List.head?_append_of_ne_nil _ hcs]
  calc join (join dir name) rest = join dir name ++ "/" ++ rest := by
        rw [join, if_neg (by simp [hrest, hne]), if_neg hlast]
    _ = join dir (name ++ "/" ++ rest) := by
        simp only [join, not_isAbsolute hslash, hlong, Bool.false_eq_true, false_or]
        split
        · rfl
        split <;> simp only [String.append_assoc]

/-! ## Stems -/

theorem not_mem_of_fileStem? {path stem : String} (h : fileStem? path = some stem) :
    '/' ∉ stem.toList := by
  obtain ⟨name, hname, rfl⟩ := Option.map_eq_some_iff.mp h
  have hmem : name ∈ names path := by
    unfold fileName? at hname
    split at hname
    · cases hname
    · exact List.mem_of_getLast? hname
  obtain ⟨part, hpart, rfl⟩ := List.mem_map.mp (List.mem_of_mem_filter hmem)
  rw [String.toList_ofList, String.toList_ofList]
  intro hslash
  refine not_mem_of_mem_split hpart ?_
  -- The stem is the name, or what stands before its last period.
  unfold stemOfName at hslash
  dsimp only at hslash
  split at hslash
  · exact hslash
  · exact List.mem_reverse.mp ((List.dropWhile_sublist _).mem
      ((List.drop_sublist 1 _).mem (List.mem_reverse.mp hslash)))

end ProjectD.Path

namespace ProjectD

variable {t : FileTree} {place : Place} {dir a b : String}

/-! ## Slots in one directory -/

theorem FileTree.Slot.exists_directory (ha : '/' ∉ a.toList)
    (h : t.Slot (Path.join dir a) place) :
    ∃ d, t.walk (t.origin dir) (Path.parts dir) = .ok d ∧ place = d ++ [a] := by
  obtain ⟨before, hjoin, hdir⟩ := Path.exists_parts_join dir ha
  obtain ⟨-, hparts, -, hwalk, hd, -⟩ := h
  rw [hjoin] at hparts
  obtain ⟨rfl, hlast⟩ := List.append_inj' hparts rfl
  rw [FileTree.origin, Path.isAbsolute_join dir ha] at hwalk
  refine ⟨_, ?_, by rw [hlast]⟩
  rcases hdir with hdir | hdir
  · rw [hdir]
    exact hwalk
  · rw [hdir]
    exact walk_append_iff.mpr ⟨_, hwalk, walk_blanks hd (by simp)⟩

namespace Dump

variable {format : OutputFormat} {input target : String}

theorem outputPath_eq_ok_iff :
    outputPath input dir format = .ok target ↔ ∃ stem, Path.fileStem? input = some stem ∧
      target = Path.join dir (stem ++ "." ++ format.extension) := by
  unfold outputPath
  cases Path.fileStem? input with
  | none => simp
  | some stem => simp [eq_comm]

theorem not_mem_outputName {stem : String} (h : Path.fileStem? input = some stem)
    (format : OutputFormat) : '/' ∉ (stem ++ "." ++ format.extension).toList := by
  have hstem := Path.not_mem_of_fileStem? h
  cases format <;> simp [hstem, OutputFormat.extension]

/-- A name with a period and an extension is no step of a path. -/
theorem outputName_ne (stem : String) (format : OutputFormat) :
    stem ++ "." ++ format.extension ≠ "" ∧ stem ++ "." ++ format.extension ≠ "." ∧
      stem ++ "." ++ format.extension ≠ ".." := by
  have hlong : 2 < (stem ++ "." ++ format.extension).length := by
    have hext : 3 ≤ format.extension.length := by cases format <;> decide
    rw [String.length_append]
    omega
  have hne : ∀ step : String, step.length ≤ 2 → stem ++ "." ++ format.extension ≠ step := by
    rintro step hstep rfl
    omega
  exact ⟨hne "" (by decide), hne "." (by decide), hne ".." (by decide)⟩

/-- Where the path of an output file leads, there is its slot. -/
theorem slot_of_resolve (h : outputPath input dir format = .ok target)
    (hplace : t.resolve target = .ok place) : t.Slot target place := by
  obtain ⟨stem, hstem, rfl⟩ := outputPath_eq_ok_iff.mp h
  obtain ⟨before, hparts, -⟩ := Path.exists_parts_join dir (not_mem_outputName hstem format)
  obtain ⟨hcheck, hwalk⟩ := FileTree.resolve_eq_ok_iff.mp hplace
  rw [hparts] at hwalk
  obtain ⟨d, hbefore, hlast⟩ := FileTree.walk_append_iff.mp hwalk
  obtain ⟨hdir, next, hnext, hend⟩ := FileTree.walk_cons_iff.mp hlast
  obtain rfl := Except.ok.inj hend
  have hname := outputName_ne stem format
  cases hnext with
  | stay hstay => simp [hname.1, hname.2.1] at hstay
  | up hup => exact absurd hup hname.2.2
  | down _ _ hshort _ => exact ⟨hcheck, hparts, hname, hbefore, hdir, hshort⟩

/-- Output files at one place belong to inputs of one stem. -/
theorem stem_eq_of_slot {input' target' : String} (h : outputPath input dir format = .ok target)
    (h' : outputPath input' dir format = .ok target') (hslot : t.Slot target place)
    (hslot' : t.Slot target' place) : Path.fileStem? input = Path.fileStem? input' := by
  obtain ⟨stem, hstem, rfl⟩ := outputPath_eq_ok_iff.mp h
  obtain ⟨stem', hstem', rfl⟩ := outputPath_eq_ok_iff.mp h'
  obtain ⟨d, hd, rfl⟩ := hslot.exists_directory (not_mem_outputName hstem format)
  obtain ⟨d', hd', heq⟩ := hslot'.exists_directory (not_mem_outputName hstem' format)
  obtain ⟨-, hname⟩ := List.append_inj' heq rfl
  have hlist := congrArg String.toList (List.singleton_inj.mp hname)
  rw [String.toList_append, String.toList_append, String.toList_append, String.toList_append] at hlist
  rw [hstem, hstem', String.toList_inj.mp (List.append_cancel_right (List.append_cancel_right hlist))]

theorem outputPath_congr {input' : String} (h : Path.fileStem? input = Path.fileStem? input')
    (htarget : outputPath input dir format = .ok target) :
    outputPath input' dir format = .ok target := by
  rw [outputPath_eq_ok_iff] at htarget ⊢
  rwa [← h]

end Dump

end ProjectD
