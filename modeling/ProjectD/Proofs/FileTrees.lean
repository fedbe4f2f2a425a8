import Mathlib.Data.List.Basic
import Mathlib.Data.List.TakeWhile
import ProjectD.Files.Tree

/-! # What file operations change

A path is followed one part at a time (`walk_cons_iff`), and only directories are passed on the way.
So a path that leads somewhere still leads there when entries are added (`KeptIn`), and a path that
leads to a directory leads there before and after files are written (`FilesWritten`).

* `Slot t path place`: a file written to `path` goes to `place`. Writing succeeds exactly at a slot
  that holds no directory (`writeFile_eq_ok_iff`).
* `GrownBy t t' paths`: all of `t` is kept in `t'`, and what is new are directories that `paths`
  lead to. A chain of directories is made in this way, also when making it fails (`makeChain_grownBy`).
-/

set_option autoImplicit false

theorem ProjectD.Path.split_ne_nil (cs : List Char) : split cs ≠ [] := by
  induction cs with
  | nil => simp [split]
  | cons c cs ih =>
    unfold split
    split
    · simp
    · split <;> simp

theorem ProjectD.Path.parts_ne_nil (path : String) : parts path ≠ [] := by
  simp [parts, split_ne_nil]

theorem ProjectD.Path.parts_eq_concat (path : String) :
    parts path = (parts path).dropLast ++ [(parts path).getLastD ""] := by
  have hne := parts_ne_nil path
  rw [List.getLastD_eq_getLast?, List.getLast?_eq_getLast_of_ne_nil hne, Option.getD_some,
    List.dropLast_concat_getLast hne]

namespace ProjectD.FileTree

variable {t t' t'' : FileTree} {place q d : Place} {path part : String} {parts : List String}

/-! ## Following a path -/

/-- One part of a path leads from a directory at `place` to another place. -/
inductive Leads (t : FileTree) (place : Place) (part : String) : Place → Prop where
  | stay (h : part = "" ∨ part = ".") : Leads t place part place
  | up (h : part = "..") : Leads t place part place.dropLast
  | down (hname : ¬ (part = "" ∨ part = ".")) (hup : part ≠ "..")
    (hshort : part.utf8ByteSize ≤ maxNameLength) (h : (t.get? (place ++ [part])).isSome) :
    Leads t place part (place ++ [part])

@[simp] theorem walk_nil : t.walk place [] = .ok place := rfl

theorem walk_of_leads (hdir : t.get? place = some .directory) (h : Leads t place part q)
    (parts : List String) : t.walk place (part :: parts) = t.walk q parts := by
  rw [walk, if_neg (not_not_intro hdir)]
  cases h with
  | stay hstay => rw [if_pos hstay]
  | up hup =>
    subst hup
    rfl
  | down hname hup hshort hthere =>
    obtain ⟨entry, hentry⟩ := Option.isSome_iff_exists.mp hthere
    rw [if_neg hname, if_neg hup, if_neg (Nat.not_lt.mpr hshort), hentry]

theorem walk_cons_iff :
    t.walk place (part :: parts) = .ok q ↔
      t.get? place = some .directory ∧ ∃ next, Leads t place part next ∧
        t.walk next parts = .ok q := by
  constructor
  · intro h
    unfold walk at h
    split at h
    · cases h
    next hdir =>
    refine ⟨Decidable.not_not.mp hdir, ?_⟩
    split at h
    · next hstay => exact ⟨_, .stay hstay, h⟩
    next hname =>
    split at h
    · next hup => exact ⟨_, .up hup, h⟩
    next hup =>
    split at h
    · cases h
    next hlong =>
    split at h
    · cases h
    next entry hentry =>
    exact ⟨_, .down hname hup (Nat.le_of_not_lt hlong) (by rw [hentry]; rfl), h⟩
  · rintro ⟨hdir, next, hnext, h⟩
    rw [walk_of_leads hdir hnext, h]

theorem walk_append_iff {a b : List String} :
    t.walk place (a ++ b) = .ok q ↔ ∃ m, t.walk place a = .ok m ∧ t.walk m b = .ok q := by
  induction a generalizing place with
  | nil => simp
  | cons part a ih =>
    simp only [List.cons_append, walk_cons_iff, ih]
    constructor
    · rintro ⟨hdir, next, hnext, m, ha, hb⟩
      exact ⟨m, ⟨hdir, next, hnext, ha⟩, hb⟩
    · rintro ⟨m, ⟨hdir, next, hnext, ha⟩, hb⟩
      exact ⟨hdir, next, hnext, m, ha, hb⟩

/-- Empty parts lead nowhere else, but only directories have them. -/
theorem walk_blanks (hdir : t.get? place = some .directory) (h : ∀ part ∈ parts, part = "") :
    t.walk place parts = .ok place := by
  induction parts with
  | nil => rfl
  | cons part parts ih =>
    rw [List.forall_mem_cons] at h
    exact walk_cons_iff.mpr ⟨hdir, place, .stay (.inl h.1), ih h.2⟩

theorem directory_of_walk (h : t.walk place parts = .ok q) (hq : t.get? q = some .directory) :
    t.get? place = some .directory := by
  cases parts with
  | nil =>
    obtain rfl := Except.ok.inj h
    exact hq
  | cons part parts => exact (walk_cons_iff.mp h).1

theorem resolve_eq_ok_iff :
    t.resolve path = .ok place ↔
      checkPath path = .ok () ∧ t.walk (t.origin path) (Path.parts path) = .ok place := by
  unfold resolve
  cases checkPath path <;> simp

theorem find?_eq_some_iff {entry : Entry} :
    t.find? path = some entry ↔
      ∃ place, t.resolve path = .ok place ∧ t.get? place = some entry := by
  unfold find?
  cases t.resolve path <;> simp

theorem readBytes_eq_ok_iff {content : ByteArray} :
    t.readBytes path = .ok content ↔
      ∃ place, t.resolve path = .ok place ∧ t.get? place = some (.file content) := by
  unfold readBytes
  cases t.resolve path with
  | error e => simp
  | ok place =>
    cases h : t.get? place with
    | none => simp [h]
    | some entry => cases entry <;> simp [h]

/-! ## Trees that a path passes alike -/

/-- Every path of `t` can be followed in `t'`. -/
structure Passable (t t' : FileTree) : Prop where
  workingDirectory : t'.workingDirectory = t.workingDirectory
  directory : ∀ {place}, t.get? place = some .directory → t'.get? place = some .directory
  present : ∀ {place}, (t.get? place).isSome → (t'.get? place).isSome

theorem Passable.leads (h : Passable t t') (hl : Leads t place part q) : Leads t' place part q := by
  cases hl with
  | stay hstay => exact .stay hstay
  | up hup => exact .up hup
  | down hname hup hshort hthere => exact .down hname hup hshort (h.present hthere)

theorem Passable.walk (h : Passable t t') (hw : t.walk place parts = .ok q) :
    t'.walk place parts = .ok q := by
  induction parts generalizing place with
  | nil => exact hw
  | cons part parts ih =>
    obtain ⟨hdir, next, hnext, hw⟩ := walk_cons_iff.mp hw
    exact walk_cons_iff.mpr ⟨h.directory hdir, next, h.leads hnext, ih hw⟩

theorem Passable.origin (h : Passable t t') (path : String) : t'.origin path = t.origin path := by
  rw [FileTree.origin, FileTree.origin, h.workingDirectory]

theorem Passable.resolve (h : Passable t t') (hr : t.resolve path = .ok place) :
    t'.resolve path = .ok place := by
  rw [resolve_eq_ok_iff] at hr ⊢
  rw [h.origin]
  exact ⟨hr.1, h.walk hr.2⟩

/-- All that stands in `t` stands in `t'` as it is. -/
structure KeptIn (t t' : FileTree) : Prop where
  workingDirectory : t'.workingDirectory = t.workingDirectory
  get? : ∀ {place entry}, t.get? place = some entry → t'.get? place = some entry

theorem KeptIn.refl (t : FileTree) : KeptIn t t := ⟨rfl, id⟩

theorem KeptIn.trans (h : KeptIn t t') (h' : KeptIn t' t'') : KeptIn t t'' :=
  ⟨h'.workingDirectory.trans h.workingDirectory, fun hp => h'.get? (h.get? hp)⟩

theorem KeptIn.passable (h : KeptIn t t') : Passable t t' := by
  refine ⟨h.workingDirectory, h.get?, fun hp => ?_⟩
  obtain ⟨entry, hentry⟩ := Option.isSome_iff_exists.mp hp
  rw [h.get? hentry]
  rfl

theorem KeptIn.get?_eq_none (h : KeptIn t t') (hp : t'.get? place = none) :
    t.get? place = none := by
  rw [Option.eq_none_iff_forall_ne_some] at hp ⊢
  exact fun entry hentry => hp entry (h.get? hentry)

theorem keptIn_set (entry : Entry) (hne : place ≠ []) (hnone : t.get? place = none) :
    KeptIn t (t.set place entry) := by
  refine ⟨rfl, fun {p e} hp => ?_⟩
  rw [get?_set t hne, if_neg, hp]
  rintro rfl
  rw [hnone] at hp
  cases hp

/-- Files were written in `t`, perhaps over others, and nothing else was done. -/
structure FilesWritten (t t' : FileTree) : Prop where
  workingDirectory : t'.workingDirectory = t.workingDirectory
  directory_iff : ∀ place, t'.get? place = some .directory ↔ t.get? place = some .directory
  present : ∀ {place}, (t.get? place).isSome → (t'.get? place).isSome

theorem FilesWritten.refl (t : FileTree) : FilesWritten t t := ⟨rfl, fun _ => Iff.rfl, id⟩

theorem FilesWritten.trans (h : FilesWritten t t') (h' : FilesWritten t' t'') :
    FilesWritten t t'' :=
  ⟨h'.workingDirectory.trans h.workingDirectory,
    fun place => (h'.directory_iff place).trans (h.directory_iff place),
    fun hp => h'.present (h.present hp)⟩

theorem FilesWritten.passable (h : FilesWritten t t') : Passable t t' :=
  ⟨h.workingDirectory, (h.directory_iff _).mpr, h.present⟩

theorem filesWritten_set (hne : place ≠ []) (hdir : t.get? place ≠ some .directory)
    (content : ByteArray) : FilesWritten t (t.set place (.file content)) := by
  refine ⟨rfl, fun p => ?_, fun {p} hp => ?_⟩
  · rw [get?_set t hne]
    by_cases heq : p = place
    · subst heq
      simp [hdir]
    · rw [if_neg heq]
  · rw [get?_set t hne]
    split
    · rfl
    · exact hp

/-- A path that leads to a directory passes directories only, so it does not need the files. -/
theorem FilesWritten.walk_directory_iff (h : FilesWritten t t') (hq : t.get? q = some .directory) :
    t'.walk place parts = .ok q ↔ t.walk place parts = .ok q := by
  refine ⟨fun hw => ?_, h.passable.walk⟩
  have hq' : t'.get? q = some .directory := (h.directory_iff q).mpr hq
  induction parts generalizing place with
  | nil => exact hw
  | cons part parts ih =>
    obtain ⟨hdir, next, hnext, hw⟩ := walk_cons_iff.mp hw
    have hthere := (h.directory_iff next).mp (directory_of_walk hw hq')
    refine walk_cons_iff.mpr ⟨(h.directory_iff place).mp hdir, next, ?_, ih hw⟩
    cases hnext with
    | stay hstay => exact .stay hstay
    | up hup => exact .up hup
    | down hname hup hshort => exact .down hname hup hshort (by rw [hthere]; rfl)

/-! ## Writing a file -/

/-- A file written to `path` goes to this place, in a directory that is there. -/
inductive Slot (t : FileTree) (path : String) : Place → Prop where
  | intro {before : List String} {last : String} {d : Place} (hcheck : checkPath path = .ok ())
    (hparts : Path.parts path = before ++ [last]) (hname : last ≠ "" ∧ last ≠ "." ∧ last ≠ "..")
    (hwalk : t.walk (t.origin path) before = .ok d) (hdir : t.get? d = some .directory)
    (hshort : last.utf8ByteSize ≤ maxNameLength) : Slot t path (d ++ [last])

theorem Slot.ne_nil (h : t.Slot path place) : place ≠ [] := by
  cases h
  simp

theorem Slot.unique (h : t.Slot path place) (h' : t.Slot path q) : place = q := by
  obtain ⟨-, hparts, -, hwalk, -, -⟩ := h
  obtain ⟨-, hparts', -, hwalk', -, -⟩ := h'
  rw [hparts] at hparts'
  obtain ⟨rfl, hlast⟩ := List.append_inj' hparts' rfl
  rw [hwalk] at hwalk'
  rw [Except.ok.inj hwalk', hlast]

theorem Slot.resolve (h : t.Slot path place) (hthere : (t.get? place).isSome) :
    t.resolve path = .ok place := by
  obtain ⟨hcheck, hparts, ⟨hne, hdot, hup⟩, hwalk, hdir, hshort⟩ := h
  rw [resolve_eq_ok_iff, hparts]
  refine ⟨hcheck, walk_append_iff.mpr ⟨_, hwalk, walk_cons_iff.mpr ⟨hdir, _, ?_, rfl⟩⟩⟩
  exact .down (by simp [hne, hdot]) hup hshort hthere

/-- What a path leads to is what stands at its slot. -/
theorem Slot.find? (h : t.Slot path place) : t.find? path = t.get? place := by
  cases hget : t.get? place with
  | some entry =>
    exact find?_eq_some_iff.mpr ⟨place, h.resolve (by rw [hget]; rfl), hget⟩
  | none =>
    obtain ⟨-, hparts, ⟨hne, hdot, hup⟩, hwalk, -, -⟩ := h
    rw [Option.eq_none_iff_forall_ne_some]
    intro entry hfind
    obtain ⟨q, hresolve, -⟩ := find?_eq_some_iff.mp hfind
    rw [resolve_eq_ok_iff, hparts] at hresolve
    obtain ⟨m, hm, hlast⟩ := walk_append_iff.mp hresolve.2
    rw [hwalk] at hm
    obtain rfl := Except.ok.inj hm
    obtain ⟨-, next, hnext, -⟩ := walk_cons_iff.mp hlast
    cases hnext with
    | stay hstay => simp [hne, hdot] at hstay
    | up h => exact hup h
    | down _ _ _ hthere => simp [hget] at hthere

theorem Slot.contains (h : t.Slot path place) : t.contains path = (t.get? place).isSome := by
  rw [FileTree.contains, h.find?]

theorem FilesWritten.slot_iff (h : FilesWritten t t') :
    t'.Slot path place ↔ t.Slot path place := by
  constructor
  · rintro ⟨hcheck, hparts, hname, hwalk, hdir, hshort⟩
    rw [h.directory_iff] at hdir
    rw [h.passable.origin, h.walk_directory_iff hdir] at hwalk
    exact ⟨hcheck, hparts, hname, hwalk, hdir, hshort⟩
  · rintro ⟨hcheck, hparts, hname, hwalk, hdir, hshort⟩
    rw [← h.walk_directory_iff hdir, ← h.passable.origin] at hwalk
    rw [← h.directory_iff] at hdir
    exact ⟨hcheck, hparts, hname, hwalk, hdir, hshort⟩

theorem locate_eq_ok_iff {before : List String} {last : String} :
    t.locate path before last = .ok place ↔ ∃ d, t.walk (t.origin path) before = .ok d ∧
      t.get? d = some .directory ∧ last.utf8ByteSize ≤ maxNameLength ∧ place = d ++ [last] := by
  unfold locate
  cases t.walk (t.origin path) before with
  | error e => simp
  | ok d =>
    simp only [Except.ok.injEq, exists_eq_left']
    by_cases hdir : t.get? d = some .directory
    · by_cases hlong : maxNameLength < last.utf8ByteSize
      · simp [hdir, hlong, Nat.not_le.mpr hlong]
      · simp [hdir, hlong, Nat.le_of_not_lt hlong, eq_comm]
    · simp [hdir]

theorem isStep_eq_false_iff : isStep part = false ↔ part ≠ "." ∧ part ≠ ".." := by
  simp [isStep]

/-- Where a file written to `path` goes, or why it cannot be written. -/
def slot? (t : FileTree) (path : String) : Except FileError Place :=
  match checkPath path with
  | .error e => .error e
  | .ok () =>
    match t.locate path (Path.parts path).dropLast ((Path.parts path).getLastD "") with
    | .error e => .error e
    | .ok place =>
      if ((Path.parts path).getLastD "" = "" ∨ isStep ((Path.parts path).getLastD "")) ∨
          t.get? place = some .directory then .error .isADirectory
      else .ok place

theorem writeFile_eq_map (t : FileTree) (path : String) (content : ByteArray) :
    t.writeFile path content = (t.slot? path).map (t.set · (.file content)) := by
  unfold writeFile slot?
  cases checkPath path with
  | error e => rfl
  | ok _ =>
    dsimp only
    cases t.locate path (Path.parts path).dropLast ((Path.parts path).getLastD "") with
    | error e => rfl
    | ok place =>
      dsimp only
      by_cases hname : (Path.parts path).getLastD "" = "" ∨ isStep ((Path.parts path).getLastD "")
      · rw [if_pos hname, if_pos (.inl hname)]
        rfl
      · rw [if_neg hname]
        split
        · next hdir =>
          rw [if_pos (.inr hdir)]
          rfl
        · next hdir =>
          rw [if_neg (not_or.mpr ⟨hname, hdir⟩)]
          rfl

theorem slot?_eq_ok_iff :
    t.slot? path = .ok place ↔ t.Slot path place ∧ t.get? place ≠ some .directory := by
  constructor
  · intro h
    unfold slot? at h
    split at h
    · cases h
    next hcheck =>
    split at h
    · cases h
    next q hlocate =>
    split at h
    · cases h
    next hname =>
    obtain rfl := Except.ok.inj h
    obtain ⟨d, hwalk, hd, hshort, rfl⟩ := locate_eq_ok_iff.mp hlocate
    rw [not_or, not_or, Bool.not_eq_true, isStep_eq_false_iff] at hname
    exact ⟨⟨hcheck, Path.parts_eq_concat path, hname.1, hwalk, hd, hshort⟩, hname.2⟩
  · rintro ⟨⟨hcheck, hparts, ⟨hne, hstep⟩, hwalk, hd, hshort⟩, hdir⟩
    have hlocate := locate_eq_ok_iff.mpr ⟨_, hwalk, hd, hshort, rfl⟩
    simp only [slot?, hcheck, hparts, List.dropLast_concat, List.getLastD_concat, hlocate, hne,
      isStep_eq_false_iff.mpr hstep, hdir, Bool.false_eq_true, or_self, if_false]

theorem writeFile_eq_ok_iff {content : ByteArray} :
    t.writeFile path content = .ok t' ↔ ∃ place, t.Slot path place ∧
      t.get? place ≠ some .directory ∧ t' = t.set place (.file content) := by
  rw [writeFile_eq_map]
  constructor
  · intro h
    cases hslot : t.slot? path with
    | error e =>
      rw [hslot] at h
      cases h
    | ok place =>
      rw [hslot] at h
      obtain ⟨hplace, hdir⟩ := slot?_eq_ok_iff.mp hslot
      exact ⟨place, hplace, hdir, (Except.ok.inj h).symm⟩
  · rintro ⟨place, hplace, hdir, rfl⟩
    rw [slot?_eq_ok_iff.mpr ⟨hplace, hdir⟩]
    rfl

/-! ## Making directories -/

/-- All of `t` is kept in `t'`, and what is new are directories that the paths lead to. -/
structure GrownBy (t t' : FileTree) (paths : List String) : Prop extends KeptIn t t' where
  new : ∀ {place entry}, t'.get? place = some entry → t.get? place = some entry ∨
    entry = .directory ∧ ∃ path ∈ paths, t'.resolve path = .ok place

theorem GrownBy.refl (t : FileTree) (paths : List String) : GrownBy t t paths :=
  ⟨.refl t, .inl⟩

theorem GrownBy.file {paths : List String} {content : ByteArray} (h : GrownBy t t' paths)
    (hp : t'.get? place = some (.file content)) : t.get? place = some (.file content) := by
  rcases h.new hp with hold | ⟨hdir, -⟩
  · exact hold
  · cases hdir

/-- The files of `t` and `t'` are the same, and paths of `t` lead to the same places in `t'`. -/
structure SameFiles (t t' : FileTree) : Prop where
  file_iff : ∀ place content,
    t'.get? place = some (.file content) ↔ t.get? place = some (.file content)
  resolve : ∀ path place, t.resolve path = .ok place → t'.resolve path = .ok place

theorem GrownBy.sameFiles {paths : List String} (h : GrownBy t t' paths) : SameFiles t t' :=
  ⟨fun _ _ => ⟨h.file, h.get?⟩, fun _ _ => h.passable.resolve⟩

theorem trimmedParts_append (path : String) :
    ∃ blanks, Path.parts path = trimmedParts path ++ blanks ∧ ∀ part ∈ blanks, part = "" := by
  refine ⟨((Path.parts path).reverse.takeWhile (· = "")).reverse, ?_, fun part hpart => ?_⟩
  · rw [trimmedParts, ← List.reverse_append, List.takeWhile_append_dropWhile, List.reverse_reverse]
  · simpa using List.mem_takeWhile_imp (List.mem_reverse.mp hpart)

theorem ne_blank_of_trimmedParts {last : String} (h : (trimmedParts path).getLast? = some last) :
    last ≠ "" := by
  rw [trimmedParts, List.getLast?_reverse] at h
  have hhead := List.head?_dropWhile_not (· = "") (Path.parts path).reverse
  rw [h] at hhead
  simpa using hhead

/-- A directory is made where nothing stands, and its path leads there afterwards. -/
theorem makeDirectory_eq_ok (h : t.makeDirectory path = .ok t') :
    ∃ place, place ≠ [] ∧ t.get? place = none ∧ t' = t.set place .directory ∧
      t'.resolve path = .ok place := by
  unfold makeDirectory at h
  split at h
  · cases h
  next hcheck =>
  split at h
  · cases h
  next last hlast =>
  split at h
  · cases h
  next place hlocate =>
  split at h
  · cases h
  next hfree =>
  rw [not_or, Bool.not_eq_true, isStep_eq_false_iff, Option.not_isSome_iff_eq_none] at hfree
  obtain ⟨⟨hdot, hup⟩, hnone⟩ := hfree
  obtain rfl := Except.ok.inj h
  obtain ⟨d, hwalk, hd, hshort, rfl⟩ := locate_eq_ok_iff.mp hlocate
  have hne : d ++ [last] ≠ [] := by simp
  have hkept := keptIn_set .directory hne hnone
  have hmade : (t.set (d ++ [last]) .directory).get? (d ++ [last]) = some .directory := by
    rw [get?_set t hne, if_pos rfl]
  refine ⟨_, hne, hnone, rfl, resolve_eq_ok_iff.mpr ⟨hcheck, ?_⟩⟩
  -- The parts before the last one, the new directory, and slashes after it.
  obtain ⟨blanks, hparts, hblanks⟩ := trimmedParts_append path
  rw [hparts, ← List.dropLast_append_getLast? _ hlast, List.append_assoc, hkept.passable.origin]
  refine walk_append_iff.mpr ⟨d, hkept.passable.walk hwalk, ?_⟩
  refine walk_cons_iff.mpr ⟨hkept.get? hd, _, ?_, walk_blanks hmade hblanks⟩
  exact .down (by simp [ne_blank_of_trimmedParts hlast, hdot]) hup hshort (by rw [hmade]; rfl)

theorem makeDirectory_grownBy {paths : List String} (h : t.makeDirectory path = .ok t')
    (hpath : path ∈ paths) : GrownBy t t' paths := by
  obtain ⟨made, hne, hnone, rfl, hresolve⟩ := makeDirectory_eq_ok h
  refine ⟨keptIn_set _ hne hnone, fun {p e} hp => ?_⟩
  rw [get?_set t hne] at hp
  split at hp
  · next heq =>
    subst heq
    exact .inr ⟨(Option.some.inj hp).symm, path, hpath, hresolve⟩
  · exact .inl hp

theorem GrownBy.trans {paths : List String} (h : GrownBy t t' paths) (h' : GrownBy t' t'' paths) :
    GrownBy t t'' paths := by
  refine ⟨h.toKeptIn.trans h'.toKeptIn, fun hp => ?_⟩
  rcases h'.new hp with hp | hnew
  · rcases h.new hp with hold | ⟨hdir, path, hpath, hresolve⟩
    · exact .inl hold
    · exact .inr ⟨hdir, path, hpath, h'.passable.resolve hresolve⟩
  · exact .inr hnew

theorem GrownBy.mono {paths paths' : List String} (h : GrownBy t t' paths)
    (hsub : ∀ path ∈ paths, path ∈ paths') : GrownBy t t' paths' := by
  refine ⟨h.toKeptIn, fun hp => ?_⟩
  rcases h.new hp with hold | ⟨hdir, path, hpath, hresolve⟩
  · exact .inl hold
  · exact .inr ⟨hdir, path, hsub path hpath, hresolve⟩

/-- What making a chain of directories leaves behind, whether it succeeds or not. -/
theorem makeChain_grownBy (t : FileTree) (paths : List String) :
    GrownBy t (t.makeChain paths).1 paths := by
  induction paths with
  | nil => exact .refl t []
  | cons path parents ih =>
    have hgrown := ih.mono fun _ h => List.mem_cons_of_mem path h
    have hself : path ∈ path :: parents := List.mem_cons_self ..
    unfold makeChain
    split
    · next made hmade => exact makeDirectory_grownBy hmade hself
    · split
      · next grown e hchain =>
        rwa [hchain] at hgrown
      · next grown hchain =>
        rw [hchain] at hgrown
        split
        · next made hmade => exact hgrown.trans (makeDirectory_grownBy hmade hself)
        · split <;> exact hgrown
    · split <;> exact .refl t _

end ProjectD.FileTree
