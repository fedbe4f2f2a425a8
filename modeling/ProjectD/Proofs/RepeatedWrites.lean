import Mathlib.Data.List.Induction
import ProjectD.Proofs.FileTrees

/-! # Files written again

Files are written one after another, some of them over others. Doing the same once more changes
nothing, and not even the order of the entries (`writeAll_writeAll`).

What files were written matters to a path in two ways only: it leads to one of them, or it goes on
below one of them, where it found nothing before and now finds that a file is no directory
(`FilesWritten.walk_cases`, `FilesWritten.readBytes_cases`). The output directory of a dump is not
among these: it leads to a directory, and to make it again changes nothing
(`Made.makeDirectories`).
-/

set_option autoImplicit false

namespace ProjectD.FileTree

variable {t t' : FileTree} {place p q : Place} {path part : String}
  {parts before after : List String} {writes : List (Place × ByteArray)}

/-! ## Entries set twice -/

theorem setEntry_setEntry (place : Place) (a b : Entry) (entries : List (Place × Entry)) :
    setEntry place b (setEntry place a entries) = setEntry place b entries := by
  induction entries with
  | nil => simp [setEntry]
  | cons head rest ih =>
    obtain ⟨k, e⟩ := head
    by_cases hk : k = place
    · simp [setEntry, hk]
    · simp [setEntry, hk, ih]

theorem setEntry_comm {entries : List (Place × Entry)} (hne : p ≠ q)
    (hq : (entries.lookup q).isSome) (a b : Entry) :
    setEntry q b (setEntry p a entries) = setEntry p a (setEntry q b entries) := by
  induction entries with
  | nil => simp at hq
  | cons head rest ih =>
    obtain ⟨k, e⟩ := head
    by_cases hkp : k = p
    · subst hkp
      simp [setEntry, hne]
    by_cases hkq : k = q
    · subst hkq
      simp [setEntry, hne.symm]
    · have hrest : (rest.lookup q).isSome := by
        rwa [List.lookup_cons, beq_false_of_ne (Ne.symm hkq)] at hq
      simp [setEntry, hkp, hkq, ih hrest]

theorem set_set (t : FileTree) (place : Place) (a b : Entry) :
    (t.set place a).set place b = t.set place b :=
  congrArg (FileTree.mk · t.workingDirectory) (setEntry_setEntry place a b t.entries)

theorem set_comm (hne : p ≠ q) (hroot : q ≠ []) (hq : (t.get? q).isSome) (a b : Entry) :
    (t.set p a).set q b = (t.set q b).set p a := by
  rw [get?, if_neg hroot] at hq
  exact congrArg (FileTree.mk · t.workingDirectory) (setEntry_comm hne hq a b)

/-! ## A list of writes -/

/-- The tree after files are written, one after another. -/
def writeAll (t : FileTree) (writes : List (Place × ByteArray)) : FileTree :=
  writes.foldl (fun t w => t.set w.1 (.file w.2)) t

theorem writeAll_cons (t : FileTree) (w : Place × ByteArray) (writes : List (Place × ByteArray)) :
    t.writeAll (w :: writes) = (t.set w.1 (.file w.2)).writeAll writes := rfl

theorem writeAll_concat (t : FileTree) (writes : List (Place × ByteArray))
    (w : Place × ByteArray) :
    t.writeAll (writes ++ [w]) = (t.writeAll writes).set w.1 (.file w.2) := by
  simp [writeAll]

theorem get?_writeAll (t : FileTree) (hroot : ∀ w ∈ writes, w.1 ≠ []) (place : Place) :
    (t.writeAll writes).get? place = t.get? place ∨
      ∃ w ∈ writes, w.1 = place ∧ (t.writeAll writes).get? place = some (.file w.2) := by
  induction writes using List.reverseRecOn with
  | nil => exact .inl rfl
  | append_singleton writes w ih =>
    rw [List.forall_mem_append, List.forall_mem_singleton] at hroot
    rw [writeAll_concat, get?_set _ hroot.2]
    by_cases hw : place = w.1
    · rw [if_pos hw]
      exact .inr ⟨w, by simp, hw.symm, rfl⟩
    · rw [if_neg hw]
      rcases ih hroot.1 with hold | ⟨v, hv, hnew⟩
      · exact .inl hold
      · exact .inr ⟨v, List.mem_append_left [w] hv, hnew⟩

theorem FilesWritten.writeAll
    (h : ∀ w ∈ writes, w.1 ≠ [] ∧ t.get? w.1 ≠ some .directory) :
    FilesWritten t (t.writeAll writes) := by
  induction writes using List.reverseRecOn with
  | nil => exact .refl t
  | append_singleton writes w ih =>
    rw [List.forall_mem_append, List.forall_mem_singleton] at h
    obtain ⟨hwrites, hroot, hdir⟩ := h
    have hwritten := ih hwrites
    rw [writeAll_concat]
    rw [Ne, ← hwritten.directory_iff] at hdir
    exact hwritten.trans (filesWritten_set hroot hdir w.2)

theorem isSome_get?_writeAll (t : FileTree) (hroot : ∀ w ∈ writes, w.1 ≠ []) :
    ∀ w ∈ writes, ((t.writeAll writes).get? w.1).isSome := by
  induction writes using List.reverseRecOn with
  | nil => simp
  | append_singleton writes v ih =>
    rw [List.forall_mem_append, List.forall_mem_singleton] at hroot
    intro w hw
    rw [writeAll_concat, get?_set _ hroot.2]
    split
    · rfl
    next hne =>
    rcases List.mem_append.mp hw with hw | hw
    · exact ih hroot.1 w hw
    · exact absurd (congrArg Prod.fst (List.mem_singleton.mp hw)) hne

/-- An entry that is set at the end may be set at the start too, if all the writes between go to
entries that are there. -/
theorem set_writeAll_set (hroot : ∀ w ∈ writes, w.1 ≠ [])
    (hthere : ∀ w ∈ writes, (t.get? w.1).isSome) (place : Place) (entry : Entry) :
    ((t.set place entry).writeAll writes).set place entry =
      (t.writeAll writes).set place entry := by
  induction writes generalizing t with
  | nil => exact set_set t place entry entry
  | cons w writes ih =>
    rw [List.forall_mem_cons] at hroot hthere
    rw [writeAll_cons, writeAll_cons]
    by_cases hw : place = w.1
    · rw [← hw, set_set]
    · rw [set_comm hw hroot.1 hthere.1]
      refine ih hroot.2 fun v hv => ?_
      rw [get?_set t hroot.1]
      split
      · rfl
      · exact hthere.2 v hv

theorem writeAll_writeAll (t : FileTree) (hroot : ∀ w ∈ writes, w.1 ≠ []) :
    (t.writeAll writes).writeAll writes = t.writeAll writes := by
  induction writes using List.reverseRecOn with
  | nil => rfl
  | append_singleton writes w ih =>
    rw [List.forall_mem_append, List.forall_mem_singleton] at hroot
    have hthere := isSome_get?_writeAll t hroot.1
    calc (t.writeAll (writes ++ [w])).writeAll (writes ++ [w])
        = (((t.writeAll writes).set w.1 (.file w.2)).writeAll writes).set w.1 (.file w.2) := by
          rw [writeAll_concat, writeAll_concat]
      _ = ((t.writeAll writes).writeAll writes).set w.1 (.file w.2) :=
          set_writeAll_set hroot.1 hthere w.1 (.file w.2)
      _ = t.writeAll (writes ++ [w]) := by rw [ih hroot.1, writeAll_concat]

/-! ## Paths after files were written -/

theorem walk_append_of_ok (h : t.walk place before = .ok q) :
    t.walk place (before ++ after) = t.walk q after := by
  induction before generalizing place with
  | nil =>
    obtain rfl := Except.ok.inj h
    rfl
  | cons part before ih =>
    obtain ⟨hdir, next, hnext, hrest⟩ := walk_cons_iff.mp h
    rw [List.cons_append, walk_of_leads hdir hnext, ih hrest]

theorem walk_below_file {content : ByteArray} (h : t.walk place before = .ok q)
    (hq : t.get? q = some (.file content)) (hafter : after ≠ []) :
    t.walk place (before ++ after) = .error .notADirectory := by
  obtain ⟨part, rest, rfl⟩ := List.exists_cons_of_ne_nil hafter
  rw [walk_append_of_ok h, walk, if_pos (by simp [hq])]

/-- On its way in `t'` a path comes to a file where nothing stands in `t`. -/
def MeetsNewFile (t t' : FileTree) (place : Place) (parts : List String) : Prop :=
  ∃ before after q content, parts = before ++ after ∧ t'.walk place before = .ok q ∧
    t.get? q = none ∧ t'.get? q = some (.file content)

theorem MeetsNewFile.cons (hdir : t'.get? place = some .directory) (hl : Leads t' place part q)
    (h : MeetsNewFile t t' q parts) : MeetsNewFile t t' place (part :: parts) := by
  obtain ⟨before, after, r, content, rfl, hwalk, hnew⟩ := h
  refine ⟨part :: before, after, r, content, rfl, ?_, hnew⟩
  rw [walk_of_leads hdir hl, hwalk]

/-- A path leads where it led before, or found nothing before and now comes to a new file. -/
theorem FilesWritten.walk_cases (h : FilesWritten t t') (place : Place) (parts : List String) :
    t'.walk place parts = t.walk place parts ∨
      (MeetsNewFile t t' place parts ∧ t.walk place parts = .error .notFound) := by
  induction parts generalizing place with
  | nil => exact .inl rfl
  | cons part parts ih =>
    by_cases hdir : t.get? place = some .directory
    swap
    · have hdir' : t'.get? place ≠ some .directory := mt (h.directory_iff place).mp hdir
      rw [walk, walk, if_pos hdir, if_pos hdir']
      exact .inl rfl
    have hdir' := (h.directory_iff place).mpr hdir
    -- A part that leads somewhere in `t` leads there in `t'`; the rest is left to the induction.
    have hleads : ∀ next, Leads t place part next →
        t'.walk place (part :: parts) = t.walk place (part :: parts) ∨
          (MeetsNewFile t t' place (part :: parts) ∧
            t.walk place (part :: parts) = .error .notFound) := by
      intro next hnext
      have hnext' := h.passable.leads hnext
      rw [walk_of_leads hdir hnext, walk_of_leads hdir' hnext']
      exact (ih next).imp_right (And.imp_left (.cons hdir' hnext'))
    by_cases hstay : part = "" ∨ part = "."
    · exact hleads place (.stay hstay)
    by_cases hup : part = ".."
    · exact hleads place.dropLast (.up hup)
    by_cases hlong : maxNameLength < part.utf8ByteSize
    · left
      simp only [walk, hdir, hdir', hstay, hup, hlong, if_true, if_false, ne_eq, not_true]
    have hshort := Nat.le_of_not_lt hlong
    cases hget : t.get? (place ++ [part]) with
    | some entry => exact hleads _ (.down hstay hup hshort (by rw [hget]; rfl))
    | none =>
      have hmissing : t.walk place (part :: parts) = .error .notFound := by
        simp only [walk, hdir, hstay, hup, hlong, hget, if_false, ne_eq, not_true]
      cases hget' : t'.get? (place ++ [part]) with
      | none =>
        left
        rw [hmissing]
        simp only [walk, hdir', hstay, hup, hlong, hget', if_false, ne_eq, not_true]
      | some entry =>
        cases entry with
        | directory =>
          rw [h.directory_iff, hget] at hget'
          cases hget'
        | file content =>
          refine .inr ⟨⟨[part], parts, place ++ [part], content, rfl, ?_, hget, hget'⟩, hmissing⟩
          rw [walk_of_leads hdir' (.down hstay hup hshort (by rw [hget']; rfl))]
          rfl

theorem isDirectory_iff :
    t.isDirectory path ↔ ∃ place, t.resolve path = .ok place ∧ t.get? place = some .directory := by
  rw [isDirectory, decide_eq_true_eq, find?_eq_some_iff]

theorem FilesWritten.isDirectory_iff (h : FilesWritten t t') :
    t'.isDirectory path ↔ t.isDirectory path := by
  rw [FileTree.isDirectory_iff, FileTree.isDirectory_iff]
  refine exists_congr fun place => ?_
  rw [h.directory_iff, resolve_eq_ok_iff, resolve_eq_ok_iff, h.passable.origin]
  refine and_congr_left fun hdir => ?_
  rw [h.walk_directory_iff hdir]

/-- Whether and where a file can be written does not depend on the files that were, as long as the
way to its directory did not end where nothing stood. -/
theorem FilesWritten.slot?_eq (h : FilesWritten t t')
    (hway : t.walk (t.origin path) (Path.parts path).dropLast ≠ .error .notFound) :
    t'.slot? path = t.slot? path := by
  have hwalk : t'.walk (t'.origin path) (Path.parts path).dropLast =
      t.walk (t.origin path) (Path.parts path).dropLast := by
    rw [h.passable.origin]
    rcases h.walk_cases (t.origin path) (Path.parts path).dropLast with hsame | ⟨-, hmissing⟩
    · exact hsame
    · exact absurd hmissing hway
  have hlocate : ∀ last, t'.locate path (Path.parts path).dropLast last =
      t.locate path (Path.parts path).dropLast last := by
    intro last
    rw [locate, locate, hwalk]
    cases t.walk (t.origin path) (Path.parts path).dropLast with
    | error e => rfl
    | ok d => simp only [ne_eq, h.directory_iff]
  simp only [slot?, hlocate, h.directory_iff]

/-! ## Reading again -/

/-- Two paths lead to one file. -/
def NameOneFile (t : FileTree) (a b : String) : Prop :=
  t.resolve a = t.resolve b ∧ (t.readBytes a).isOk

instance (t : FileTree) (a b : String) : Decidable (t.NameOneFile a b) :=
  inferInstanceAs (Decidable (_ ∧ _))

/-- The path goes on below the file that `target` leads to. -/
def Below (t : FileTree) (target path : String) : Prop :=
  ∃ before after place content, Path.parts path = before ++ after ∧ after ≠ [] ∧
    t.walk (t.origin path) before = .ok place ∧ t.resolve target = .ok place ∧
    t.get? place = some (.file content)

theorem NameOneFile.of_resolve {a b : String} {content : ByteArray} (ha : t.resolve a = .ok place)
    (hb : t.resolve b = .ok place) (hplace : t.get? place = some (.file content)) :
    t.NameOneFile a b := by
  refine ⟨ha.trans hb.symm, ?_⟩
  rw [readBytes_eq_ok_iff.mpr ⟨place, ha, hplace⟩]
  rfl

/-- The files that differ in `t'` are those that the targets lead to. -/
def WrittenTo (t t' : FileTree) (targets : List String) : Prop :=
  ∀ place, t'.get? place ≠ t.get? place → ∃ target ∈ targets, ∃ content,
    t'.resolve target = .ok place ∧ t'.get? place = some (.file content)

theorem FilesWritten.readBytes_cases {targets : List String} (h : FilesWritten t t')
    (hnew : WrittenTo t t' targets) (hapart : ∀ target ∈ targets, ¬ t'.NameOneFile target path) :
    t'.readBytes path = t.readBytes path ∨
      ((∃ target ∈ targets, t'.Below target path) ∧ t.readBytes path = .error .notFound ∧
        t'.readBytes path = .error .notADirectory) := by
  cases hcheck : checkPath path with
  | error e =>
    left
    simp only [readBytes, resolve, hcheck]
  | ok _ =>
    have hresolve : t.resolve path = t.walk (t.origin path) (Path.parts path) := by
      simp only [resolve, hcheck]
    have hresolve' : t'.resolve path = t'.walk (t.origin path) (Path.parts path) := by
      simp only [resolve, hcheck, h.passable.origin]
    rcases h.walk_cases (t.origin path) (Path.parts path) with hsame | ⟨hmeets, hmissing⟩
    · left
      rw [hsame, ← hresolve] at hresolve'
      simp only [readBytes, hresolve']
      cases hplace : t.resolve path with
      | error e => rfl
      | ok place =>
        have hget : t'.get? place = t.get? place := by
          by_contra hdiffers
          obtain ⟨target, htarget, content, hto, hfile⟩ := hnew place hdiffers
          rw [hplace] at hresolve'
          exact hapart target htarget (.of_resolve hto hresolve' hfile)
        simp only [hget]
    · obtain ⟨before, after, place, content, hparts, hwalk, hnone, hfile⟩ := hmeets
      obtain ⟨target, htarget, -, hto, -⟩ := hnew place (by rw [hnone, hfile]; simp)
      have hafter : after ≠ [] := by
        rintro rfl
        rw [List.append_nil] at hparts
        rw [hparts, hwalk] at hresolve'
        exact hapart target htarget (.of_resolve hto hresolve' hfile)
      right
      refine ⟨⟨target, htarget, before, after, place, content, hparts, hafter, ?_, hto, hfile⟩,
        ?_, ?_⟩
      · rw [h.passable.origin, hwalk]
      · rw [readBytes, hresolve, hmissing]
      · rw [readBytes, hresolve', hparts, walk_below_file hwalk hfile hafter]

/-! ## Directories made again -/

theorem Leads.utf8ByteSize_le (h : Leads t place part q) :
    part.utf8ByteSize ≤ maxNameLength := by
  cases h with
  | stay hstay => rcases hstay with rfl | rfl <;> decide
  | up hup =>
    subst hup
    decide
  | down _ _ hshort => exact hshort

theorem makeDirectory_of_isDirectory (h : t.isDirectory path) :
    t.makeDirectory path = .error .alreadyExists := by
  obtain ⟨place, hresolve, hplace⟩ := isDirectory_iff.mp h
  obtain ⟨hcheck, hwalk⟩ := resolve_eq_ok_iff.mp hresolve
  simp only [makeDirectory, hcheck]
  cases hlast : (trimmedParts path).getLast? with
  | none => rfl
  | some last =>
    -- The parts before the last one lead to a directory, and the last one leads on from there.
    obtain ⟨blanks, hparts, -⟩ := trimmedParts_append path
    rw [hparts, ← List.dropLast_append_getLast? _ hlast, List.append_assoc] at hwalk
    obtain ⟨d, hbefore, hrest⟩ := walk_append_iff.mp hwalk
    obtain ⟨hdir, next, hnext, -⟩ := walk_cons_iff.mp hrest
    have hlocate := locate_eq_ok_iff.mpr ⟨d, hbefore, hdir, hnext.utf8ByteSize_le, rfl⟩
    have hthere : isStep last ∨ (t.get? (d ++ [last])).isSome := by
      cases hnext with
      | stay hstay =>
        have hdot := hstay.resolve_left (ne_blank_of_trimmedParts hlast)
        exact .inl (by simp [isStep, hdot])
      | up hup => exact .inl (by simp [isStep, hup])
      | down _ _ _ hentry => exact .inr hentry
    simp only [hlocate, if_pos hthere]

theorem isDirectory_of_makeDirectory (h : t.makeDirectory path = .ok t') : t'.isDirectory path := by
  obtain ⟨place, hne, -, rfl, hresolve⟩ := makeDirectory_eq_ok h
  refine isDirectory_iff.mpr ⟨place, hresolve, ?_⟩
  rw [get?_set t hne, if_pos rfl]

theorem isDirectory_of_makeChain {parents : List String}
    (h : t.makeChain (path :: parents) = (t', .ok ())) : t'.isDirectory path := by
  unfold makeChain at h
  split at h
  · next made hmade =>
    obtain ⟨rfl, -⟩ := Prod.mk.inj h
    exact isDirectory_of_makeDirectory hmade
  · split at h
    · cases h
    next grown hgrown =>
    split at h
    · next made hmade =>
      obtain ⟨rfl, -⟩ := Prod.mk.inj h
      exact isDirectory_of_makeDirectory hmade
    · split at h
      · next hdir =>
        obtain ⟨rfl, -⟩ := Prod.mk.inj h
        exact hdir
      · cases h
  · split at h
    · next hdir =>
      obtain ⟨rfl, -⟩ := Prod.mk.inj h
      exact hdir
    · cases h

theorem makeChain_of_isDirectory (parents : List String) (h : t.isDirectory path) :
    t.makeChain (path :: parents) = (t, .ok ()) := by
  rw [makeChain, makeDirectory_of_isDirectory h]
  exact if_pos h

/-- The directory `path` is there, or there is none to make, because the path has no steps. -/
def Made (t : FileTree) (path : String) : Prop :=
  (Path.ancestors path = [] ∧ Path.names path = []) ∨ t.isDirectory path

theorem made_of_makeDirectories (h : t.makeDirectories path = (t', .ok ())) : t'.Made path := by
  by_cases hsteps : (Path.steps path).isEmpty
  · refine .inl ⟨by rw [Path.ancestors, if_pos hsteps], ?_⟩
    rw [List.isEmpty_iff, Path.steps, List.append_eq_nil_iff] at hsteps
    exact hsteps.2
  · rw [makeDirectories, Path.ancestors, if_neg hsteps] at h
    exact .inr (isDirectory_of_makeChain h)

theorem Made.filesWritten (h : t.Made path) (hw : FilesWritten t t') : t'.Made path :=
  h.imp_right hw.isDirectory_iff.mpr

theorem Made.makeDirectories (h : t.Made path) : t.makeDirectories path = (t, .ok ()) := by
  rw [FileTree.makeDirectories]
  rcases h with ⟨hnone, -⟩ | hdir
  · rw [hnone, makeChain]
  · unfold Path.ancestors
    dsimp only
    split
    · rw [makeChain]
    · exact makeChain_of_isDirectory _ hdir

theorem walk_of_nameless (t : FileTree) (place : Place)
    (h : ∀ part ∈ parts, part = "" ∨ part = ".") :
    t.walk place parts = .ok place ∨ t.walk place parts = .error .notADirectory := by
  induction parts with
  | nil => exact .inl rfl
  | cons part parts ih =>
    rw [List.forall_mem_cons] at h
    by_cases hdir : t.get? place = some .directory
    · rw [walk_of_leads hdir (.stay h.1)]
      exact ih h.2
    · rw [walk, if_pos hdir]
      exact .inr rfl

theorem nameless_of_names (h : Path.names path = []) :
    ∀ part ∈ Path.parts path, part = "" ∨ part = "." := by
  intro part hpart
  have hnot := List.filter_eq_nil_iff.mp h part hpart
  simpa [Decidable.or_iff_not_imp_left] using hnot

theorem Made.isDirectory (h : t.Made path) (hthere : t.contains path) : t.isDirectory path := by
  refine h.elim (fun hnone => ?_) id
  obtain ⟨entry, hentry⟩ := Option.isSome_iff_exists.mp hthere
  obtain ⟨place, hresolve, -⟩ := find?_eq_some_iff.mp hentry
  refine isDirectory_iff.mpr ⟨place, hresolve, ?_⟩
  obtain ⟨-, hwalk⟩ := resolve_eq_ok_iff.mp hresolve
  rcases walk_of_nameless t (t.origin path) (nameless_of_names hnone.2) with hstay | herror
  · rw [hwalk] at hstay
    obtain rfl := Except.ok.inj hstay
    -- A path has parts, and the first one is followed from a directory.
    obtain ⟨part, parts, hparts⟩ := List.exists_cons_of_ne_nil (Path.parts_ne_nil path)
    rw [hparts] at hwalk
    exact (walk_cons_iff.mp hwalk).1
  · rw [hwalk] at herror
    cases herror

/-- The way to a directory that was made does not end where nothing stands. -/
theorem Made.walk_ne_notFound (h : t.Made path)
    (hbefore : Path.parts path = before ∨ Path.parts path = before ++ [""]) :
    t.walk (t.origin path) before ≠ .error .notFound := by
  rcases h with ⟨-, hnone⟩ | hdir
  · have hnameless : ∀ part ∈ before, part = "" ∨ part = "." := by
      intro part hpart
      refine nameless_of_names hnone part ?_
      rcases hbefore with hparts | hparts
      · rwa [hparts]
      · rw [hparts]
        exact List.mem_append_left [""] hpart
    intro hmissing
    rcases walk_of_nameless t (t.origin path) hnameless with hstay | herror
    · rw [hmissing] at hstay
      cases hstay
    · rw [hmissing] at herror
      cases herror
  · obtain ⟨place, hresolve, -⟩ := isDirectory_iff.mp hdir
    obtain ⟨-, hwalk⟩ := resolve_eq_ok_iff.mp hresolve
    intro hmissing
    rcases hbefore with hparts | hparts
    · rw [hparts, hmissing] at hwalk
      cases hwalk
    · rw [hparts] at hwalk
      obtain ⟨d, hd, -⟩ := walk_append_iff.mp hwalk
      rw [hmissing] at hd
      cases hd

end ProjectD.FileTree
