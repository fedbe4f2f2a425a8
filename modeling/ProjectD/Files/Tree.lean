import ProjectD.Files.Error
import ProjectD.Files.Path

/-! # File trees

Directories and files as a value: a finite map from names, counted from the root, to entries, seen
from a working directory. There are no links, so a path is followed part by part. Every operation
either succeeds or reports the cause that the first failing part gives; an operation that fails
leaves the tree as it was, except that making a chain of directories keeps those that were made.
-/

set_option autoImplicit false

namespace ProjectD

/-- What stands at a place of the tree. -/
inductive Entry where
  | directory
  | file (content : ByteArray)

instance : DecidableEq Entry
  | .directory, .directory => isTrue rfl
  | .directory, .file _ => isFalse Entry.noConfusion
  | .file _, .directory => isFalse Entry.noConfusion
  | .file a, .file b =>
    decidable_of_iff (a.data = b.data) (by rw [Entry.file.injEq, ByteArray.ext_iff])

/-- A place in the tree: the names from the root down. -/
abbrev Place := List String

/-- Directories and files, seen from a working directory. -/
structure FileTree where
  entries : List (Place × Entry)
  workingDirectory : Place

namespace FileTree

/-- The longest name of a file or directory, in bytes. -/
def maxNameLength : Nat := 255

/-- The longest path, in bytes. -/
def maxPathLength : Nat := 4095

/-! ## Places -/

/-- The entry at a place; the root is always a directory. -/
def get? (t : FileTree) (place : Place) : Option Entry :=
  if place = [] then some .directory else t.entries.lookup place

/-- An association list with the value at a key set: in its old place if the key is there, and at
the end otherwise. -/
def setEntry (place : Place) (entry : Entry) : List (Place × Entry) → List (Place × Entry)
  | [] => [(place, entry)]
  | (p, e) :: rest => if p = place then (p, entry) :: rest else (p, e) :: setEntry place entry rest

def set (t : FileTree) (place : Place) (entry : Entry) : FileTree :=
  { t with entries := setEntry place entry t.entries }

theorem lookup_setEntry (place q : Place) (entry : Entry) (entries : List (Place × Entry)) :
    (setEntry place entry entries).lookup q =
      if q = place then some entry else entries.lookup q := by
  induction entries with
  | nil =>
    by_cases hq : q = place
    · simp [setEntry, hq]
    · have hb : (q == place) = false := beq_false_of_ne hq
      simp [setEntry, List.lookup_cons, hq, hb]
  | cons head rest ih =>
    obtain ⟨p, e⟩ := head
    by_cases hqp : q = p
    · subst hqp
      by_cases hq : q = place <;> simp [setEntry, hq]
    · have hb : (q == p) = false := beq_false_of_ne hqp
      by_cases hp : p = place
      · subst hp
        simp [setEntry, List.lookup_cons, hb, hqp]
      · simp [setEntry, List.lookup_cons, hp, hb, ih]

/-- An entry is found where it was set, and all others stay. -/
theorem get?_set (t : FileTree) {place : Place} (h : place ≠ []) (entry : Entry) (q : Place) :
    (t.set place entry).get? q = if q = place then some entry else t.get? q := by
  by_cases hq : q = []
  · subst hq
    simp [get?, Ne.symm h]
  · simp [get?, set, hq, lookup_setEntry]

/-! ## Following a path -/

/-- Follow parts from a place. A part can be followed only from a directory. -/
def walk (t : FileTree) : Place → List String → Except FileError Place
  | place, [] => .ok place
  | place, part :: parts =>
    if t.get? place ≠ some .directory then .error .notADirectory
    else if part = "" ∨ part = "." then walk t place parts
    else if part = ".." then walk t place.dropLast parts
    else if maxNameLength < part.utf8ByteSize then .error .nameTooLong
    else
      match t.get? (place ++ [part]) with
      | none => .error .notFound
      | some _ => walk t (place ++ [part]) parts

/-- Where the parts of a path start. -/
def origin (t : FileTree) (path : String) : Place :=
  if Path.isAbsolute path then [] else t.workingDirectory

/-- Faults of the text of a path, found before anything is looked up. -/
def checkPath (path : String) : Except FileError Unit :=
  if path.toList.contains '\x00' then .error .nulInName
  else if path = "" then .error .notFound
  else if maxPathLength < path.utf8ByteSize then .error .nameTooLong
  else .ok ()

/-- The place that a path leads to. -/
def resolve (t : FileTree) (path : String) : Except FileError Place :=
  match checkPath path with
  | .error e => .error e
  | .ok () => t.walk (t.origin path) (Path.parts path)

def find? (t : FileTree) (path : String) : Option Entry :=
  match t.resolve path with
  | .ok place => t.get? place
  | .error _ => none

/-- Whether a path leads to anything. -/
def contains (t : FileTree) (path : String) : Bool :=
  (t.find? path).isSome

def isDirectory (t : FileTree) (path : String) : Bool :=
  t.find? path = some .directory

/-! ## Reading -/

def readBytes (t : FileTree) (path : String) : Except FileError ByteArray :=
  match t.resolve path with
  | .error e => .error e
  | .ok place =>
    match t.get? place with
    | some (.file content) => .ok content
    | some .directory => .error .isADirectory
    | none => .error .notFound

def readText (t : FileTree) (path : String) : Except FileError String :=
  match t.readBytes path with
  | .error e => .error e
  | .ok content =>
    match String.fromUTF8? content with
    | some s => .ok s
    | none => .error .invalidUtf8

/-! ## Writing -/

/-- The place of the last part of a path and that part itself, in a directory that exists. The
parts before the last are followed; the last one need not exist. -/
def locate (t : FileTree) (path : String) (before : List String) (last : String) :
    Except FileError Place :=
  match t.walk (t.origin path) before with
  | .error e => .error e
  | .ok place =>
    if t.get? place ≠ some .directory then .error .notADirectory
    else if maxNameLength < last.utf8ByteSize then .error .nameTooLong
    else .ok (place ++ [last])

/-- Whether a part leads back instead of naming an entry. -/
def isStep (part : String) : Bool :=
  part = "." || part = ".."

/-- Write a file. A file that is there is replaced; a directory is not. -/
def writeFile (t : FileTree) (path : String) (content : ByteArray) : Except FileError FileTree :=
  match checkPath path with
  | .error e => .error e
  | .ok () =>
    let parts := Path.parts path
    match t.locate path parts.dropLast (parts.getLastD "") with
    | .error e => .error e
    | .ok place =>
      if parts.getLastD "" = "" ∨ isStep (parts.getLastD "") then .error .isADirectory
      else
        match t.get? place with
        | some .directory => .error .isADirectory
        | _ => .ok (t.set place (.file content))

/-- The parts of a path without the empty ones at its end. -/
def trimmedParts (path : String) : List String :=
  ((Path.parts path).reverse.dropWhile (· = "")).reverse

def makeDirectory (t : FileTree) (path : String) : Except FileError FileTree :=
  match checkPath path with
  | .error e => .error e
  | .ok () =>
    match (trimmedParts path).getLast? with
    | none => .error .alreadyExists
    | some last =>
      match t.locate path (trimmedParts path).dropLast last with
      | .error e => .error e
      | .ok place =>
        if isStep last ∨ (t.get? place).isSome then .error .alreadyExists
        else .ok (t.set place .directory)

/-- Make the first directory of a chain, where each path is followed by that of its parent. If the
parent is missing, the rest of the chain is made first. A directory that is there already is no
fault. The tree is returned with what was made, also on failure. -/
def makeChain : FileTree → List String → FileTree × Except FileError Unit
  | t, [] => (t, .ok ())
  | t, path :: parents =>
    match t.makeDirectory path with
    | .ok made => (made, .ok ())
    | .error .notFound =>
      match makeChain t parents with
      | (grown, .error e) => (grown, .error e)
      | (grown, .ok ()) =>
        match grown.makeDirectory path with
        | .ok made => (made, .ok ())
        | .error e => if grown.isDirectory path then (grown, .ok ()) else (grown, .error e)
    | .error e => if t.isDirectory path then (t, .ok ()) else (t, .error e)

/-- Make a directory and all its parents that are missing. -/
def makeDirectories (t : FileTree) (path : String) : FileTree × Except FileError Unit :=
  t.makeChain (Path.ancestors path)

/-! ## Building and comparing trees -/

/-- The tree with a place and all places above it made directories, where nothing stands yet. -/
def addDirectory (t : FileTree) (place : Place) : FileTree :=
  ((List.range place.length).map fun n => place.take (n + 1)).foldl
    (fun t p => if (t.get? p).isSome then t else t.set p .directory) t

/-- The tree with a file at a place, and directories above it. -/
def addFile (t : FileTree) (place : Place) (content : ByteArray) : FileTree :=
  (t.addDirectory place.dropLast).set place (.file content)

/-- An empty tree whose working directory exists. -/
def empty (workingDirectory : Place) : FileTree :=
  addDirectory ⟨[], workingDirectory⟩ workingDirectory

/-- The entries of `after` that are new or differ from those of `before`. -/
def changes (before after : FileTree) : List (Place × Entry) :=
  after.entries.filter fun (place, entry) => before.get? place ≠ some entry

end FileTree

end ProjectD
