/-! # Paths

A path is a text in which slashes divide the parts. Empty parts and parts that are a single period
name nothing; two periods name the parent. The last name of a path, its stem, and the path of a
directory's entry are functions of the text alone.
-/

set_option autoImplicit false

namespace ProjectD.Path

/-- The parts between slashes, empty ones included; a text without a slash is one part. -/
def split : List Char → List (List Char)
  | [] => [[]]
  | c :: cs =>
    if c = '/' then [] :: split cs
    else
      match split cs with
      | [] => [[c]]
      | part :: parts => (c :: part) :: parts

def parts (path : String) : List String :=
  (split path.toList).map String.ofList

/-- Whether a path starts at the root. -/
def isAbsolute (path : String) : Bool :=
  path.toList.head? = some '/'

/-- The parts that name something. -/
def names (path : String) : List String :=
  (parts path).filter fun part => part ≠ "" ∧ part ≠ "."

/-- The last name of a path. Nothing names a file in the root, in the current directory or in a
step to the parent. -/
def fileName? (path : String) : Option String :=
  match (names path).getLast? with
  | some ".." => none
  | name => name

/-- A file name without its extension: what stands before the last period. A name with no period,
or with its only period in front, is its own stem. -/
def stemOfName (name : List Char) : List Char :=
  let before := (name.reverse.dropWhile (· ≠ '.')).drop 1
  if before.isEmpty then name else before.reverse

def fileStem? (path : String) : Option String :=
  (fileName? path).map fun name => String.ofList (stemOfName name.toList)

/-- The path of `name` in the directory `dir`. An absolute name stays as it is, and in the empty
path a name stands alone. -/
def join (dir name : String) : String :=
  if isAbsolute name ∨ dir = "" then name
  else if dir.toList.getLast? = some '/' then dir ++ name
  else dir ++ "/" ++ name

/-- The parts that count as steps: those that name something, and a leading period. -/
def steps (path : String) : List String :=
  let leading := if (parts path).head? = some "." then ["."] else []
  leading ++ names path

def ofSteps (absolute : Bool) (steps : List String) : String :=
  (if absolute then "/" else "") ++ "/".intercalate steps

/-- A path followed by the paths of its parent, the parent of that, and so on, as long as there is
a step left. -/
def ancestors (path : String) : List String :=
  let steps := steps path
  if steps.isEmpty then []
  else
    path :: ((List.range (steps.length - 1)).reverse.map fun n =>
      ofSteps (isAbsolute path) (steps.take (n + 1)))

end ProjectD.Path
