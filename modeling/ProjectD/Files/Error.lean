/-! # Why a file operation fails

The causes that looking up, reading and writing can meet, with their message texts. Causes that
the operating system reports have a number.
-/

set_option autoImplicit false

namespace ProjectD

inductive FileError where
  /-- Some part of the path does not exist. -/
  | notFound
  /-- A directory or file of this name exists already. -/
  | alreadyExists
  /-- A part of the path that should be a directory is a file. -/
  | notADirectory
  /-- The path names a directory where a file is needed. -/
  | isADirectory
  /-- The path or one of its parts is too long. -/
  | nameTooLong
  /-- The path holds the NUL character. -/
  | nulInName
  /-- The content is not UTF-8. -/
  | invalidUtf8
  /-- Any other cause, with its own text. -/
  | other (message : String)
deriving DecidableEq, Repr

namespace FileError

/-- The number under which the operating system reports a cause. -/
def osCode? : FileError → Option Nat
  | notFound => some 2
  | alreadyExists => some 17
  | notADirectory => some 20
  | isADirectory => some 21
  | nameTooLong => some 36
  | nulInName | invalidUtf8 | other _ => none

/-- The bare text of a cause. -/
def description : FileError → String
  | notFound => "No such file or directory"
  | alreadyExists => "File exists"
  | notADirectory => "Not a directory"
  | isADirectory => "Is a directory"
  | nameTooLong => "File name too long"
  | nulInName => "file name contained an unexpected NUL byte"
  | invalidUtf8 => "stream did not contain valid UTF-8"
  | other message => message

/-- The text of a cause, with its number where it has one. -/
def message (e : FileError) : String :=
  match e.osCode? with
  | some code => e.description ++ " (os error " ++ toString code ++ ")"
  | none => e.description

/-- The name of the kind of cause, as it stands in the structured form of an error. -/
def kind : FileError → String
  | notFound => "NotFound"
  | alreadyExists => "AlreadyExists"
  | notADirectory => "NotADirectory"
  | isADirectory => "IsADirectory"
  | nameTooLong => "InvalidFilename"
  | nulInName => "InvalidInput"
  | invalidUtf8 => "InvalidData"
  | other _ => "Other"

end FileError

end ProjectD
