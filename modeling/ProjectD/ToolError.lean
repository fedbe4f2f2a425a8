import ProjectD.LexError

/-! # Errors of the tool

What can end a command or be logged for one of its files. Four families hold a text; the others
wrap an error of a lower level.
-/

set_option autoImplicit false

namespace ProjectD

/-- Why a command, or its work on one file, fails. -/
inductive ToolError where
  /-- The configuration cannot be used. -/
  | config (detail : String)
  /-- A file cannot be handled. -/
  | fileOperation (detail : String)
  /-- An argument or a setting is out of bounds. -/
  | validation (detail : String)
  /-- Some of the files failed. -/
  | commandExecution (detail : String)
  /-- A source file yields no tokens. -/
  | source (error : SourceError)
  /-- The file system refuses. -/
  | io (error : FileError)
  /-- A text is not JSON. -/
  | json (detail : String)
deriving DecidableEq, Repr

namespace ToolError

/-! ## The causes -/

def configNotFound (path : String) : ToolError :=
  config ("Configuration file not found: " ++ path)

/-- The configuration file is not TOML, or a setting has the wrong type. -/
def configUnparsable (reason : String) : ToolError :=
  config ("Failed to parse configuration: " ++ reason)

/-- The configured output format does not exist. -/
def configFormat (name : String) : ToolError :=
  config ("Invalid format in configuration: " ++ name)

def noJobs : ToolError :=
  validation "jobs must be at least 1"

/-- The tab width is not between one and `most`. -/
def tabWidthBounds (most : Nat) : ToolError :=
  validation ("lexer.tab_width must be between 1 and " ++ toString most)

def noInput : ToolError :=
  validation "No input files specified"

def unknownFormat (name : String) : ToolError :=
  validation ("Unknown format: " ++ name)

/-- The output directory is a file. -/
def outputNotDirectory (dir : String) : ToolError :=
  validation ("Output path is not a directory: " ++ dir)

/-- The path of an input does not name a file. -/
def invalidPath (path : String) : ToolError :=
  fileOperation ("Invalid file path: " ++ path)

def outputExists (path : String) : ToolError :=
  fileOperation ("Output file already exists: " ++ path)

def filesFailed (failed : Nat) : ToolError :=
  commandExecution (toString failed ++ " file(s) failed to lex")

def checksFailed (failed total : Nat) : ToolError :=
  commandExecution
    (toString failed ++ " of " ++ toString total ++ " file(s) failed the lexical check")

/-! ## Texts -/

/-- The message of an error. The errors of source files speak for themselves. -/
def message : ToolError → String
  | config detail => "Configuration error: " ++ detail
  | fileOperation detail => "File operation failed: " ++ detail
  | validation detail => "Validation error: " ++ detail
  | commandExecution detail => "Command execution failed: " ++ detail
  | source error => error.message
  | io error => "IO error: " ++ error.message
  | json detail => "JSON error: " ++ detail

/-- Whether an error has an error of a lower level as its cause. The error of a source file stands
in for the file's own error, which has a cause only if the file is unreadable. -/
def hasCause : ToolError → Bool
  | io _ | json _ | source (.unreadable _ _) => true
  | _ => false

/-- The structured form of a failed file operation. -/
def structuredFileError (e : FileError) : String :=
  match e.osCode? with
  | some code =>
    "Os \x7b code: " ++ toString code ++ ", kind: " ++ e.kind ++ ", message: " ++
      Text.quoted e.description ++ " \x7d"
  | none =>
    "Error \x7b kind: " ++ e.kind ++ ", message: " ++ Text.quoted e.description ++ " \x7d"

/-- The structured form of the error of a source file. -/
def structuredSourceError : SourceError → String
  | .unreadable path cause =>
    "Io \x7b path: " ++ Text.quoted path ++ ", source: " ++ structuredFileError cause ++ " \x7d"
  | .lexical error => error.structured

/-- The structured form of an error, which the tool prints when the error ends it. -/
def structured : ToolError → String
  | config detail => "Config(" ++ Text.quoted detail ++ ")"
  | fileOperation detail => "FileOperation(" ++ Text.quoted detail ++ ")"
  | validation detail => "Validation(" ++ Text.quoted detail ++ ")"
  | commandExecution detail => "CommandExecution(" ++ Text.quoted detail ++ ")"
  | source error => "Lex(" ++ structuredSourceError error ++ ")"
  | io error => "Io(" ++ structuredFileError error ++ ")"
  | json detail => "Json(" ++ Text.quoted detail ++ ")"

end ToolError

end ProjectD
