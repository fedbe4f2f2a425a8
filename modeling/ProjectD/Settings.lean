import ProjectD.Files.Tree
import ProjectD.Listing
import ProjectD.Text.Cursor
import ProjectD.Toml.Document
import ProjectD.ToolError

/-! # Settings

What the tool takes from its configuration file. Every setting has a default, unknown keys are
ignored, and a setting of the wrong type refuses the file. Settings that no command can run with
are refused by `Settings.check`.
-/

set_option autoImplicit false

namespace ProjectD

structure Settings where
  /-- Log details as well. -/
  verbose : Bool := false
  /-- How many files are read at a time; none stands for the number of processors. -/
  jobs : Option Nat := none
  /-- How many columns a tab takes. -/
  tabWidth : UInt32 := defaultTabWidth
  /-- The name of the output format. -/
  format : String := OutputFormat.json.name
  /-- Indent JSON. -/
  pretty : Bool := false
deriving DecidableEq, Repr

namespace Settings

def maxTabWidth : UInt32 := 64

/-! ## Validation -/

/-- Refuse settings that no command can run with; the first fault counts. -/
def check (s : Settings) : Except ToolError Unit :=
  if s.jobs = some 0 then .error .noJobs
  else if s.tabWidth < 1 ∨ maxTabWidth < s.tabWidth then
    .error (.tabWidthBounds maxTabWidth.toNat)
  else if OutputFormat.ofName? s.format = none then .error (.configFormat s.format)
  else .ok ()

/-! ## Decoding -/

/-- Read a setting from its value, or take the default if there is none. -/
def optional {α : Type} (read? : Toml.Value → Option α) (default : α) :
    Option Toml.Value → Option α
  | none => some default
  | some value => read? value

def truth? : Toml.Value → Option Bool
  | .boolean b => some b
  | _ => none

def natural? : Toml.Value → Option Nat
  | .integer n => if 0 ≤ n then some n.toNat else none
  | _ => none

def word? (value : Toml.Value) : Option UInt32 := do
  let n ← natural? value
  if n < UInt32.size then some (UInt32.ofNat n) else none

def text? : Toml.Value → Option String
  | .string s => some s
  | _ => none

/-- The entries of a section with the given keys. A section is a table, or an array of the values in
the order of the keys; a date is a section that gives none of them. -/
def sectionEntries? (keys : List String) : Toml.Value → Option Toml.Entries
  | .table _ entries => some entries
  | .array items => some (keys.zip items)
  | .date => some []
  | _ => none

def ofDocument? (document : Toml.Entries) : Option Settings := do
  let verbose ← optional truth? false (document.lookup "verbose")
  let jobs ← optional (fun v => (natural? v).map some) none (document.lookup "jobs")
  let lexer ← optional (sectionEntries? ["tab_width"]) [] (document.lookup "lexer")
  let tabWidth ← optional word? defaultTabWidth (lexer.lookup "tab_width")
  let output ← optional (sectionEntries? ["format", "pretty"]) [] (document.lookup "output")
  let format ← optional text? OutputFormat.json.name (output.lookup "format")
  let pretty ← optional truth? false (output.lookup "pretty")
  some { verbose, jobs, tabWidth, format, pretty }

/-- The checked settings that a text gives. -/
def parse (text : String) : Except ToolError Settings :=
  match (Toml.read? text).bind ofDocument? with
  | none => .error (.configUnparsable "not a document with settings of the right types")
  | some settings =>
    match settings.check with
    | .error e => .error e
    | .ok () => .ok settings

/-! ## Loading -/

def load (tree : FileTree) (path : String) : Except ToolError Settings :=
  if !tree.contains path then .error (.configNotFound path)
  else
    match tree.readText path with
    | .error e => .error (.io e)
    | .ok text => parse text

def fileName : String := "pdt.toml"

/-- The directories of the user, as far as there are any: the home directory and the one for
configuration. Which they are is up to the system that the tool runs on. -/
structure Homes where
  home : Option String
  config : Option String

/-- Where the configuration file may stand, in order of preference: the working directory, the home
directory and the configuration directory. -/
def candidates (homes : Homes) : List String :=
  let inside (dir : String) : String := Path.join (Path.join dir "pdt") fileName
  [fileName] ++ (homes.home.map fun dir => inside (Path.join dir ".config")).toList ++
    (homes.config.map inside).toList

/-- The settings to work with: those of the file asked for, or else of the first candidate that
exists, or else the defaults. -/
def choose (tree : FileTree) (homes : Homes) (asked : Option String) : Except ToolError Settings :=
  match asked with
  | some path => load tree path
  | none =>
    match (candidates homes).find? tree.contains with
    | some path => load tree path
    | none => .ok {}

end Settings

end ProjectD
