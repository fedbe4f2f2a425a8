import ProjectD.CommandLine.Basic
import ProjectD.Commands

/-! # The program

A run of the tool as a function of its arguments, the environment, the directories of the user and
the file tree. The command line is read first, then the settings are chosen, and then the command
runs.
-/

set_option autoImplicit false

namespace ProjectD

def toolVersion : String := "0.1.0"

/-- How a run of the tool ends. -/
inductive Outcome where
  /-- The command line is refused. -/
  | refused (e : UsageError)
  /-- A text about the tool itself is shown. -/
  | shown (text : String)
  /-- The settings were chosen and the command has run, or the settings were refused. -/
  | finished (report : Report)

namespace Outcome

def status : Outcome → Nat
  | refused _ => 2
  | shown _ => 0
  | finished report =>
    match report.result with
    | .ok () => 0
    | .error _ => 1

def output : Outcome → String
  | refused _ => ""
  | shown text => text
  | finished report => report.output

def log : Outcome → List LogRecord
  | finished report => report.log
  | _ => []

/-- The error that ended the run after the command line was read. -/
def failure? : Outcome → Option ToolError
  | finished report =>
    match report.result with
    | .ok () => none
    | .error e => some e
  | _ => none

def tree (before : FileTree) : Outcome → FileTree
  | finished report => report.tree
  | _ => before

end Outcome

/-! ## Running -/

def Request.run (tree : FileTree) (settings : Settings) : Request → Report
  | tokens request => Dump.run tree settings request
  | check files => ProjectD.check tree settings.tabWidth files

/-- Run a command with the settings that the configuration gives. -/
def Invocation.run (tree : FileTree) (homes : Settings.Homes) (i : Invocation) : Report :=
  match Settings.choose tree homes i.config with
  | .error e => .failed tree e
  | .ok settings => i.request.run tree settings

def run (tree : FileTree) (homes : Settings.Homes) (env : Environment) (args : List String) :
    Outcome :=
  match CommandLine.read env args with
  | .error (.refused e) => .refused e
  | .error (.help level) => .shown (usageText level)
  | .error (.version level) => .shown (level.name ++ " " ++ toolVersion ++ "\n")
  | .ok invocation => .finished (invocation.run tree homes)

/-! ## What a run can look at -/

/-- The paths that a command can look at: its inputs, the output directory and, in either format,
the output files. -/
def Request.paths : Request → List String
  | check files => files
  | tokens request =>
    request.files ++
      match request.output with
      | none => []
      | some dir =>
        dir :: request.files.flatMap fun file =>
          [OutputFormat.json, OutputFormat.text].filterMap fun format =>
            (Dump.outputPath file dir format).toOption

/-- The paths that a run of the tool can look at. -/
def pathsOfRun (homes : Settings.Homes) (env : Environment) (args : List String) : List String :=
  match CommandLine.read env args with
  | .error _ => []
  | .ok invocation =>
    invocation.config.elim (Settings.candidates homes) ([·]) ++ invocation.request.paths

end ProjectD
