import ProjectD.CommandLine.Arguments
import ProjectD.Commands

/-! # Command lines

A command line asks for help, for the version or for a run of a command, or is refused. Some
switches can also be given by environment variables, which are looked at where the switch is not
given.
-/

set_option autoImplicit false

namespace ProjectD

/-- Environment variables and their values. -/
abbrev Environment := List (String × String)

/-- A command with all that is asked of it. -/
inductive Request where
  | tokens (request : DumpRequest)
  | check (files : List String)

structure Invocation where
  /-- The configuration file asked for. -/
  config : Option String
  /-- The command. -/
  request : Request

namespace CommandLine

/-! ## Environment variables -/

/-- The switches that an environment variable can give, with its name. -/
def variableSwitches : List (Switch × String) :=
  [(.verbose, "PDT_VERBOSE"), (.config, "PDT_CONFIG"), (.noColor, "PDT_NO_COLOR")]

/-- Whether a variable may hold a value: one that the switch admits, and a truth value if the switch
takes none. -/
def admitsVariable (switch : Switch) (value : String) : Bool :=
  if switch.takesValue then admits switch value else value = "true" || value = "false"

/-- Check the variables of the switches that a level does not give. -/
def checkEnvironment (env : Environment) (r : Reading) : Except Stop Unit :=
  variableSwitches.forM fun (switch, name) =>
    match env.lookup name with
    | none => .ok ()
    | some value =>
      if r.has switch || admitsVariable switch value then .ok ()
      else .error (.refused (.invalidVariable name value))

/-! ## The whole command line -/

/-- What the readings of the command's level ask of it. -/
def request (command : Command) (r : Reading) : Request :=
  match command with
  | .tokens =>
    .tokens
      { files := r.files
        format := r.value? .format
        pretty := r.has .pretty
        output := r.value? .output
        force := r.has .force }
  | .check => .check r.files

/-- Read the arguments after a command, and then check those before it. -/
def readInvocation (env : Environment) (before : Reading) (command : Command)
    (args : List String) : Except Stop Invocation := do
  let after ← readCommand (.command command) {} false args
  checkEnvironment env after
  if after.files.isEmpty then throw (.refused .missingFiles)
  let before ← before.settle
  checkEnvironment env before
  return {
    config := (after.value? .config).or ((before.value? .config).or (env.lookup "PDT_CONFIG"))
    request := request command after }

/-- The level whose help is asked for by name. -/
def helpLevel : List String → Except Stop Level
  | [] => .ok .tool
  | [name] =>
    match Command.ofName? name with
    | some command => .ok (.command command)
    | none => if name = "help" then .ok .tool else .error (.refused (.unknownCommand name))
  | _ :: name :: _ => .error (.refused (.unknownCommand name))

def read (env : Environment) (args : List String) : Except Stop Invocation := do
  let (before, name, args) ← readTool {} args
  match Command.ofName? name with
  | some command => readInvocation env before command args
  | none =>
    if name = "help" then
      let level ← helpLevel args
      throw (.help level)
    else throw (.refused (.unknownCommand name))

end CommandLine

end ProjectD
