/-! # Switches and usage

The switches of the command line. Some stand alone and some take a value; each has a long name and
most have a letter. The tool itself and its two commands know different ones. A command line that
does not use them so is refused with a `UsageError`.
-/

set_option autoImplicit false

namespace ProjectD

inductive Command where
  | tokens
  | check
deriving DecidableEq, Repr

def Command.ofName? (name : String) : Option Command :=
  if name = "tokens" then some .tokens
  else if name = "check" then some .check
  else none

/-- Where a switch stands: before the command, or after it. -/
inductive Level where
  | tool
  | command (c : Command)
deriving DecidableEq, Repr

/-- The name under which the tool reports its version at a level. -/
def Level.name : Level → String
  | tool => "pdt"
  | command .tokens => "pdt-tokens"
  | command .check => "pdt-check"

inductive Switch where
  | verbose
  | config
  | noColor
  | format
  | pretty
  | output
  | force
  | jobs
  | help
  | version
deriving DecidableEq, Repr

namespace Switch

def name : Switch → String
  | verbose => "verbose"
  | config => "config"
  | noColor => "no-color"
  | format => "format"
  | pretty => "pretty"
  | output => "output"
  | force => "force"
  | jobs => "jobs"
  | help => "help"
  | version => "version"

def letter? : Switch → Option Char
  | verbose => some 'v'
  | config => some 'c'
  | format => some 'F'
  | output => some 'o'
  | force => some 'f'
  | jobs => some 'j'
  | help => some 'h'
  | version => some 'V'
  | noColor | pretty => none

def takesValue : Switch → Bool
  | config | format | output | jobs => true
  | verbose | noColor | pretty | force | help | version => false

/-- The switches that can stand before and after the command. -/
def shared : List Switch :=
  [verbose, config, noColor, help, version]

end Switch

def Level.switches : Level → List Switch
  | tool => Switch.shared
  | command .tokens => Switch.shared ++ [.format, .pretty, .output, .force, .jobs]
  | command .check => Switch.shared ++ [.jobs]

def Level.ofName? (level : Level) (name : String) : Option Switch :=
  level.switches.find? fun s => s.name = name

def Level.ofLetter? (level : Level) (c : Char) : Option Switch :=
  level.switches.find? fun s => s.letter? = some c

/-! ## Usage -/

inductive UsageError where
  /-- No switch of this spelling exists here. -/
  | unknownArgument (text : String)
  /-- A switch that needs a value has none. -/
  | missingValue (switch : Switch)
  /-- A switch that takes no value has one. -/
  | unexpectedValue (switch : Switch)
  /-- A value that the switch does not admit. -/
  | invalidValue (switch : Switch) (value : String)
  /-- A switch stands twice at one level. -/
  | repeated (switch : Switch)
  /-- A path of a file is empty. -/
  | emptyPath
  /-- A command that takes files has none. -/
  | missingFiles
  /-- No command is given. -/
  | missingCommand
  /-- No command of this name exists. -/
  | unknownCommand (name : String)
  /-- An environment variable holds a value that its switch does not admit. -/
  | invalidVariable (name value : String)
deriving DecidableEq, Repr

namespace UsageError

def message : UsageError → String
  | unknownArgument text => "unexpected argument '" ++ text ++ "'"
  | missingValue switch => "a value is required for '--" ++ switch.name ++ "'"
  | unexpectedValue switch => "'--" ++ switch.name ++ "' takes no value"
  | invalidValue switch value => "invalid value '" ++ value ++ "' for '--" ++ switch.name ++ "'"
  | repeated switch => "'--" ++ switch.name ++ "' cannot be used multiple times"
  | emptyPath => "a file path is empty"
  | missingFiles => "no files are given"
  | missingCommand => "no command is given"
  | unknownCommand name => "unrecognized command '" ++ name ++ "'"
  | invalidVariable name value => "invalid value '" ++ value ++ "' for " ++ name

end UsageError

/-- How the tool is called, at each level. -/
def usageText : Level → String
  | .tool => "Usage: pdt [OPTIONS] <tokens|check>\n"
  | .command .tokens => "Usage: pdt tokens [OPTIONS] <FILES>...\n"
  | .command .check => "Usage: pdt check [OPTIONS] <FILES>...\n"

end ProjectD
