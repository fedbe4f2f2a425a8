import ProjectD.CommandLine.Switch
import ProjectD.Number.Digits

/-! # Reading arguments

The arguments of one level are read from left to right. A switch that takes a value finds it in the
same argument or in the next one; in the second case it stays open, and is checked only when another
switch or file follows or the level ends. Asking for help or for the version ends the reading at
once.
-/

set_option autoImplicit false

namespace ProjectD.CommandLine

/-! ## The shape of an argument -/

inductive Argument where
  /-- Two dashes alone: what follows are files. -/
  | separator
  /-- A long name, with a value after an equals sign. -/
  | long (name : String) (value : Option String)
  /-- Letters after a single dash. -/
  | letters (cs : List Char)
  /-- Anything else; a single dash too. -/
  | plain (text : String)

/-- The text before the first equals sign, and the text after it. -/
def splitValue (cs : List Char) : String × Option String :=
  match cs.dropWhile (· ≠ '=') with
  | [] => (String.ofList cs, none)
  | _ :: value => (String.ofList (cs.takeWhile (· ≠ '=')), some (String.ofList value))

def Argument.ofString (text : String) : Argument :=
  match text.toList with
  | ['-', '-'] => .separator
  | '-' :: '-' :: cs => .long (splitValue cs).1 (splitValue cs).2
  | ['-'] => .plain text
  | '-' :: cs => .letters cs
  | _ => .plain text

/-! ## Values -/

def maxJobs : Nat := 4294967295

/-- A number of jobs: digits, perhaps after a plus sign. -/
def jobs? (value : String) : Option Nat :=
  let ds :=
    match value.toList with
    | '+' :: ds => ds
    | ds => ds
  if Decimal.isDigits ds ∧ 1 ≤ Decimal.value ds ∧ Decimal.value ds ≤ maxJobs then
    some (Decimal.value ds)
  else none

/-- Whether a switch admits a value: paths are not empty, and jobs are counted. -/
def admits (switch : Switch) (value : String) : Bool :=
  match switch with
  | .config | .output => value ≠ ""
  | .jobs => (jobs? value).isSome
  | _ => true

/-! ## The state of reading -/

/-- Why reading stops before the end. -/
inductive Stop where
  | refused (e : UsageError)
  | help (level : Level)
  | version (level : Level)
deriving DecidableEq, Repr

structure Reading where
  /-- The switches that were checked, with their values; a switch that takes none has the empty
  text. -/
  given : List (Switch × String) := []
  /-- The files. -/
  files : List String := []
  /-- The switch that is open, with its value once that is there. -/
  pending : Option (Switch × Option String) := none

namespace Reading

def value? (r : Reading) (switch : Switch) : Option String :=
  r.given.lookup switch

def has (r : Reading) (switch : Switch) : Bool :=
  (r.value? switch).isSome

/-- Whether the next plain argument is the value of a switch. -/
def awaitsValue (r : Reading) : Bool :=
  match r.pending with
  | some (_, none) => true
  | _ => false

/-- Check a switch with its value and add it. -/
def record (r : Reading) (switch : Switch) (value : String) : Except Stop Reading :=
  if r.has switch then .error (.refused (.repeated switch))
  else if !admits switch value then .error (.refused (.invalidValue switch value))
  else .ok { r with given := r.given ++ [(switch, value)] }

/-- Check the open switch and close it. -/
def settle (r : Reading) : Except Stop Reading :=
  match r.pending with
  | none => .ok r
  | some (switch, none) => .error (.refused (.missingValue switch))
  | some (switch, some value) => { r with pending := none }.record switch value

/-- Add a switch that takes no value. -/
def flag (r : Reading) (level : Level) (switch : Switch) : Except Stop Reading := do
  let r ← r.settle
  match switch with
  | .help => .error (.help level)
  | .version => .error (.version level)
  | switch => r.record switch ""

/-- Add a switch that takes a value, which follows in the next argument if it is not there yet. -/
def option (r : Reading) (switch : Switch) (value : Option String) : Except Stop Reading := do
  let r ← r.settle
  match value with
  | some value => r.record switch value
  | none => .ok { r with pending := some (switch, none) }

/-- Add the switch of a long name. -/
def long (r : Reading) (level : Level) (name : String) (value : Option String) :
    Except Stop Reading :=
  match level.ofName? name with
  | none => .error (.refused (.unknownArgument ("--" ++ name)))
  | some switch =>
    if switch.takesValue then r.option switch value
    else if value.isSome then .error (.refused (.unexpectedValue switch))
    else r.flag level switch

/-- The value that follows the letter of a switch in the same argument; an equals sign may stand
between them. -/
def attached : List Char → Option String
  | [] => none
  | '=' :: cs => some (String.ofList cs)
  | cs => some (String.ofList cs)

/-- Add the switches of several letters. The first one that takes a value takes the rest as its
value. -/
def letters (level : Level) : Reading → List Char → Except Stop Reading
  | r, [] => .ok r
  | r, c :: cs =>
    match level.ofLetter? c with
    | none => .error (.refused (.unknownArgument (String.ofList ['-', c])))
    | some switch =>
      if switch.takesValue then r.option switch (attached cs)
      else
        match r.flag level switch with
        | .error stop => .error stop
        | .ok r => letters level r cs

def file (r : Reading) (path : String) : Except Stop Reading := do
  let r ← r.settle
  if path = "" then .error (.refused .emptyPath) else .ok { r with files := r.files ++ [path] }

/-- Give the open switch its value. -/
def supply (r : Reading) (value : String) : Reading :=
  { r with pending := r.pending.map fun (switch, _) => (switch, some value) }

end Reading

/-! ## The arguments of a level -/

/-- Read the arguments after a command. After two dashes alone, `onlyFiles` holds. -/
def readCommand (level : Level) : Reading → Bool → List String → Except Stop Reading
  | r, _, [] => r.settle
  | r, true, arg :: args =>
    match r.file arg with
    | .error stop => .error stop
    | .ok r => readCommand level r true args
  | r, false, arg :: args =>
    match Argument.ofString arg with
    | .separator => readCommand level r true args
    | .long name value =>
      match r.long level name value with
      | .error stop => .error stop
      | .ok r => readCommand level r false args
    | .letters cs =>
      match r.letters level cs with
      | .error stop => .error stop
      | .ok r => readCommand level r false args
    | .plain text =>
      if r.awaitsValue then readCommand level (r.supply text) false args
      else
        match r.file text with
        | .error stop => .error stop
        | .ok r => readCommand level r false args

/-- Read the arguments up to the command: what was read, the name of the command and the arguments
after it. The switch that is open then is left open. -/
def readTool : Reading → List String → Except Stop (Reading × String × List String)
  | _, [] => .error (.refused .missingCommand)
  | r, arg :: args =>
    match Argument.ofString arg with
    | .separator =>
      .error (.refused (args.head?.elim .missingCommand .unknownArgument))
    | .long name value =>
      match r.long .tool name value with
      | .error stop => .error stop
      | .ok r => readTool r args
    | .letters cs =>
      match r.letters .tool cs with
      | .error stop => .error stop
      | .ok r => readTool r args
    | .plain text =>
      if r.awaitsValue then readTool (r.supply text) args else .ok (r, text, args)

end ProjectD.CommandLine
