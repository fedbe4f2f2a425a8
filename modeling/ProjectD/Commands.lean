import ProjectD.Files.Tree
import ProjectD.Scanner
import ProjectD.Settings
import ProjectD.Text.Characters
import ProjectD.ToolError

/-! # The two commands

A command reads source files from a file tree. It leaves a text on the standard output, one log
record for each file that failed, and a file tree, and it ends well or with an error (`Report`).

* `check` prints one line for each file, which says whether it can be split into tokens.
* `Dump.run` writes the tokens of each file in the chosen format, either one after another to the
  standard output or into a directory, where each input has a file of its own named after it. A file
  that fails is logged, and the others are written all the same.
-/

set_option autoImplicit false

namespace ProjectD

/-! ## Source files -/

/-- The tokens of the source file that a path leads to. -/
def FileTree.tokenize (tree : FileTree) (path : String) (tabWidth : UInt32) :
    Except SourceError (List Token) :=
  match tree.readText path with
  | .error cause => .error (.unreadable path cause)
  | .ok text =>
    match ProjectD.tokenize text tabWidth with
    | .error e => .error (.lexical e)
    | .ok tokens => .ok tokens

/-- A source file with its tokens, or with the reason why it has none. -/
structure Lexed where
  path : String
  result : Except SourceError (List Token)

/-- The tokens of several source files, in order. All are read before anything is written. -/
def FileTree.tokenizeAll (tree : FileTree) (paths : List String) (tabWidth : UInt32) :
    List Lexed :=
  paths.map fun path => ⟨path, tree.tokenize path tabWidth⟩

/-! ## Log -/

/-- What is logged about a file that failed. -/
structure LogRecord where
  message : String
  file : String
deriving DecidableEq, Repr

namespace LogRecord

/-- Two lower-case hexadecimal digits. -/
def hexByte (n : Nat) : List Char :=
  let ds := Nat.toDigits 16 n
  List.replicate (2 - ds.length) '0' ++ ds

/-- The characters that could steer a terminal, spelt out. -/
def harmless (c : Char) : List Char :=
  if c ∈ ['\x07', '\x08', '\x0c', '\x1b', '\x7f'] then ['\\', 'x'] ++ hexByte c.toNat
  else if 0x80 ≤ c.toNat ∧ c.toNat ≤ 0x9f then Text.codePoint c
  else [c]

/-- A record on one line: the message and the file. -/
def render (r : LogRecord) : String :=
  String.ofList (r.message.toList.flatMap harmless) ++ " file=" ++ r.file

end LogRecord

/-! ## Report -/

/-- All that a command leaves behind. -/
structure Report where
  /-- The text on the standard output. -/
  output : String
  /-- One record for each file that failed, in order. -/
  log : List LogRecord
  /-- The file tree afterwards. -/
  tree : FileTree
  /-- How the command ends. -/
  result : Except ToolError Unit

/-- The report of a command that stops before it has done anything but change the tree. -/
def Report.failed (tree : FileTree) (e : ToolError) : Report :=
  ⟨"", [], tree, .error e⟩

/-! ## Checking files -/

/-- The log record of a source file that has no tokens. -/
def Lexed.failure? (l : Lexed) : Option LogRecord :=
  match l.result with
  | .ok _ => none
  | .error e => some ⟨e.message, l.path⟩

/-- The line on a source file: the number of its tokens, or why it has none. -/
def Lexed.line (l : Lexed) : String :=
  l.path ++ ": " ++
    match l.result with
    | .ok tokens => "ok (" ++ toString tokens.length ++ " tokens)"
    | .error e => e.message

/-- Report on each of the files. The check fails if one of them does. -/
def check (tree : FileTree) (tabWidth : UInt32) (files : List String) : Report :=
  if files.isEmpty then .failed tree .noInput
  else
    let lexed := tree.tokenizeAll files tabWidth
    let log := lexed.filterMap Lexed.failure?
    { output := String.join (lexed.map fun l => l.line ++ "\n")
      log := log
      tree := tree
      result := if log.isEmpty then .ok () else .error (.checksFailed log.length files.length) }

/-! ## Dumping token lists -/

structure DumpRequest where
  /-- The source files. -/
  files : List String
  /-- The name of the format, in place of the one in the settings. -/
  format : Option String := none
  /-- Indent JSON, also if the settings do not say so. -/
  pretty : Bool := false
  /-- The directory to write into; without one the dump goes to the standard output. -/
  output : Option String := none
  /-- Replace files that are there already. -/
  force : Bool := false

namespace Dump

/-! ## Preparation -/

/-- The format asked for, or else the one in the settings. -/
def chooseFormat (request : DumpRequest) (settings : Settings) : Except ToolError OutputFormat :=
  match request.format with
  | some name =>
    match OutputFormat.ofName? name with
    | some format => .ok format
    | none => .error (.unknownFormat name)
  | none =>
    match OutputFormat.ofName? settings.format with
    | some format => .ok format
    | none => .error (.configFormat settings.format)

/-- Make the output directory, if it is missing. What was made stays, also on failure. -/
def prepareDirectory (tree : FileTree) (dir : String) : FileTree × Except ToolError Unit :=
  if tree.contains dir && !tree.isDirectory dir then (tree, .error (.outputNotDirectory dir))
  else
    match tree.makeDirectories dir with
    | (made, .ok ()) => (made, .ok ())
    | (made, .error e) => (made, .error (.io e))

/-- Make the output directory, if one is asked for. -/
def prepare (tree : FileTree) : Option String → FileTree × Except ToolError Unit
  | some dir => prepareDirectory tree dir
  | none => (tree, .ok ())

/-! ## Standard output -/

/-- The line that names the file whose tokens follow. -/
def heading (path : String) : String :=
  "==> " ++ path ++ " <==\n"

/-- A listing on the standard output ends in exactly one newline. -/
def body (format : OutputFormat) (pretty : Bool) (tokens : List Token) : String :=
  Text.trimEnd (format.render pretty tokens) ++ "\n"

/-- The listing of one file on the standard output. In a table with several files each listing has a
heading; JSON has none. -/
def listing (format : OutputFormat) (pretty isMultiple : Bool) (path : String)
    (tokens : List Token) : String :=
  (if isMultiple ∧ format = .text then heading path else "") ++ body format pretty tokens

/-! ## Output files -/

/-- The output file for an input: in the directory, named by the stem of the input and the extension
of the format. -/
def outputPath (input dir : String) (format : OutputFormat) : Except ToolError String :=
  match Path.fileStem? input with
  | some stem => .ok (Path.join dir (stem ++ "." ++ format.extension))
  | none => .error (.invalidPath input)

/-- Write the tokens of an input to its file in the directory. Without `force` a file that is there
already stays. -/
def writeTokens (tree : FileTree) (dir : String) (force : Bool) (format : OutputFormat)
    (pretty : Bool) (path : String) (tokens : List Token) : Except ToolError FileTree :=
  match outputPath path dir format with
  | .error e => .error e
  | .ok target =>
    if tree.contains target && !force then .error (.outputExists target)
    else
      match tree.writeFile target (format.render pretty tokens).toUTF8 with
      | .error e => .error (.io e)
      | .ok written => .ok written

/-! ## The run -/

/-- How tokens are written, settled before the first file. -/
structure Plan where
  format : OutputFormat
  pretty : Bool
  output : Option String
  force : Bool
  /-- Whether there is more than one input. -/
  isMultiple : Bool

/-- The plan of a request, once its format is settled. -/
def planOf (request : DumpRequest) (settings : Settings) (format : OutputFormat) : Plan where
  format := format
  pretty := request.pretty || settings.pretty
  output := request.output
  force := request.force
  isMultiple := decide (1 < request.files.length)

/-- What has been written so far. -/
structure Progress where
  output : String
  log : List LogRecord
  tree : FileTree

def Plan.emit (plan : Plan) (p : Progress) (path : String) (tokens : List Token) :
    Except ToolError Progress :=
  match plan.output with
  | none =>
    .ok { p with
      output := p.output ++ listing plan.format plan.pretty plan.isMultiple path tokens }
  | some dir =>
    match writeTokens p.tree dir plan.force plan.format plan.pretty path tokens with
    | .error e => .error e
    | .ok tree => .ok { p with tree := tree }

/-- Write the tokens of one file, if it has any. -/
def Plan.attempt (plan : Plan) (p : Progress) (l : Lexed) : Except ToolError Progress :=
  match l.result with
  | .error e => .error (.source e)
  | .ok tokens => plan.emit p l.path tokens

/-- Deal with one file: write its tokens, or log why that fails. -/
def Plan.step (plan : Plan) (p : Progress) (l : Lexed) : Progress :=
  match plan.attempt p l with
  | .ok written => written
  | .error e => { p with log := p.log ++ [⟨e.message, l.path⟩] }

def Plan.run (plan : Plan) (tree : FileTree) (lexed : List Lexed) : Progress :=
  lexed.foldl plan.step ⟨"", [], tree⟩

/-- The report of a dump that has dealt with all files. -/
def Progress.report (p : Progress) : Report where
  output := p.output
  log := p.log
  tree := p.tree
  result := if p.log.isEmpty then .ok () else .error (.filesFailed p.log.length)

/-- Dump the tokens of the files. All files are read before the first is written, and the dump fails
if one of the files does. -/
def run (tree : FileTree) (settings : Settings) (request : DumpRequest) : Report :=
  if request.files.isEmpty then .failed tree .noInput
  else
    match chooseFormat request settings with
    | .error e => .failed tree e
    | .ok format =>
      match prepare tree request.output with
      | (made, .error e) => .failed made e
      | (made, .ok ()) =>
        ((planOf request settings format).run made
          (made.tokenizeAll request.files settings.tabWidth)).report

end Dump

end ProjectD
