import ProjectD.Toml.Quoted
import ProjectD.Toml.Scalar

/-! # TOML documents

A document is a sequence of statements, one on a line: a key with its value, or the header of a
table. Reading a document splits it into statements and then carries these out in order on an empty
table. A text that is not a document is refused as a whole.
-/

set_option autoImplicit false

namespace ProjectD.Toml

/-! ## Values -/

/-- The deepest nesting of arrays and tables in braces. -/
def maxDepth : Nat := 79

/-- The text after blanks, line breaks and comments; `inComment` says whether it starts in one. -/
def skipFiller : Bool → List Char → List Char
  | _, [] => []
  | inComment, c :: cs =>
    if inComment && isText c then skipFiller true cs
    else if isSpace c || c = '\n' || (c = '\r' && cs.head? = some '\n') then skipFiller false cs
    else if c = '#' then skipFiller true cs
    else c :: cs

/-- The items of an array up to and with the closing bracket. A comma may follow the last one. -/
def items? (value? : List Char → Option (Value × List Char)) :
    Nat → List Char → Option (List Value × List Char)
  | 0, _ => none
  | fuel + 1, cs =>
    match skipFiller false cs with
    | ']' :: cs => some ([], cs)
    | cs => do
      let (item, cs) ← value? cs
      match skipFiller false cs with
      | ']' :: cs => some ([item], cs)
      | ',' :: cs => do
        let (items, cs) ← items? value? fuel cs
        some (item :: items, cs)
      | _ => none

def pair? (value? : List Char → Option (Value × List Char)) (cs : List Char) :
    Option ((List String × Value) × List Char) := do
  let (keys, cs) ← key? maxKeyParts cs
  let cs ← mark? '=' cs
  let (value, cs) ← value? (skipSpaces cs)
  some ((keys, value), cs)

/-- The pairs of a table in braces up to and with the closing brace, added to those read before. -/
def pairs? (value? : List Char → Option (Value × List Char)) :
    Nat → Entries → List Char → Option (Entries × List Char)
  | 0, _, _ => none
  | fuel + 1, entries, cs => do
    let ((keys, value), cs) ← pair? value? cs
    let entries ← addKey keys value .braces entries
    match skipSpaces cs with
    | '\x7d' :: cs => some (entries, cs)
    | ',' :: cs => pairs? value? fuel entries cs
    | _ => none

/-- A table in braces, after the opening brace. -/
def braces? (value? : List Char → Option (Value × List Char)) (cs : List Char) :
    Option (Entries × List Char) :=
  match skipSpaces cs with
  | '\x7d' :: cs => some ([], cs)
  | cs => pairs? value? (cs.length + 1) [] cs

/-- A value at the start of a text, with at most `depth` further levels of nesting. -/
def value? : Nat → List Char → Option (Value × List Char)
  | _, 't' :: 'r' :: 'u' :: 'e' :: cs => some (.boolean true, cs)
  | _, 'f' :: 'a' :: 'l' :: 's' :: 'e' :: cs => some (.boolean false, cs)
  | _, '"' :: cs => do
    let (s, cs) ← string? doubleQuote cs
    some (.string s, cs)
  | _, '\x27' :: cs => do
    let (s, cs) ← string? singleQuote cs
    some (.string s, cs)
  | depth + 1, '[' :: cs => do
    let (items, cs) ← items? (value? depth) (cs.length + 1) cs
    some (.array items, cs)
  | depth + 1, '\x7b' :: cs => do
    let (entries, cs) ← braces? (value? depth) cs
    some (.table .braces entries, cs)
  | _, cs =>
    match date? cs with
    | some cs => some (.date, cs)
    | none => number? cs

/-! ## Statements -/

/-- One line of a document. -/
inductive Statement where
  /-- A dotted key and its value, in the table opened last. -/
  | pair (keys : List String) (value : Value)
  /-- A header; in double brackets it opens the next element of an array of tables. -/
  | header (isElement : Bool) (keys : List String)

/-- The text after the end of a line, where blanks and a comment may stand before the line break. -/
def lineEnd? (cs : List Char) : Option (List Char) :=
  let rest :=
    match skipSpaces cs with
    | '#' :: cs => cs.dropWhile isText
    | cs => cs
  if rest.isEmpty then some [] else newline? rest

/-- The statement on a line; none if the line has no more than a comment. -/
def statement? (cs : List Char) : Option (Option Statement × List Char) :=
  match skipSpaces cs with
  | '[' :: '[' :: cs => do
    let (keys, cs) ← key? maxKeyParts cs
    let cs ← mark? ']' cs
    let cs ← mark? ']' cs
    some (some (.header true keys), cs)
  | '[' :: cs => do
    let (keys, cs) ← key? maxKeyParts cs
    let cs ← mark? ']' cs
    some (some (.header false keys), cs)
  | cs =>
    if (lineEnd? cs).isSome then some (none, cs)
    else do
      let ((keys, value), cs) ← pair? (value? maxDepth) cs
      some (some (.pair keys value), cs)

/-- The statements of a text. Every line takes at least one character, so the length of the text
bounds their number. -/
def statements? : Nat → List Char → Option (List Statement)
  | 0, _ => none
  | _ + 1, [] => some []
  | fuel + 1, c :: cs => do
    let (statement, cs) ← statement? (c :: cs)
    let cs ← lineEnd? cs
    let statements ← statements? fuel cs
    some (statement.toList ++ statements)

/-! ## Carrying out statements -/

/-- A document under construction: the header that was opened last, and the root table. -/
structure Draft where
  opened : List String
  root : Entries

/-- The draft after one more statement. -/
def Draft.add (draft : Draft) : Statement → Option Draft
  | .pair keys value =>
    (descend false (addKey keys value) draft.opened .header draft.root).map (⟨draft.opened, ·⟩)
  | .header isElement keys => (openHeader isElement keys draft.root).map (⟨keys, ·⟩)

/-- The text without a byte order mark at its start. -/
def skipByteOrderMark : List Char → List Char
  | '\ufeff' :: cs => cs
  | cs => cs

/-- The root table of the document that a text writes. -/
def read? (s : String) : Option Entries := do
  let cs := skipByteOrderMark s.toList
  let statements ← statements? (cs.length + 1) cs
  let draft ← statements.foldlM Draft.add ⟨[], []⟩
  some draft.root

end ProjectD.Toml
