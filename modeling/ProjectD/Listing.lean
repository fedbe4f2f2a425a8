import ProjectD.Json.Basic
import ProjectD.Token.Basic

/-! # Token listings

The two written forms of a token list: a JSON array with one object for each token, and a text
table with one row for each token.
-/

set_option autoImplicit false

namespace ProjectD

/-! ## JSON -/

/-- A literal: its type and its value; the empty value has none. -/
def Literal.toJson : Literal → Json
  | integer n => .object [("Integer", .integer n)]
  | real x => .object [("Real", .real x)]
  | string s => .object [("String", .string s)]
  | empty => .string "Empty"

/-- A kind: its family and its member. -/
def Kind.toJson : Kind → Json
  | separator s => .object [("Separator", .string s.name)]
  | operator o => .object [("Operator", .string o.name)]
  | keyword k => .object [("Keyword", .string k.name)]
  | literal l => .object [("Literal", l.toJson)]
  | identifier name => .object [("Identifier", .object [("name", .string name)])]

/-- A token: lexeme, line, column and kind. -/
def Token.toJson (t : Token) : Json :=
  .object [("lexeme", .string t.lexeme), ("line", .integer t.position.line.toNat),
    ("column", .integer t.position.column.toNat), ("kind", t.kind.toJson)]

def renderJson (layout : Json.Layout) (tokens : List Token) : String :=
  (Json.array (tokens.map Token.toJson)).render layout

/-! ## Text table -/

/-- A text filled up with blanks on the right to `width` characters. -/
def padRight (width : Nat) (cs : List Char) : List Char :=
  cs ++ List.replicate (width - cs.length) ' '

/-- The row of a token: position, kind and escaped lexeme, in columns two blanks apart. -/
def Token.row (glyphs : Text.Glyphs) (t : Token) : List Char :=
  padRight 8 t.position.render.toList ++ [' ', ' '] ++ padRight 22 t.kind.label.toList ++
    [' ', ' '] ++ Text.escape glyphs t.lexeme.toList ++ ['\n']

/-- A token list as a table, each row ended by a newline. -/
def renderTable (glyphs : Text.Glyphs) (tokens : List Token) : String :=
  String.ofList (tokens.flatMap (Token.row glyphs))

/-! ## Choice of the form -/

inductive OutputFormat where
  | json
  | text
deriving DecidableEq, Repr

namespace OutputFormat

/-- The lower-case form of an ASCII letter; other characters stay. No other character has one of the
letters of the format names as its lower-case form, so this suffices to compare with them. -/
def lowerAscii (c : Char) : Char :=
  if 'A' ≤ c ∧ c ≤ 'Z' then Char.ofNat (c.toNat + 32) else c

/-- The format that a name means; case does not matter. -/
def ofName? (name : String) : Option OutputFormat :=
  let lower := String.ofList (name.toList.map lowerAscii)
  if lower = "json" then some .json
  else if lower = "text" ∨ lower = "txt" then some .text
  else none

def name : OutputFormat → String
  | json => "json"
  | text => "text"

def extension : OutputFormat → String
  | json => "json"
  | text => "txt"

/-- A token list in a format. `pretty` indents JSON and leaves the table as it is. -/
def render (format : OutputFormat) (pretty : Bool) (tokens : List Token) : String :=
  match format with
  | json => renderJson (if pretty then .indented else .compact) tokens
  | text => renderTable Text.Glyphs.standard tokens

end OutputFormat

end ProjectD
