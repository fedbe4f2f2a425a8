import ProjectD.Number.Binary64
import ProjectD.Text.Cursor
import ProjectD.Text.Quoted
import ProjectD.Token.Symbol

/-! # Tokens

A token is a lexeme with the position of its first character and its kind. Literals carry their
value, identifiers their name.
-/

set_option autoImplicit false

namespace ProjectD

inductive Literal where
  | integer (value : Int)
  | real (value : Binary64)
  /-- A quoted text; the content stands between the quotes, escapes included as they are written. -/
  | string (content : String)
  | empty
deriving DecidableEq, Repr

inductive Kind where
  | separator (s : Separator)
  | operator (o : Operator)
  | keyword (k : Keyword)
  | literal (l : Literal)
  | identifier (name : String)
deriving DecidableEq, Repr

/-- A lexeme, where it starts, and what it is. -/
structure Token where
  lexeme : String
  position : Position
  kind : Kind
deriving DecidableEq, Repr

/-- The name of the type of a literal. -/
def Literal.name : Literal → String
  | integer _ => "Integer"
  | real _ => "Real"
  | string _ => "String"
  | empty => "Empty"

/-- The kind as token listings show it: the family and the member. -/
def Kind.label : Kind → String
  | separator s => "Separator." ++ s.name
  | operator o => "Operator." ++ o.name
  | keyword k => "Keyword." ++ k.name
  | literal l => "Literal." ++ l.name
  | identifier _ => "Identifier"

/-- A token on one line: position, kind and quoted lexeme. -/
def Token.render (t : Token) : String :=
  t.position.render ++ " " ++ t.kind.label ++ " " ++ Text.quoted t.lexeme

end ProjectD
