import ProjectD.Number.Shortest

/-! # JSON values and their text

Numbers keep the distinction that their text makes: an integer has neither a fraction nor an
exponent, a real has one of them. Objects keep their members in order.

One printer has two layouts: everything on one line without blanks, or one item to a line with two
blanks of indentation for each level. Strings escape the quote, the backslash and the controls and
nothing else. A number that is not finite has no JSON form and is written as `null`.
-/

set_option autoImplicit false

namespace ProjectD

inductive Json where
  | null
  | bool (b : Bool)
  | integer (n : Int)
  | real (x : Binary64)
  | string (s : String)
  | array (items : List Json)
  | object (members : List (String × Json))

namespace Json

/-- How the parts of a value are laid out. -/
inductive Layout where
  /-- On one line, without blanks. -/
  | compact
  /-- One item to a line, indented. -/
  | indented
deriving DecidableEq, Repr

/-- What stands before an item at a depth. -/
def Layout.lineBreak : Layout → Nat → List Char
  | compact, _ => []
  | indented, depth => '\n' :: List.replicate (2 * depth) ' '

/-- What stands before a closing bracket; nothing if the brackets hold nothing. -/
def Layout.closing (layout : Layout) (depth : Nat) (isEmpty : Bool) : List Char :=
  if isEmpty then [] else layout.lineBreak depth

/-- What stands between the name of a member and its value. -/
def Layout.colon : Layout → List Char
  | compact => [':']
  | indented => [':', ' ']

/-- A hexadecimal digit in lower case. -/
def hexDigit (n : Nat) : Char :=
  Nat.digitChar n

/-- One character of a string. -/
def stringChar (c : Char) : List Char :=
  if c = '"' then ['\\', '"']
  else if c = '\\' then ['\\', '\\']
  else if c = '\x08' then ['\\', 'b']
  else if c = '\x0c' then ['\\', 'f']
  else if c = '\n' then ['\\', 'n']
  else if c = '\r' then ['\\', 'r']
  else if c = '\t' then ['\\', 't']
  else if c.toNat < 32 then
    ['\\', 'u', '0', '0', hexDigit (c.toNat / 16), hexDigit (c.toNat % 16)]
  else [c]

/-- A string between quotes. -/
def stringText (s : String) : List Char :=
  '"' :: (s.toList.flatMap stringChar ++ ['"'])

mutual

def text (layout : Layout) (depth : Nat) : Json → List Char
  | null => ['n', 'u', 'l', 'l']
  | bool b => if b then ['t', 'r', 'u', 'e'] else ['f', 'a', 'l', 's', 'e']
  | integer n => Decimal.ofInt n
  | real x => if x.isFinite then x.text else ['n', 'u', 'l', 'l']
  | string s => stringText s
  | array items =>
    '[' :: (itemsText layout (depth + 1) true items ++ layout.closing depth items.isEmpty ++ [']'])
  | object members =>
    '\x7b' :: (membersText layout (depth + 1) true members ++
      layout.closing depth members.isEmpty ++ ['\x7d'])
termination_by structural j => j

/-- The items of an array, each but the first after a comma. -/
def itemsText (layout : Layout) (depth : Nat) (first : Bool) : List Json → List Char
  | [] => []
  | item :: items =>
    (if first then [] else [',']) ++ layout.lineBreak depth ++ text layout depth item ++
      itemsText layout depth false items
termination_by structural items => items

/-- The members of an object, each but the first after a comma. -/
def membersText (layout : Layout) (depth : Nat) (first : Bool) :
    List (String × Json) → List Char
  | [] => []
  | member :: members =>
    (if first then [] else [',']) ++ layout.lineBreak depth ++ memberText layout depth member ++
      membersText layout depth false members
termination_by structural members => members

def memberText (layout : Layout) (depth : Nat) : String × Json → List Char
  | (name, value) => stringText name ++ layout.colon ++ text layout depth value
termination_by structural member => member

end

def render (layout : Layout) (j : Json) : String :=
  String.ofList (j.text layout 0)

end Json

end ProjectD
