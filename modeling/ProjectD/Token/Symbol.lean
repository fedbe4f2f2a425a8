/-! # The fixed vocabulary of the language

Separators, operators and keywords. Each family is an enumeration with two tables: one gives the
spelling of every member, the other the member of every spelling. Whether a text belongs to a
family is asked of the first.
-/

set_option autoImplicit false

namespace ProjectD

/-! ## Separators -/

/-- Brackets, punctuation and blanks. -/
inductive Separator where
  | parenOpen
  | parenClose
  | bracketOpen
  | bracketClose
  | curlyOpen
  | curlyClose
  | semicolon
  | comma
  | period
  | space
  | tab
  | newline
  | carriageReturn
deriving DecidableEq, Repr

namespace Separator

/-- All separators, in table order. -/
def all : List Separator :=
  [.parenOpen, .parenClose, .bracketOpen, .bracketClose, .curlyOpen, .curlyClose, .semicolon,
    .comma, .period, .space, .tab, .newline, .carriageReturn]

/-- The character that writes a separator. -/
def char : Separator → Char
  | parenOpen => '('
  | parenClose => ')'
  | bracketOpen => '['
  | bracketClose => ']'
  | curlyOpen => '\x7b'
  | curlyClose => '\x7d'
  | semicolon => ';'
  | comma => ','
  | period => '.'
  | space => ' '
  | tab => '\t'
  | newline => '\n'
  | carriageReturn => '\r'

/-- The text that writes a separator. -/
def spelling (s : Separator) : String :=
  String.singleton s.char

/-- The name under which token listings show a separator. -/
def name : Separator → String
  | parenOpen => "ParenOpen"
  | parenClose => "ParenClose"
  | bracketOpen => "BracketOpen"
  | bracketClose => "BracketClose"
  | curlyOpen => "CurlyBraceOpen"
  | curlyClose => "CurlyBraceClose"
  | semicolon => "Semicolon"
  | comma => "Comma"
  | period => "Period"
  | space => "Whitespace"
  | tab => "Tab"
  | newline => "NewLine"
  | carriageReturn => "WindowsNewLine"

/-- Blanks other than the newline only divide tokens; every other separator is a token itself. -/
def isPersistent : Separator → Bool
  | space | tab | carriageReturn => false
  | _ => true

def ofSpelling? : String → Option Separator
  | "(" => some .parenOpen
  | ")" => some .parenClose
  | "[" => some .bracketOpen
  | "]" => some .bracketClose
  | "\x7b" => some .curlyOpen
  | "\x7d" => some .curlyClose
  | ";" => some .semicolon
  | "," => some .comma
  | "." => some .period
  | " " => some .space
  | "\t" => some .tab
  | "\n" => some .newline
  | "\r" => some .carriageReturn
  | _ => none

def isMember (s : String) : Bool :=
  all.any (·.spelling = s)

end Separator

/-! ## Operators -/

/-- Symbol operators and operator words. -/
inductive Operator where
  | assign
  | not
  | or
  | and
  | xor
  | is
  | lt
  | le
  | gt
  | ge
  | eq
  | neq
  | plus
  | minus
  | mul
  | div
  | arrow
  | range
deriving DecidableEq, Repr

namespace Operator

def all : List Operator :=
  [.assign, .not, .or, .and, .xor, .is, .lt, .le, .gt, .ge, .eq, .neq, .plus, .minus, .mul, .div,
    .arrow, .range]

def spelling : Operator → String
  | assign => ":="
  | not => "not"
  | or => "or"
  | and => "and"
  | xor => "xor"
  | is => "is"
  | lt => "<"
  | le => "<="
  | gt => ">"
  | ge => ">="
  | eq => "="
  | neq => "/="
  | plus => "+"
  | minus => "-"
  | mul => "*"
  | div => "/"
  | arrow => "=>"
  | range => ".."

def name : Operator → String
  | assign => "Assign"
  | not => "Not"
  | or => "Or"
  | and => "And"
  | xor => "Xor"
  | is => "Is"
  | lt => "Lt"
  | le => "Le"
  | gt => "Gt"
  | ge => "Ge"
  | eq => "Eq"
  | neq => "Neq"
  | plus => "Plus"
  | minus => "Minus"
  | mul => "Mul"
  | div => "Div"
  | arrow => "Arrow"
  | range => "Range"

def ofSpelling? : String → Option Operator
  | ":=" => some .assign
  | "not" => some .not
  | "or" => some .or
  | "and" => some .and
  | "xor" => some .xor
  | "is" => some .is
  | "<" => some .lt
  | "<=" => some .le
  | ">" => some .gt
  | ">=" => some .ge
  | "=" => some .eq
  | "/=" => some .neq
  | "+" => some .plus
  | "-" => some .minus
  | "*" => some .mul
  | "/" => some .div
  | "=>" => some .arrow
  | ".." => some .range
  | _ => none

def isMember (s : String) : Bool :=
  all.any (·.spelling = s)

end Operator

/-! ## Keywords -/

/-- Reserved words. `is` is also an operator and `empty` also a literal; token streams use those
readings, the table keeps both words. A word that Lean reserves too has `Word` after its name. -/
inductive Keyword where
  | var
  | trueWord
  | falseWord
  | is
  | endWord
  | ifWord
  | thenWord
  | elseWord
  | forWord
  | whileWord
  | inWord
  | loop
  | print
  | returnWord
  | int
  | real
  | bool
  | string
  | empty
  | func
  | array
  | tuple
deriving DecidableEq, Repr

namespace Keyword

def all : List Keyword :=
  [.var, .trueWord, .falseWord, .is, .endWord, .ifWord, .thenWord, .elseWord, .forWord,
    .whileWord, .inWord, .loop, .print, .returnWord, .int, .real, .bool, .string, .empty, .func,
    .array, .tuple]

def spelling : Keyword → String
  | .var => "var"
  | .trueWord => "true"
  | .falseWord => "false"
  | .is => "is"
  | .endWord => "end"
  | .ifWord => "if"
  | .thenWord => "then"
  | .elseWord => "else"
  | .forWord => "for"
  | .whileWord => "while"
  | .inWord => "in"
  | .loop => "loop"
  | .print => "print"
  | .returnWord => "return"
  | .int => "int"
  | .real => "real"
  | .bool => "bool"
  | .string => "string"
  | .empty => "empty"
  | .func => "func"
  | .array => "array"
  | .tuple => "tuple"

def name : Keyword → String
  | .var => "Var"
  | .trueWord => "True"
  | .falseWord => "False"
  | .is => "Is"
  | .endWord => "End"
  | .ifWord => "If"
  | .thenWord => "Then"
  | .elseWord => "Else"
  | .forWord => "For"
  | .whileWord => "While"
  | .inWord => "In"
  | .loop => "Loop"
  | .print => "Print"
  | .returnWord => "Return"
  | .int => "Int"
  | .real => "Real"
  | .bool => "Bool"
  | .string => "String"
  | .empty => "Empty"
  | .func => "Func"
  | .array => "Array"
  | .tuple => "Tuple"

def ofSpelling? : String → Option Keyword
  | "var" => some .var
  | "true" => some .trueWord
  | "false" => some .falseWord
  | "is" => some .is
  | "end" => some .endWord
  | "if" => some .ifWord
  | "then" => some .thenWord
  | "else" => some .elseWord
  | "for" => some .forWord
  | "while" => some .whileWord
  | "in" => some .inWord
  | "loop" => some .loop
  | "print" => some .print
  | "return" => some .returnWord
  | "int" => some .int
  | "real" => some .real
  | "bool" => some .bool
  | "string" => some .string
  | "empty" => some .empty
  | "func" => some .func
  | "array" => some .array
  | "tuple" => some .tuple
  | _ => none

def isMember (s : String) : Bool :=
  all.any (·.spelling = s)

end Keyword

end ProjectD
