import ProjectD.Files.Error
import ProjectD.Text.Cursor
import ProjectD.Text.Quoted

/-! # Lexical errors

Why a text is not a sequence of tokens, with the position of the fault. A source file can in
addition be unreadable, which is a cause of its own.
-/

set_option autoImplicit false

namespace ProjectD

/-- Why a text cannot be split into tokens. -/
inductive LexError where
  /-- A character that starts no lexeme. -/
  | unrecognizedCharacter (pos : Position) (character : Char)
  /-- A quoted literal that its line does not close; `text` is what stands on the line. -/
  | unterminatedString (pos : Position) (text : String)
  /-- A block comment that is not closed. -/
  | unterminatedComment (pos : Position)
  /-- A lexeme of no known shape. -/
  | malformedIdentifier (pos : Position) (lexeme : String)
  /-- A lexeme that starts like a number and is none, or is too large. -/
  | malformedLiteral (pos : Position) (lexeme : String)
  /-- A text that is not in the table of separators. -/
  | unknownSeparator (pos : Position) (lexeme : String)
  /-- A text that is not in the table of operators. -/
  | unknownOperator (pos : Position) (lexeme : String)
  /-- A text that is not in the table of keywords. -/
  | unknownKeyword (pos : Position) (lexeme : String)
deriving DecidableEq, Repr

namespace LexError

/-- Where the fault starts. -/
def position : LexError → Position
  | unrecognizedCharacter pos _ => pos
  | unterminatedString pos _ => pos
  | unterminatedComment pos => pos
  | malformedIdentifier pos _ => pos
  | malformedLiteral pos _ => pos
  | unknownSeparator pos _ => pos
  | unknownOperator pos _ => pos
  | unknownKeyword pos _ => pos

/-- The fault without its position. -/
def description : LexError → String
  | unrecognizedCharacter _ c => "unrecognized character " ++ Text.quotedChar c
  | unterminatedString _ text => "unterminated string literal `" ++ text ++ "`"
  | unterminatedComment _ => "unterminated block comment"
  | malformedIdentifier _ lexeme => "malformed identifier `" ++ lexeme ++ "`"
  | malformedLiteral _ lexeme => "malformed literal `" ++ lexeme ++ "`"
  | unknownSeparator _ lexeme => "unknown separator " ++ Text.quoted lexeme
  | unknownOperator _ lexeme => "unknown operator `" ++ lexeme ++ "`"
  | unknownKeyword _ lexeme => "unknown keyword `" ++ lexeme ++ "`"

/-- The message of an error: position, then fault. -/
def message (e : LexError) : String :=
  e.position.render ++ ": " ++ e.description

/-- The fields of an error in its structured form, position first. -/
private def structuredFields (pos : Position) (details : String) : String :=
  " \x7b line: " ++ toString pos.line.toNat ++ ", column: " ++ toString pos.column.toNat ++
    details ++ " \x7d"

/-- The structured form of an error, with every field named. -/
def structured : LexError → String
  | unrecognizedCharacter pos c =>
    "UnrecognizedCharacter" ++ structuredFields pos (", character: " ++ Text.quotedChar c)
  | unterminatedString pos text =>
    "UnterminatedStringLiteral" ++ structuredFields pos (", partial: " ++ Text.quoted text)
  | unterminatedComment pos => "UnterminatedComment" ++ structuredFields pos ""
  | malformedIdentifier pos lexeme =>
    "MalformedIdentifier" ++ structuredFields pos (", lexeme: " ++ Text.quoted lexeme)
  | malformedLiteral pos lexeme =>
    "MalformedLiteral" ++ structuredFields pos (", lexeme: " ++ Text.quoted lexeme)
  | unknownSeparator pos lexeme =>
    "UnknownSeparator" ++ structuredFields pos (", lexeme: " ++ Text.quoted lexeme)
  | unknownOperator pos lexeme =>
    "UnknownOperator" ++ structuredFields pos (", lexeme: " ++ Text.quoted lexeme)
  | unknownKeyword pos lexeme =>
    "UnknownKeyword" ++ structuredFields pos (", lexeme: " ++ Text.quoted lexeme)

end LexError

/-- Why a source file yields no tokens. -/
inductive SourceError where
  /-- The file cannot be read. -/
  | unreadable (path : String) (cause : FileError)
  /-- The text of the file is at fault. -/
  | lexical (error : LexError)
deriving DecidableEq, Repr

namespace SourceError

def message : SourceError → String
  | unreadable path cause => "failed to read " ++ path ++ ": " ++ cause.message
  | lexical error => error.message

end SourceError

end ProjectD
