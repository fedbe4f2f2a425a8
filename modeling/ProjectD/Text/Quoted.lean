import ProjectD.Text.Characters

/-! # Texts shown with escapes

A text that may hold any character is shown with the controls, the backslash and the quotes
spelt out, and with every character that cannot be seen on its own as `\u` and its code point in
braces. Which characters those are is a parameter, `Glyphs`; the forms at the end of this file
use the standard tables.
-/

set_option autoImplicit false

namespace ProjectD.Text

/-- What is known about the appearance of characters. -/
structure Glyphs where
  /-- Whether a character is shown as itself. -/
  isPrintable : Char → Bool
  /-- Whether a character joins the one before it, so that on its own it is not seen. -/
  isExtending : Char → Bool

def Glyphs.standard : Glyphs where
  isPrintable c := !isUnprintable c
  isExtending := Text.isExtending

/-- A code point in lower-case hexadecimal between braces, after `\u`. -/
def codePoint (c : Char) : List Char :=
  '\\' :: 'u' :: '\x7b' :: (Nat.toDigits 16 c.toNat ++ ['\x7d'])

/-- One character with escapes. `quotes` says which quotes are escaped, `marks` whether a character
that extends the one before it is. -/
def escapeChar (glyphs : Glyphs) (quotes : Char → Bool) (marks : Bool) (c : Char) : List Char :=
  if c = '\x00' then ['\\', '0']
  else if c = '\t' then ['\\', 't']
  else if c = '\r' then ['\\', 'r']
  else if c = '\n' then ['\\', 'n']
  else if c = '\\' || quotes c then ['\\', c]
  else if marks && glyphs.isExtending c then codePoint c
  else if glyphs.isPrintable c then [c]
  else codePoint c

def isQuote (c : Char) : Bool :=
  c = '"' || c = '\''

/-- A text with escapes and no quotes around it. Both quotes are escaped; a character that extends
the one before it is escaped only at the start, where there is none before it. -/
def escape (glyphs : Glyphs) : List Char → List Char
  | [] => []
  | c :: cs => escapeChar glyphs isQuote true c ++ cs.flatMap (escapeChar glyphs isQuote false)

/-- A text with escapes between double quotes. -/
def quote (glyphs : Glyphs) (cs : List Char) : List Char :=
  '"' :: (cs.flatMap (escapeChar glyphs (· = '"') true) ++ ['"'])

/-- A character with escapes between single quotes. -/
def quoteChar (glyphs : Glyphs) (c : Char) : List Char :=
  '\'' :: (escapeChar glyphs (· = '\'') true c ++ ['\''])

/-- A text between double quotes, by the standard tables. -/
def quoted (s : String) : String :=
  String.ofList (quote Glyphs.standard s.toList)

/-- A character between single quotes, by the standard tables. -/
def quotedChar (c : Char) : String :=
  String.ofList (quoteChar Glyphs.standard c)

end ProjectD.Text
