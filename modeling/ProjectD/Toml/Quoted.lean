import ProjectD.Number.Digits

/-! # TOML strings and keys

The four kinds of strings, each read after its first quote, and dotted keys. A quote is either the
double one, with escapes, or the single one, without. A string on one line ends at the next quote;
three quotes open a string over several lines, which three quotes close.
-/

set_option autoImplicit false

namespace ProjectD.Toml

/-! ## Blanks, line breaks and text -/

/-- Blanks within a line. -/
def isSpace (c : Char) : Bool :=
  c = ' ' || c = '\t'

def skipSpaces (cs : List Char) : List Char :=
  cs.dropWhile isSpace

/-- The text after a line break: a newline, or a carriage return and a newline. -/
def newline? : List Char → Option (List Char)
  | '\n' :: cs => some cs
  | '\r' :: '\n' :: cs => some cs
  | _ => none

/-- The characters of strings and comments: all but the control characters, the tab apart. -/
def isText (c : Char) : Bool :=
  c = '\t' || (' ' ≤ c && c ≠ '\x7f')

/-! ## Strings -/

/-- The quote of strings with escapes. -/
def doubleQuote : Char := '"'

/-- The quote of strings without escapes. -/
def singleQuote : Char := '\x27'

/-- The character with a given number, unless the number is a surrogate or too large. -/
def character? (n : Nat) : Option Char :=
  if n.isValidChar then some (Char.ofNat n) else none

/-- The character of an escape, after the backslash. -/
def escape? : List Char → Option (Char × List Char)
  | 'b' :: cs => some ('\x08', cs)
  | 't' :: cs => some ('\t', cs)
  | 'n' :: cs => some ('\n', cs)
  | 'f' :: cs => some ('\x0c', cs)
  | 'r' :: cs => some ('\r', cs)
  | '"' :: cs => some ('"', cs)
  | '\\' :: cs => some ('\\', cs)
  | 'u' :: cs => do
    let (n, cs) ← Radix.hex? 4 cs
    let c ← character? n
    some (c, cs)
  | 'U' :: cs => do
    let (n, cs) ← Radix.hex? 8 cs
    let c ← character? n
    some (c, cs)
  | _ => none

/-- The rest of a string on one line, after what was read of it. Every round takes at least one
character, so the length of the text bounds their number. -/
def lineBody? (quote : Char) : Nat → String → List Char → Option (String × List Char)
  | 0, _, _ => none
  | _ + 1, _, [] => none
  | fuel + 1, read, c :: cs =>
    if c = quote then some (read, cs)
    else if c = '\\' ∧ quote = doubleQuote then do
      let (d, cs) ← escape? cs
      lineBody? quote fuel (read.push d) cs
    else if isText c then lineBody? quote fuel (read.push c) cs
    else none

/-- A string on one line, after its opening quote. -/
def lineString? (quote : Char) (cs : List Char) : Option (String × List Char) :=
  lineBody? quote (cs.length + 1) "" cs

/-- The text after its leading blanks and line breaks. -/
def skipBlankLines : List Char → List Char
  | ' ' :: cs => skipBlankLines cs
  | '\t' :: cs => skipBlankLines cs
  | '\n' :: cs => skipBlankLines cs
  | '\r' :: '\n' :: cs => skipBlankLines cs
  | cs => cs

/-- The text after an escaped line break, which takes all blanks around it along. -/
def escapedNewline? (cs : List Char) : Option (List Char) :=
  (newline? (skipSpaces cs)).map skipBlankLines

/-- The rest of a string over several lines, after what was read of it. One or two quotes are text;
three close the string, and one or two more before these are text again. A line break is always
read as a newline. -/
def blockBody? (quote : Char) : Nat → String → List Char → Option (String × List Char)
  | 0, _, _ => none
  | _ + 1, _, [] => none
  | fuel + 1, read, c :: cs =>
    if c = quote then
      let run := 1 + (cs.takeWhile (· = quote)).length
      let rest := cs.dropWhile (· = quote)
      if run < 3 then blockBody? quote fuel (read.pushn quote run) rest
      else if run ≤ 5 then some (read.pushn quote (run - 3), rest)
      else none
    else if c = '\\' ∧ quote = doubleQuote then
      match escapedNewline? cs with
      | some cs => blockBody? quote fuel read cs
      | none => do
        let (d, cs) ← escape? cs
        blockBody? quote fuel (read.push d) cs
    else
      match newline? (c :: cs) with
      | some cs => blockBody? quote fuel (read.push '\n') cs
      | none => if isText c then blockBody? quote fuel (read.push c) cs else none

/-- A string over several lines, after its opening quotes. A line break right after them is
dropped. -/
def blockString? (quote : Char) (cs : List Char) : Option (String × List Char) :=
  let cs := (newline? cs).getD cs
  blockBody? quote (cs.length + 1) "" cs

/-- A string of either length, after its first quote. -/
def string? (quote : Char) (cs : List Char) : Option (String × List Char) :=
  if cs.take 2 = [quote, quote] then blockString? quote (cs.drop 2) else lineString? quote cs

/-! ## Keys -/

/-- The most parts of a dotted key. -/
def maxKeyParts : Nat := 79

/-- The characters of keys without quotes. -/
def isBareKey (c : Char) : Bool :=
  ('A' ≤ c && c ≤ 'Z') || ('a' ≤ c && c ≤ 'z') || ('0' ≤ c && c ≤ '9') || c = '_' || c = '-'

/-- A part of a key: a bare word or a string on one line. -/
def keyPart? (cs : List Char) : Option (String × List Char) :=
  match cs with
  | [] => none
  | c :: rest =>
    if c = doubleQuote ∨ c = singleQuote then lineString? c rest
    else if isBareKey c then some (String.ofList (cs.takeWhile isBareKey), cs.dropWhile isBareKey)
    else none

/-- A key of at most `parts` parts with periods between them, and blanks around each. -/
def key? : Nat → List Char → Option (List String × List Char)
  | 0, _ => none
  | parts + 1, cs => do
    let (part, cs) ← keyPart? (skipSpaces cs)
    match skipSpaces cs with
    | '.' :: cs => do
      let (more, cs) ← key? parts cs
      some (part :: more, cs)
    | cs => some ([part], cs)

end ProjectD.Toml
