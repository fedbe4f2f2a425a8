/-! # TOML values

The values of a TOML document. Strings, integers and booleans carry their content; of real numbers
and dates only the kind is kept. A table remembers how it came about, because that decides which
later statements may add to it. An array of tables is kept apart from an array value, because
headers can add to the one and not to the other.
-/

set_option autoImplicit false

namespace ProjectD.Toml

/-- How a table came about. -/
inductive Origin where
  /-- By its own header. -/
  | header
  /-- As a step of a longer header. -/
  | path
  /-- As a step of a dotted key. -/
  | dotted
  /-- In braces. -/
  | braces
deriving DecidableEq, Repr

inductive Value where
  | string (s : String)
  | integer (n : Int)
  | float
  | boolean (b : Bool)
  | date
  | array (items : List Value)
  | table (origin : Origin) (entries : List (String × Value))
  | tables (elements : List (List (String × Value)))

/-- The entries of a table, in order of appearance. -/
abbrev Entries := List (String × Value)

/-- The entries with the value of a key replaced. -/
def replaceEntry (key : String) (value : Value) : Entries → Entries
  | [] => []
  | (k, v) :: rest => if k = key then (k, value) :: rest else (k, v) :: replaceEntry key value rest

/-- Follow keys into a table and change the table they lead to. Missing tables are made on the way.
A dotted key must not enter a table that has its own header, and nothing enters a table in braces
or a plain value; an array of tables is entered at its last element. -/
def descend (isDotted : Bool) (change : Origin → Entries → Option Entries) :
    List String → Origin → Entries → Option Entries
  | [], origin, entries => change origin entries
  | key :: keys, _, entries =>
    match entries.lookup key with
    | none => do
      let made : Origin := if isDotted then .dotted else .path
      let inner ← descend isDotted change keys made []
      some (entries ++ [(key, .table made inner)])
    | some (.table .braces _) => none
    | some (.table origin inner) =>
      if isDotted ∧ origin = .header then none
      else do
        let inner ← descend isDotted change keys origin inner
        some (replaceEntry key (.table origin inner) entries)
    | some (.tables elements) => do
      let last ← elements.getLast?
      let last ← descend isDotted change keys .header last
      some (replaceEntry key (.tables (elements.dropLast ++ [last])) entries)
    | some _ => none

/-- Add a key with its value to a table. The key must be new; `isDotted` says whether the key has
steps, and then the table must come from such steps itself. -/
def addEntry (isDotted : Bool) (key : String) (value : Value) (origin : Origin)
    (entries : Entries) : Option Entries :=
  if decide (origin = .dotted) ≠ isDotted ∨ (entries.lookup key).isSome then none
  else some (entries ++ [(key, value)])

/-- Add a dotted key with its value to a table. -/
def addKey (keys : List String) (value : Value) (origin : Origin) (entries : Entries) :
    Option Entries :=
  match keys.getLast? with
  | none => none
  | some key =>
    descend true (addEntry (1 < keys.length) key value) keys.dropLast origin entries

/-- Open a table by a header. A table that was only a step of other headers may still get its
own. -/
def openTable (key : String) (entries : Entries) : Option Entries :=
  match entries.lookup key with
  | none => some (entries ++ [(key, .table .header [])])
  | some (.table .path inner) => some (replaceEntry key (.table .header inner) entries)
  | some _ => none

/-- Open the next element of an array of tables by a header. -/
def openElement (key : String) (entries : Entries) : Option Entries :=
  match entries.lookup key with
  | none => some (entries ++ [(key, .tables [[]])])
  | some (.tables elements) => some (replaceEntry key (.tables (elements ++ [[]])) entries)
  | some _ => none

/-- Open what a header with dotted keys names. -/
def openHeader (isElement : Bool) (keys : List String) (root : Entries) : Option Entries :=
  match keys.getLast? with
  | none => none
  | some key =>
    descend false (fun _ => (if isElement then openElement else openTable) key) keys.dropLast
      .header root

end ProjectD.Toml
