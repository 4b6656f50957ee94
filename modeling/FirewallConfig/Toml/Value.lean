/-!
# Toml/Value — the tree of a document, and how headers and keys make it grow

A table may be named by a header only once, but tables on the way to it need no header, and a header
may come later; tables that dotted keys make, and those that are written inline, are closed to
headers of their own.  `Form` remembers which it was, and `openTable`, `openRow` and
`putField` refuse what would define something twice.
-/

namespace FirewallConfig.Toml

/-- How a table came to be. -/
inductive Form where
  /-- Written between braces: nothing may be added. -/
  | inline
  /-- Named by a header. -/
  | header
  /-- On the way to a table that a header names. -/
  | implied
  /-- Made by a dotted key. -/
  | dotted
deriving DecidableEq, Repr

/-- A value.  Numbers other than integers, and times, are kept as they are written. -/
inductive Value where
  | text (s : String)
  | integer (n : Int)
  | float (literal : String)
  | truth (b : Bool)
  | time (literal : String)
  | list (items : List Value)
  | table (form : Form) (fields : List (String × Value))
  /-- The tables that headers in double brackets have made. -/
  | rows (tables : List (List (String × Value)))

/-- The fields of a table, in the order in which they came. -/
abbrev Fields := List (String × Value)

/-- The value of a key. -/
def field? (fields : Fields) (key : String) : Option Value :=
  (fields.find? (·.1 == key)).map Prod.snd

/-- Changes the value of a key, or gives it one; fails where `f` does. -/
def amendField (key : String) (f : Option Value → Option Value) : Fields → Option Fields
  | [] => (f none).map fun v => [(key, v)]
  | (k, v) :: rest =>
    if k = key then (f (some v)).map fun v => (k, v) :: rest
    else (amendField key f rest).map ((k, v) :: ·)

/-- Changes the last table of some rows. -/
def amendLast (f : Fields → Option Fields) : List Fields → Option (List Fields)
  | [] => none
  | [row] => (f row).map fun row => [row]
  | row :: rows => (amendLast f rows).map (row :: ·)

/-- Changes the table that a header's path leads to; tables that are missing on the way are made,
and of rows it is the last one. -/
def descend : List String → (Fields → Option Fields) → Fields → Option Fields
  | [], f => f
  | key :: path, f => amendField key fun
    | none => (descend path f []).map (.table .implied)
    | some (.table .inline _) => none
    | some (.table form fields) => (descend path f fields).map (.table form)
    | some (.rows tables) => (amendLast (descend path f) tables).map .rows
    | some _ => none

/-- Opens the table of a header. -/
def openTable (path : List String) (key : String) : Fields → Option Fields :=
  descend path (amendField key fun
    | none => some (.table .header [])
    | some (.table .implied fields) => some (.table .header fields)
    | some _ => none)

/-- Opens one more row for a header in double brackets. -/
def openRow (path : List String) (key : String) : Fields → Option Fields :=
  descend path (amendField key fun
    | none => some (.rows [[]])
    | some (.rows tables) => some (.rows (tables ++ [[]]))
    | some _ => none)

/-- Puts a value at a dotted key below a table.  The last table on the way must be one that dotted
keys have made. -/
def putField : List String → String → Value → Fields → Option Fields
  | [], key, v => amendField key fun old => if old.isSome then none else some v
  | next :: path, key, v => amendField next fun
    | none => (putField path key v []).map (.table .dotted)
    | some (.table .dotted fields) => (putField path key v fields).map (.table .dotted)
    | some (.table .implied fields) =>
      if path.isEmpty then none else (putField path key v fields).map (.table .implied)
    | some (.rows tables) =>
      if path.isEmpty then none else (amendLast (putField path key v) tables).map .rows
    | some _ => none

end FirewallConfig.Toml
