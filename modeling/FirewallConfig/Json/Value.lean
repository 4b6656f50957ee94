/-!
# Json/Value — JSON values and their indented text

The values that reports are made of: numbers are natural, and the fields of an object keep the
order in which they are given.  `Json.pretty` writes one value a line, indented by two blanks a
level; an empty list or object stays on its line.
-/

namespace FirewallConfig

/-- A JSON value. -/
inductive Json where
  | null
  | bool (b : Bool)
  | num (n : Nat)
  | str (s : String)
  | arr (items : List Json)
  | obj (fields : List (String × Json))

namespace Json

/-- A list of texts. -/
def strings (texts : List String) : Json := .arr (texts.map .str)

/-- A text, or null where there is none. -/
def optional : Option String → Json
  | some s => .str s
  | none => .null

/-- A number, or null where there is none. -/
def optionalNum : Option Nat → Json
  | some n => .num n
  | none => .null

/-! ## Writing -/

/-- The spelling of a character inside a quoted text. -/
def escapeChar (c : Char) : List Char :=
  match c with
  | '"' => ['\\', '"']
  | '\\' => ['\\', '\\']
  | '\n' => ['\\', 'n']
  | '\r' => ['\\', 'r']
  | '\t' => ['\\', 't']
  | '\x08' => ['\\', 'b']
  | '\x0c' => ['\\', 'f']
  | c =>
    if c.toNat < 0x20 then
      ['\\', 'u', '0', '0', (c.toNat / 16).digitChar, (c.toNat % 16).digitChar]
    else [c]

/-- A quoted text. -/
def quote (s : String) : String := "\"" ++ String.ofList (s.toList.flatMap escapeChar) ++ "\""

/-- A line break and the indentation of a level. -/
def breakLine (level : Nat) : String := "\n" ++ "".pushn ' ' (2 * level)

/-- Items between brackets, each on a line of its own; nothing between the brackets if there is no
item. -/
def enclose (opening closing : String) (level : Nat) (items : List String) : String :=
  if items.isEmpty then opening ++ closing
  else
    opening ++ ",".intercalate (items.map (breakLine (level + 1) ++ ·)) ++ breakLine level
      ++ closing

mutual

/-- The text of a value that stands at a level. -/
def prettyAt (level : Nat) : Json → String
  | .null => "null"
  | .bool true => "true"
  | .bool false => "false"
  | .num n => toString n
  | .str s => quote s
  | .arr items => enclose "[" "]" level (prettyItems (level + 1) items)
  | .obj fields => enclose "\x7b" "\x7d" level (prettyFields (level + 1) fields)

/-- The items of a list. -/
def prettyItems (level : Nat) : List Json → List String
  | [] => []
  | v :: vs => prettyAt level v :: prettyItems level vs

/-- The fields of an object, each with its key. -/
def prettyFields (level : Nat) : List (String × Json) → List String
  | [] => []
  | f :: fs => prettyField level f :: prettyFields level fs

/-- A field with its key. -/
def prettyField (level : Nat) : String × Json → String
  | (k, v) => quote k ++ ": " ++ prettyAt level v

end

/-- The indented text of a value. -/
def pretty (v : Json) : String := prettyAt 0 v

end Json

end FirewallConfig
