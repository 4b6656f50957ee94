import FirewallConfig.Text.Cut

/-!
# CommandLine/Arguments — commands and the arguments that name them

Options may stand anywhere after the name of their command, and each may be given once.  A value
follows its option, or is attached to it by an equals sign; it may begin with a dash only if it is
attached.  Two dashes end the options.
-/

namespace FirewallConfig

/-- How results are shown. -/
inductive Format where
  | text
  | json
deriving DecidableEq, Repr

/-- The format of a name. -/
def Format.ofText? : String → Option Format
  | "text" => some .text
  | "json" => some .json
  | _ => none

/-- Converts a file, and writes the result to another one or prints it. -/
structure ConvertCommand where
  input : String
  source : String
  target : String
  output? : Option String := none
  format : Format := .text
  matrix? : Option String := none
  strict : Bool := false
deriving DecidableEq, Repr

/-- Lists the vendors. -/
structure VendorsCommand where
  format : Format := .text
  matrix? : Option String := none
deriving DecidableEq, Repr

/-- Lists the targets of a source. -/
structure TargetsCommand where
  source : String
  format : Format := .text
  matrix? : Option String := none
deriving DecidableEq, Repr

/-- Shows what a file holds. -/
structure InspectCommand where
  input : String
  source : String
  format : Format := .text
deriving DecidableEq, Repr

/-- Looks for references in a file that lead nowhere. -/
structure CheckCommand where
  input : String
  source : String
  format : Format := .text
  strict : Bool := false
deriving DecidableEq, Repr

/-- A command with its arguments. -/
inductive Command where
  | convert (c : ConvertCommand)
  | vendors (c : VendorsCommand)
  | targets (c : TargetsCommand)
  | inspect (c : InspectCommand)
  | check (c : CheckCommand)
deriving DecidableEq, Repr

/-! ## Scanning -/

/-- The options of a command: those that take a value and those that do not. -/
structure Grammar where
  valued : List String := []
  flags : List String := []

/-- What one argument says. -/
inductive Item where
  /-- Asks for more log lines, of which there are none. -/
  | verbose
  /-- Ends the options. -/
  | stop
  | flag (name : String)
  | valued (name : String) (value? : Option String)
  | operand (text : String)
deriving DecidableEq, Repr

namespace Grammar

/-- Reads letters after a dash.  What follows the letter of an option is its value. -/
def letters? (g : Grammar) : List Char → Option Item
  | [] => some .verbose
  | 'v' :: cs => g.letters? cs
  | 'o' :: cs =>
    if "output" ∈ g.valued then
      some (.valued "output" (match cs with
        | [] => none
        | '=' :: cs | cs => some (String.ofList cs)))
    else none
  | _ => none

/-- Reads a name after two dashes, perhaps with a value attached. -/
def named? (g : Grammar) (name : String) (value? : Option String) : Option Item :=
  if name ∈ g.valued then some (.valued name value?)
  else if value?.isSome then none
  else if name = "verbose" then some .verbose
  else if name ∈ g.flags then some (.flag name)
  else none

/-- Reads one argument. -/
def item? (g : Grammar) (arg : String) : Option Item :=
  match arg.toList with
  | ['-', '-'] => some .stop
  | '-' :: '-' :: cs =>
    match Chars.cut '=' cs with
    | some (name, value) => g.named? (String.ofList name) (some (String.ofList value))
    | none => g.named? (String.ofList cs) none
  | '-' :: c :: cs => g.letters? (c :: cs)
  | _ => some (.operand arg)

end Grammar

/-- What the arguments of a command say. -/
structure Scan where
  values : List (String × String) := []
  flags : List String := []
  operands : List String := []

namespace Scan

/-- The value of an option. -/
def value? (s : Scan) (name : String) : Option String :=
  (s.values.find? (·.1 == name)).map Prod.snd

/-- Gives an option a value, unless it has one. -/
def put (s : Scan) (name value : String) : Option Scan :=
  if (s.value? name).isSome then none else some { s with values := s.values ++ [(name, value)] }

/-- Sets a flag, unless it is set. -/
def set (s : Scan) (name : String) : Option Scan :=
  if name ∈ s.flags then none else some { s with flags := s.flags ++ [name] }

end Scan

/-- The argument looks like an option, and so it is no value. -/
def looksLikeOption (arg : String) : Bool := Text.beginsWith "-" arg && arg != "-"

/-- Reads the arguments of a command. -/
def Grammar.scan (g : Grammar) (s : Scan) : List String → Option Scan
  | [] => some s
  | arg :: rest =>
    match g.item? arg with
    | none => none
    | some .verbose => g.scan s rest
    | some .stop => some { s with operands := s.operands ++ rest }
    | some (.operand text) => g.scan { s with operands := s.operands ++ [text] } rest
    | some (.flag name) =>
      match s.set name with
      | some s => g.scan s rest
      | none => none
    | some (.valued name (some value)) =>
      match s.put name value with
      | some s => g.scan s rest
      | none => none
    | some (.valued name none) =>
      match rest with
      | [] => none
      | value :: rest =>
        if looksLikeOption value then none
        else
          match s.put name value with
          | some s => g.scan s rest
          | none => none

/-! ## From what was scanned to a command -/

/-- A path is not empty. -/
def path? (s : String) : Option String := if s.isEmpty then none else some s

namespace Scan

/-- The format; `none` if there is no format of the name. -/
def format? (s : Scan) : Option Format := (s.value? "format").elim (some .text) Format.ofText?

/-- The path that an option gives, if it is given; `none` if it is empty. -/
def optionalPath? (s : Scan) (name : String) : Option (Option String) :=
  match s.value? name with
  | some p => (path? p).map some
  | none => some none

/-- The only operand. -/
def operand? (s : Scan) : Option String :=
  match s.operands with
  | [text] => some text
  | _ => none

/-- The only operand, which is a path. -/
def input? (s : Scan) : Option String := s.operand?.bind path?

end Scan

/-- The arguments of a conversion, of which the vendors and the input must be there. -/
def ConvertCommand.ofArguments? (args : List String) : Option ConvertCommand := do
  let s ← Grammar.scan ⟨["from", "to", "output", "format", "matrix-file"], ["strict-references"]⟩
    {} args
  return { input := ← s.input?, source := ← s.value? "from", target := ← s.value? "to"
           output? := ← s.optionalPath? "output", format := ← s.format?
           matrix? := ← s.optionalPath? "matrix-file"
           strict := "strict-references" ∈ s.flags }

/-- The arguments of a list of vendors, which takes no operand. -/
def VendorsCommand.ofArguments? (args : List String) : Option VendorsCommand := do
  let s ← Grammar.scan ⟨["format", "matrix-file"], []⟩ {} args
  if s.operands.isEmpty then
    return { format := ← s.format?, matrix? := ← s.optionalPath? "matrix-file" }
  else none

/-- The arguments of a list of targets, whose operand is the source. -/
def TargetsCommand.ofArguments? (args : List String) : Option TargetsCommand := do
  let s ← Grammar.scan ⟨["format", "matrix-file"], []⟩ {} args
  return { source := ← s.operand?, format := ← s.format?
           matrix? := ← s.optionalPath? "matrix-file" }

/-- The arguments of an inspection. -/
def InspectCommand.ofArguments? (args : List String) : Option InspectCommand := do
  let s ← Grammar.scan ⟨["from", "format"], []⟩ {} args
  return { input := ← s.input?, source := ← s.value? "from", format := ← s.format? }

/-- The arguments of a check. -/
def CheckCommand.ofArguments? (args : List String) : Option CheckCommand := do
  let s ← Grammar.scan ⟨["from", "format"], ["strict"]⟩ {} args
  return { input := ← s.input?, source := ← s.value? "from", format := ← s.format?
           strict := "strict" ∈ s.flags }

namespace Command

/-- The command of a name with its arguments. -/
def named? (name : String) (args : List String) : Option Command :=
  match name with
  | "convert" => (ConvertCommand.ofArguments? args).map .convert
  | "vendors" => (VendorsCommand.ofArguments? args).map .vendors
  | "targets" => (TargetsCommand.ofArguments? args).map .targets
  | "inspect" => (InspectCommand.ofArguments? args).map .inspect
  | "check" => (CheckCommand.ofArguments? args).map .check
  | _ => none

/-- The command that the arguments of the program name; `none` if they are refused. -/
def ofArguments? : List String → Option Command
  | [] => none
  | arg :: rest =>
    match Grammar.item? {} arg with
    | some .verbose => ofArguments? rest
    | some (.operand name) => named? name rest
    | _ => none

end Command

end FirewallConfig
