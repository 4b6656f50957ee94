import FirewallConfig.CommandLine.FileTree
import FirewallConfig.Text.Control
import FirewallConfig.Text.Cut
import FirewallConfig.Text.Lines

/-!
# CommandLine/Script — what a command does, step by step

A script prints, looks at files and writes them, and ends with a status; how it goes on depends on
nothing but the answers it gets.  `Script.run` says what a script does to a tree of files.
-/

namespace FirewallConfig

/-- How a run ended. -/
inductive Status where
  | success
  | failure
  /-- The arguments were refused. -/
  | usage
deriving DecidableEq, Repr

/-- The exit code. -/
def Status.code : Status → Nat
  | .success => 0
  | .failure => 1
  | .usage => 2

/-- What is to be done, up to the end. -/
inductive Script where
  | finish (status : Status)
  /-- Prints a text on the output. -/
  | print (text : String) (next : Script)
  /-- Prints a text where errors go. -/
  | remark (text : String) (next : Script)
  /-- Asks where a path leads. -/
  | locate (path : String) (next : Place → Script)
  /-- Reads a file. -/
  | read (path : String) (next : Except FileError String → Script)
  /-- Writes a file, and learns what went wrong if something did. -/
  | write (path text : String) (next : Option FileError → Script)

/-- What a run leaves behind. -/
structure Run where
  status : Status
  output : String
  remarks : String
  tree : FileTree

namespace Script

/-- Runs a script on a tree. -/
def run : Script → FileTree → Run
  | .finish status, t => { status, output := "", remarks := "", tree := t }
  | .print text next, t =>
    let r := next.run t
    { r with output := text ++ r.output }
  | .remark text next, t =>
    let r := next.run t
    { r with remarks := text ++ r.remarks }
  | .locate path next, t => (next (t.locate path)).run t
  | .read path next, t => (next (t.read path)).run t
  | .write path text next, t =>
    match t.write path text with
    | .ok t => (next none).run t
    | .error e => (next (some e)).run t

/-- Prints a line on the output. -/
def printLine (text : String) (next : Script) : Script := .print (text ++ "\n") next

/-- Prints a warning with its details, each under its name.  What would steer a terminal is spelled
out in the message; details are given as they are. -/
def warn (message : String) (details : List (String × String)) (next : Script) : Script :=
  let details := details.map fun (name, value) => s!"{name}={value}"
  .remark (Text.unwords ("WARN" :: Text.spellControls message :: details) ++ "\n") next

/-! ## Failing -/

/-- A cause after its label; further lines of it are indented as far. -/
def labelled (label cause : String) : String :=
  let indent := "\n" ++ "".pushn ' ' label.length
  label ++ indent.intercalate (Text.pieces '\n' cause)

/-- The causes of an error, each on a line of its own; several are numbered. -/
def causeLines : List String → List String
  | [] => []
  | [cause] => [labelled "    " cause]
  | causes => causes.zipIdx.map fun (cause, k) =>
    let number := toString k
    labelled ("".pushn ' ' (5 - number.length) ++ number ++ ": ") cause

/-- The text of an error and of what caused it. -/
def errorText (message : String) (causes : List String) : String :=
  let lines := if causes.isEmpty then [] else "" :: "Caused by:" :: causeLines causes
  Text.unlines (("Error: " ++ message) :: lines)

/-- Tells of an error and ends. -/
def fail (message : String) (causes : List String) : Script :=
  .remark (errorText message causes) (.finish .failure)

/-- Goes on with the text of a file, or tells why it cannot be read. -/
def withText (path : String) (next : String → Script) : Script :=
  .read path fun
    | .ok text => next text
    | .error e => fail s!"failed to read {path}" [e.message]

end Script

end FirewallConfig
