import FirewallConfig.CommandLine.Commands

/-!
# Main — the program

Performs the script of the arguments on the files of the machine.
-/

namespace FirewallConfig

/-- What went wrong with a file. -/
def FileError.ofIO : IO.Error → FileError
  | .noFileOrDirectory .. => .missing
  | .inappropriateType _ 20 _ => .notDirectory
  | .inappropriateType _ 21 _ => .directory
  | .invalidArgument _ 36 _ => .nameTooLong
  | e => .other (toString e)

/-- Where a path leads. -/
def locateFile (path : String) : IO Place := do
  try
    return Path.names (← IO.FS.realPath path).toString
  catch _ =>
    return Path.unresolved (Path.names (← IO.currentDir).toString) path

/-- The text of a file. -/
def readText (path : String) : IO (Except FileError String) := do
  try
    let bytes ← IO.FS.withFile path .read fun h => h.readBinToEnd
    return (String.fromUTF8? bytes).elim (.error .notText) .ok
  catch e => return .error (.ofIO e)

/-- Writes a file. -/
def writeText (path text : String) : IO (Option FileError) := do
  try
    IO.FS.writeFile path text
    return none
  catch e => return some (.ofIO e)

/-- Performs a script. -/
def Script.perform : Script → IO Status
  | .finish status => return status
  | .print text next => do
    (← IO.getStdout).putStr text
    next.perform
  | .remark text next => do
    (← IO.getStderr).putStr text
    next.perform
  | .locate path next => do (next (← locateFile path)).perform
  | .read path next => do (next (← readText path)).perform
  | .write path text next => do (next (← writeText path text)).perform

/-- How the program is called. -/
def usage : String := Text.unlines
  ["usage:",
   "  convert INPUT --from ID --to ID [-o OUTPUT] [--format text|json] [--matrix-file FILE]" ++
     " [--strict-references]",
   "  vendors [--format text|json] [--matrix-file FILE]",
   "  targets ID [--format text|json] [--matrix-file FILE]",
   "  inspect INPUT --from ID [--format text|json]",
   "  check INPUT --from ID [--format text|json] [--strict]"]

end FirewallConfig

open FirewallConfig in
/-- Runs the command that the arguments name, and tells how the program is called if they name
none. -/
def main (args : List String) : IO UInt32 := do
  let status ← (Command.scriptOf args).perform
  if status = .usage then IO.eprint usage
  return status.code.toUInt32
