import FirewallConfig.Text.Cut

/-!
# CommandLine/FileTree — files in directories, and the paths that lead to them

A tree holds regular files; its directories are those that files, and the working directory, stand
in.  A path is walked step by step from the working directory, or from the root if it begins with a
slash, and every place that it passes must be a directory.
-/

namespace FirewallConfig

/-- Why a file cannot be read or written. -/
inductive FileError where
  | missing
  | directory
  /-- Something on the way to the file is no directory. -/
  | notDirectory
  /-- The path, or a name on it, has more bytes than the system takes. -/
  | nameTooLong
  /-- What the file holds is no text. -/
  | notText
  | other (reason : String)
deriving DecidableEq, Repr

/-- What is said of the error. -/
def FileError.message : FileError → String
  | .missing => "No such file or directory (os error 2)"
  | .directory => "Is a directory (os error 21)"
  | .notDirectory => "Not a directory (os error 20)"
  | .nameTooLong => "File name too long (os error 36)"
  | .notText => "stream did not contain valid UTF-8"
  | .other reason => reason

/-- A place in a tree: the names from the root down to it. -/
abbrev Place := List String

namespace Path

/-- The names on a path.  A slash more or less between two of them does not count. -/
def names (path : String) : List String := (Text.pieces '/' path).filter (· ≠ "")

/-- The number of bytes that a name on a path may have. -/
def longestName : Nat := 255

/-- The number of bytes that a path may have. -/
def longest : Nat := 4095

/-- The path starts at the root. -/
def isAbsolute (path : String) : Bool := Text.beginsWith "/" path

/-- The path can only lead to a directory. -/
def endsInSlash (path : String) : Bool := Text.endsIn "/" path

/-- The place of a path where there is nothing: `..` is not followed. -/
def unresolved (workingDirectory : Place) (path : String) : Place :=
  (if isAbsolute path then [] else workingDirectory) ++ (names path).filter (· ≠ ".")

/-- What follows the last point of a path's last name, if something stands before it. -/
def extension? (path : String) : Option String :=
  ((names path).filter (· ≠ ".")).getLast?.bind fun name =>
    match Chars.cut '.' name.toList.reverse with
    | some (_, []) | none => none
    | some (after, _) => some (String.ofList after.reverse)

end Path

/-- Regular files at their places, and the place where relative paths start. -/
structure FileTree where
  workingDirectory : Place
  files : List (Place × ByteArray)

namespace FileTree

/-- What the file at a place holds. -/
def file? (t : FileTree) (p : Place) : Option ByteArray :=
  (t.files.find? (·.1 == p)).map Prod.snd

/-- A file, or the working directory, stands in the place. -/
def isDirectory (t : FileTree) (p : Place) : Bool :=
  p.isPrefixOf t.workingDirectory || t.files.any fun f => p.isPrefixOf f.1.dropLast

/-- Goes one step from a place, which must be a directory. -/
def step (t : FileTree) (p : Place) (name : String) : Except FileError Place :=
  if (t.file? p).isSome then .error .notDirectory
  else if !t.isDirectory p then .error .missing
  else if name = "." then .ok p
  else if name = ".." then .ok p.dropLast
  else if name.utf8ByteSize > Path.longestName then .error .nameTooLong
  else .ok (p ++ [name])

/-- Walks along some names.  There may be nothing at the last one. -/
def walk (t : FileTree) (start : Place) (names : List String) : Except FileError Place :=
  names.foldlM t.step start

/-- The place that a path leads to, whether or not something is there. -/
def resolve (t : FileTree) (path : String) : Except FileError Place :=
  if path.utf8ByteSize > Path.longest then .error .nameTooLong
  else t.walk (if Path.isAbsolute path then [] else t.workingDirectory) (Path.names path)

/-- The place that a path leads to, which must be a directory if the path ends in a slash. -/
def resolveStrictly (t : FileTree) (path : String) : Except FileError Place := do
  let p ← t.resolve path
  if Path.endsInSlash path then t.step p "." else return p

/-- The text of the file that a path leads to. -/
def read (t : FileTree) (path : String) : Except FileError String := do
  let p ← t.resolveStrictly path
  match t.file? p with
  | some bytes => (String.fromUTF8? bytes).elim (.error .notText) .ok
  | none => .error (if t.isDirectory p then .directory else .missing)

/-- Puts a file at a place. -/
def put (p : Place) (bytes : ByteArray) : List (Place × ByteArray) → List (Place × ByteArray)
  | [] => [(p, bytes)]
  | f :: fs => if f.1 = p then (p, bytes) :: fs else f :: put p bytes fs

/-- Writes the file that a path leads to, and makes it if it is not there. -/
def write (t : FileTree) (path text : String) : Except FileError FileTree := do
  let p ← t.resolve path
  if Path.endsInSlash path || t.isDirectory p then .error .directory
  else return { t with files := put p text.toUTF8 t.files }

/-- Where a path leads: the place itself if something is there, and else the path as it is
written. -/
def locate (t : FileTree) (path : String) : Place :=
  match t.resolveStrictly path with
  | .ok p =>
    if (t.file? p).isSome || t.isDirectory p then p else Path.unresolved t.workingDirectory path
  | .error _ => Path.unresolved t.workingDirectory path

end FileTree

end FirewallConfig
