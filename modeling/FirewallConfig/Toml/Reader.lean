import FirewallConfig.Toml.Quoted
import FirewallConfig.Toml.Scalar

/-!
# Toml/Reader — reading a document

A document is a run of lines: headers, keys with values, comments and empty lines.  A list may run
over several lines, an inline table may not.  Keys have at most `mostParts` parts, and values are at
most `deepest` levels deep.
-/

namespace FirewallConfig.Toml

/-! ## Blanks, comments and ends of lines -/

/-- Drops blanks, ends of lines and comments.  A comment that holds a control character ends there,
and so nothing can follow it. -/
def dropSpace (inComment : Bool) : List Char → List Char
  | [] => []
  | '\r' :: '\n' :: cs => dropSpace false cs
  | c :: cs =>
    if c = '\n' then dropSpace false cs
    else if inComment then if isPlain c then dropSpace true cs else c :: cs
    else if isTabOrSpace c then dropSpace false cs
    else if c = '#' then dropSpace true cs
    else c :: cs

/-- Drops a comment up to the end of its line. -/
def dropComment : List Char → List Char
  | '#' :: cs => cs.dropWhile isPlain
  | cs => cs

/-- Passes the end of a line, or of the text, with the blanks and the comment before it. -/
def endLine (cs : List Char) : Option (List Char) :=
  match dropComment (dropBlanks cs) with
  | [] => some []
  | '\n' :: cs => some cs
  | '\r' :: '\n' :: cs => some cs
  | _ => none

/-! ## Keys -/

/-- The character may stand in a key without quotes. -/
def isKeyChar (c : Char) : Bool := c.isAlphanum || c == '_' || c == '-'

/-- Takes one part of a key off. -/
def takeKeyPart (cs : List Char) : Option (String × List Char) :=
  match cs.takeWhile isKeyChar with
  | [] => takeShort cs
  | part => some (String.ofList part, cs.dropWhile isKeyChar)

/-- Takes a key of at most so many parts off, which have points between them: the parts before the
last one, and the last one. -/
def takeParts (parts : Nat) (cs : List Char) : Option (List String × String × List Char) :=
  match parts with
  | 0 => none
  | parts + 1 =>
    match takeKeyPart (dropBlanks cs) with
    | none => none
    | some (part, rest) =>
      match dropBlanks rest with
      | '.' :: rest =>
        (takeParts parts rest).map fun (path, key, rest) => (part :: path, key, rest)
      | rest => some ([], part, rest)

/-- The number of parts that a key may have. -/
def mostParts : Nat := 79

/-- Takes a key off: its parts before the last one, and the last one. -/
def takeKey (cs : List Char) : Option (List String × String × List Char) := takeParts mostParts cs

/-! ## Values -/

mutual

/-- Takes a value off, in which so many levels of lists and inline tables may be opened.  Every step
of reading one costs fuel. -/
def takeValue (fuel levels : Nat) (cs : List Char) : Option (Value × List Char) :=
  match fuel with
  | 0 => none
  | fuel + 1 =>
    match levels, cs with
    | 0, '[' :: _ | 0, '\x7b' :: _ => none
    | levels + 1, '[' :: cs => takeItems fuel levels [] (dropSpace false cs)
    | levels + 1, '\x7b' :: cs =>
      match dropBlanks cs with
      | '\x7d' :: rest => some (.table .inline [], rest)
      | cs => takeFields fuel levels [] cs
    | _, '"' :: _ | _, '\'' :: _ => (takeText cs).map fun (s, rest) => (.text s, rest)
    | _, cs => takeScalar cs

/-- Takes the rest of a list off; a comma may follow the last item. -/
def takeItems (fuel levels : Nat) (items : List Value) (cs : List Char) :
    Option (Value × List Char) :=
  match fuel with
  | 0 => none
  | fuel + 1 =>
    match cs with
    | ']' :: rest => some (.list items, rest)
    | cs =>
      match takeValue fuel levels cs with
      | none => none
      | some (v, rest) =>
        match dropSpace false rest with
        | ',' :: rest => takeItems fuel levels (items ++ [v]) (dropSpace false rest)
        | ']' :: rest => some (.list (items ++ [v]), rest)
        | _ => none

/-- Takes the rest of an inline table off; a field must come next. -/
def takeFields (fuel levels : Nat) (fields : Fields) (cs : List Char) :
    Option (Value × List Char) :=
  match fuel with
  | 0 => none
  | fuel + 1 =>
    match takeKey cs with
    | some (path, key, '=' :: rest) =>
      match takeValue fuel levels (dropBlanks rest) with
      | none => none
      | some (v, rest) =>
        match putField path key v fields, dropBlanks rest with
        | some fields, ',' :: rest => takeFields fuel levels fields rest
        | some fields, '\x7d' :: rest => some (.table .inline fields, rest)
        | _, _ => none
    | _ => none

end

/-- The number of lists and inline tables that may stand inside each other. -/
def deepest : Nat := 79

/-! ## Lines -/

/-- What has been read so far: the document, and the path of the table that fields go to. -/
structure Reading where
  fields : Fields := []
  path : List String := []

/-- Takes a field in. -/
def Reading.put (r : Reading) (path : List String) (key : String) (v : Value) : Option Reading :=
  (descend r.path (putField path key v) r.fields).map fun fields => { r with fields }

/-- Takes the first line in, which is not empty.  Gives what follows it. -/
def Reading.line (r : Reading) (cs : List Char) : Option (Reading × List Char) :=
  match cs with
  | '[' :: '[' :: cs =>
    match takeKey cs with
    | some (path, key, ']' :: ']' :: rest) =>
      match openRow path key r.fields, endLine rest with
      | some fields, some rest => some ({ fields, path := path ++ [key] }, rest)
      | _, _ => none
    | _ => none
  | '[' :: cs =>
    match takeKey cs with
    | some (path, key, ']' :: rest) =>
      match openTable path key r.fields, endLine rest with
      | some fields, some rest => some ({ fields, path := path ++ [key] }, rest)
      | _, _ => none
    | _ => none
  | cs =>
    match takeKey cs with
    | some (path, key, '=' :: rest) =>
      match takeValue (rest.length + 1) deepest (dropBlanks rest) with
      | some (v, rest) =>
        match r.put path key v, endLine rest with
        | some r, some rest => some (r, rest)
        | _, _ => none
      | none => none
    | _ => none

/-- Takes every line in, at most `fuel` of them. -/
def Reading.run (fuel : Nat) (r : Reading) (cs : List Char) : Option Fields :=
  match fuel with
  | 0 => none
  | fuel + 1 =>
    match dropSpace false cs with
    | [] => some r.fields
    | cs =>
      match r.line cs with
      | some (r, rest) => r.run fuel rest
      | none => none

/-- Drops the mark that may stand before a document. -/
def dropMark : List Char → List Char
  | '\uFEFF' :: cs => cs
  | cs => cs

/-- The fields of a document; `none` if the text is none. -/
def read (s : String) : Option Fields :=
  let cs := dropMark s.toList
  Reading.run (cs.length + 1) {} cs

end FirewallConfig.Toml
