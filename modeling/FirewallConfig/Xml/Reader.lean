import FirewallConfig.Xml.Token

/-!
# Xml/Reader — reading a document

The pieces of a document are taken in one after the other, with a stack of the elements that are
open.  Text outside the root, and text of nothing but blanks, is dropped; the runs of text of an
element are joined, wherever its children stand.
-/

namespace FirewallConfig.Xml

namespace ReadError

/-- The document as a whole is at fault, and not its markup. -/
def isStructural : ReadError → Bool
  | .notClosed _ | .noRoot | .secondRoot => true
  | .badMarkup | .badAttribute | .badReference | .unmatchedTag => false

/-- What is said of a text that is no document. -/
def message : ReadError → String
  | .badMarkup => "failed to parse XML: markup is not finished"
  | .badAttribute => "failed to parse XML: attribute is not well formed"
  | .badReference => "failed to parse XML: reference to no known character"
  | .unmatchedTag => "failed to parse XML: closing tag does not match"
  | .notClosed tag => s!"malformed XML: element <{tag}> is not closed"
  | .noRoot => "malformed XML: document has no root element"
  | .secondRoot => "malformed XML: more than one top-level element"

end ReadError

/-- What has been read so far: the elements that are open, innermost first, and the root, if it is
complete. -/
structure Reading where
  stack : List Node := []
  root : Option Node := none

namespace Reading

/-- Takes in a complete element. -/
def attach (r : Reading) (n : Node) : Except ReadError Reading :=
  match r.stack with
  | top :: below => .ok { r with stack := top.push n :: below }
  | [] => if r.root.isSome then .error .secondRoot else .ok { r with root := some n }

/-- Adds text to the innermost open element. -/
def addText (r : Reading) (s : String) : Reading :=
  match r.stack with
  | top :: below => { r with stack := { top with text := some (top.text.getD "" ++ s) } :: below }
  | [] => r

/-- Closes the innermost open element. -/
def close (r : Reading) (tag : String) : Except ReadError Reading :=
  match r.stack with
  | top :: below =>
    if top.tag == tag then attach { r with stack := below } top else .error .unmatchedTag
  | [] => .error .unmatchedTag

/-- Takes in a piece. -/
def step (r : Reading) : Token → Except ReadError Reading
  | .opening tag attributes => .ok { r with stack := { tag, attributes } :: r.stack }
  | .empty tag attributes => r.attach { tag, attributes }
  | .closing tag => r.close tag
  | .text s => .ok (if Text.isAllBlank s then r else r.addText s)
  | .ignored => .ok r

/-- Takes in every piece of a document. -/
def run (r : Reading) (cs : List Char) : Except ReadError Reading :=
  match _h : Token.next cs with
  | .error e => .error e
  | .ok none => .ok r
  | .ok (some (t, rest)) =>
    match r.step t with
    | .error e => .error e
    | .ok r => run r rest
termination_by cs.length
decreasing_by exact Token.length_next _h

/-- The root, once the text has ended. -/
def finish (r : Reading) : Except ReadError Node :=
  match r.stack, r.root with
  | top :: _, _ => .error (.notClosed top.tag)
  | [], some root => .ok root
  | [], none => .error .noRoot

end Reading

/-- The mark that may stand before a document and is no part of it. -/
def byteOrderMark : Char := '\uFEFF'

/-- Drops the mark that may stand before a document. -/
def dropMark : List Char → List Char
  | c :: cs => if c = byteOrderMark then cs else c :: cs
  | [] => []

/-- Reads a document. -/
def read (s : String) : Except ReadError Node :=
  (Reading.run {} (dropMark s.toList)).bind Reading.finish

end FirewallConfig.Xml
