import FirewallConfig.Text.Cut
import FirewallConfig.Xml.Entity

/-!
# PanOs/Markup — what one line of the document shows

A configuration is read line by line, one element a line, and every function here looks at a line
without the blanks at its ends.
-/

namespace FirewallConfig.PanOs

/-- The opening tag of an element without attributes. -/
def openTag (tag : String) : String := "<" ++ tag ++ ">"

/-- The closing tag of an element. -/
def closeTag (tag : String) : String := "</" ++ tag ++ ">"

/-- The tag of an element without attributes and content. -/
def emptyTag (tag : String) : String := "<" ++ tag ++ "/>"

/-- What an opening tag of an entry begins with. -/
def entryHead : String := "<entry "

/-- The name of the entry that a line opens. -/
def entryName (line : String) : Option String :=
  (Text.withoutPrefix entryHead (Text.trim line)).bind fun attributes =>
    (Text.cutAt "name=\"" attributes).bind fun (_, value) =>
      (Text.cut '"' value).map fun (name, _) => Xml.unescape name

/-- The text of an element that is all on one line. -/
def leafText (tag line : String) : Option String :=
  ((Text.withoutPrefix (openTag tag) line).bind (Text.withoutSuffix (closeTag tag))).map
    Xml.unescape

/-- The line is an entry that is complete in one tag. -/
def isSelfClosed (line : String) : Bool := Text.endsIn "/>" line

/-- How many entries the line opens and leaves open. -/
def opens (line : String) : Nat :=
  Text.occurrences entryHead line
    - (if isSelfClosed line && Text.beginsWith entryHead line then 1 else 0)

/-- How many entries the line closes. -/
def closes (line : String) : Nat := Text.occurrences (closeTag "entry") line

/-- How many entries are open after the line, `depth` being open before it. -/
def depthAfter (depth : Nat) (line : String) : Nat := depth + opens line - closes line

/-- The line begins with the opening tag. -/
def opensWith (tag line : String) : Bool := Text.beginsWith (openTag tag) line

/-- The members that stand on one line. -/
def inlineMembers (line : String) : List String :=
  (Text.piecesAt (openTag "member") line).tail.filterMap fun piece =>
    (Text.cutAt (closeTag "member") piece).map fun (value, _) => Xml.unescape value

/-- The members on the lines up to the first one that is no member. -/
def leadingMembers : List String → List String
  | [] => []
  | line :: lines =>
    match leafText "member" line with
    | some value => value :: leadingMembers lines
    | none => []

end FirewallConfig.PanOs
