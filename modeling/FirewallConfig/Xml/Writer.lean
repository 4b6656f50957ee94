import FirewallConfig.Text.Cut
import FirewallConfig.Xml.Entity
import FirewallConfig.Xml.Node

/-!
# Xml/Writer — writing a document

Every element begins a line, indented by two blanks a level, unless text stands right before it; the
same holds of closing tags.  An element without children and text is one tag.
-/

namespace FirewallConfig.Xml

/-- The start of a line of a nesting level; nothing where the line goes on. -/
def lineStart (begins : Bool) (level : Nat) : String :=
  if begins then "\n" ++ "".pushn ' ' (2 * level) else ""

/-- A tag with its attributes, without the brackets. -/
def tagText (tag : String) (attributes : Attributes) : String :=
  tag ++ String.join (attributes.entries.map fun (key, value) =>
    " " ++ key ++ "=\"" ++ escape value ++ "\"")

mutual

/-- The text of an element that stands at a level and begins a line or goes on with one. -/
def Node.write (begins : Bool) (level : Nat) : Node → String
  | ⟨tag, attributes, children, text⟩ =>
    let start := lineStart begins level ++ "<" ++ tagText tag attributes
    if children.isEmpty && text.isNone then start ++ "/>"
    else
      start ++ ">" ++ escape (text.getD "") ++ writeChildren text.isNone (level + 1) children
        ++ lineStart (text.isNone || !children.isEmpty) level ++ "</" ++ tag ++ ">"

/-- The text of elements side by side, of which the first one begins a line or goes on with one. -/
def writeChildren (begins : Bool) (level : Nat) : List Node → String
  | [] => ""
  | n :: ns => n.write begins level ++ writeChildren true level ns

end

/-- The characters of a comment: two dashes side by side are moved apart, from the left, and no
dash stands at the end. -/
def sanitize (comment : String) : String :=
  let apart := "- -".intercalate (Text.piecesAt "--" comment)
  if Text.endsIn "-" apart then apart ++ " " else apart

/-- The line that a document begins with. -/
def declaration : String := "<?xml version=\"1.0\" encoding=\"UTF-8\"?>"

/-- The text of a document, with a comment before its root. -/
def document (root : Node) (comment : Option String) : String :=
  declaration
    ++ String.join (comment.toList.map fun c => "\n<!-- " ++ sanitize c ++ " -->")
    ++ root.write true 0 ++ "\n"

end FirewallConfig.Xml
