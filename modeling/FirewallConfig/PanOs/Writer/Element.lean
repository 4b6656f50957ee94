import FirewallConfig.Xml.Node

/-!
# PanOs/Writer/Element — the shapes of elements that the document is made of
-/

namespace FirewallConfig.PanOs

open Xml (Node)

/-- An entry of a name. -/
def entry (name : String) (children : List Node) : Node :=
  (Node.branch "entry" children).withAttribute "name" name

/-- An element that holds a text, if there is one. -/
def leaf? (tag : String) (text : Option String) : List Node := text.toList.map (Node.leaf tag)

/-- A list of members. -/
def memberList (tag : String) (members : List String) : Node :=
  .branch tag (members.map (Node.leaf "member"))

/-- An element of some children; nothing if there are none. -/
def branch? (tag : String) (children : List Node) : List Node :=
  if children.isEmpty then [] else [.branch tag children]

/-- An element inside an element, and so on, with the children in the innermost one. -/
def nested (tag : String) (tags : List String) (children : List Node) : Node :=
  match tags with
  | [] => .branch tag children
  | next :: rest => .branch tag [nested next rest children]

end FirewallConfig.PanOs
