import FirewallConfig.PanOs.Markup

/-!
# PanOs/Block — the lines of one entry

A `Block` is an entry with everything in it.  Each line knows its depth, so that what belongs to
the entry itself can be told from what belongs to the entries inside it.
-/

namespace FirewallConfig.PanOs

/-- A line with its depth: 1 stands for the entry's own content. -/
structure DeepLine where
  depth : Nat
  text : String
deriving DecidableEq, Repr

/-- The lines with their depths, `depth` entries being open before them.  A line that opens or
closes an entry has the depth of the entry's content. -/
def deepLines (depth : Nat) : List String → List DeepLine
  | [] => []
  | line :: lines =>
    let after := depthAfter depth line
    ⟨max depth after, line⟩ :: deepLines after lines

/-- An entry: its name and all of its lines, the line that opens it first. -/
structure Block where
  name : Option String
  lines : List DeepLine
deriving DecidableEq, Repr

namespace Block

/-- The entry that some lines make up. -/
def ofLines (lines : List String) : Block where
  name := lines.head?.bind entryName
  lines := deepLines 0 lines

/-- The lines that belong to the entry itself. -/
def own (b : Block) : List String :=
  (b.lines.tail.filter (·.depth == 1)).map (·.text)

/-- The text of the entry's own element of a tag. -/
def leaf (b : Block) (tag : String) : Option String := b.own.findSome? (leafText tag)

/-- The text of an element of a tag, at any depth. -/
def anyLeaf (b : Block) (tag : String) : Option String :=
  b.lines.findSome? fun l => leafText tag l.text

/-- An element of a tag stands in the entry, at any depth. -/
def hasTag (b : Block) (tag : String) : Bool :=
  b.lines.any fun l => opensWith tag l.text || l.text == emptyTag tag

/-- The members of the entry's own list of a tag: on the line that opens it, or on the lines right
after it. -/
def members (b : Block) (tag : String) : List String :=
  match b.lines.tail.dropWhile fun l => !(l.depth == 1 && opensWith tag l.text) with
  | [] => []
  | l :: rest =>
    if Text.holds (openTag "member") l.text then inlineMembers l.text
    else leadingMembers (rest.map (·.text))

/-- The name of the entry that follows an opening tag, on the same line or on the next one. -/
def entryAfter (b : Block) (tag : String) : Option String :=
  match b.lines.dropWhile fun l => !opensWith tag l.text with
  | [] => none
  | l :: rest =>
    ((Text.withoutPrefix (openTag tag) l.text).bind entryName).or
      (rest.head?.bind fun next => entryName next.text)

/-- The tags of the ways in which a zone may hold interfaces. -/
def zoneModes : List String := ["layer3", "layer2", "virtual-wire", "tap"]

/-- The members of a zone: the list right below its `network` element. -/
def zoneMembers (b : Block) : List String :=
  match b.lines.dropWhile fun l => l.text != openTag "network" with
  | _ :: mode :: rest =>
    if Text.holds (openTag "member") mode.text then inlineMembers mode.text
    else if zoneModes.any fun m => mode.text == openTag m then leadingMembers (rest.map (·.text))
    else []
  | _ => []

/-! ## Entries inside the entry -/

/-- The lines of the entry that is being collected once a line is through, back to front, and how
many entries are open in it.  If none was open, the line may open one. -/
def collected (opened : Option (List String × Nat)) (l : DeepLine) : Option (List String × Nat) :=
  match opened with
  | some (lines, depth) => some (l.text :: lines, depthAfter depth l.text)
  | none =>
    if 1 ≤ l.depth && (entryName l.text).isSome && !isSelfClosed l.text then
      some ([l.text], depthAfter 0 l.text)
    else none

/-- The blocks of lines of the entries that stand directly in some lines, `opened` being open before
them.  An entry goes on while something in it is open. -/
def childLines (opened : Option (List String × Nat)) : List DeepLine → List (List String)
  | [] =>
    match opened with
    | some (lines, _) => [lines.reverse]
    | none => []
  | l :: rest =>
    match collected opened l with
    | some (lines, depth) =>
      if depth = 0 then lines.reverse :: childLines none rest
      else childLines (some (lines, depth)) rest
    | none => childLines none rest

/-- The entries that stand directly in the entry; those that are complete in one tag do not
count. -/
def children (b : Block) : List Block := (childLines none b.lines.tail).map ofLines

end Block

end FirewallConfig.PanOs
