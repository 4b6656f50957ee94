import FirewallConfig.Keyed

/-!
# Xml/Node — elements

An element has a tag, attributes, child elements in order, and perhaps text.  The attributes are
kept in the order of their keys, each key once, so that equal elements have equal attributes.
-/

namespace FirewallConfig.Xml

/-! ## Attributes -/

/-- Puts a value in the place of a key, among entries in the order of their keys. -/
def putSorted (key value : String) : List (String × String) → List (String × String)
  | [] => [(key, value)]
  | (k, v) :: rest =>
    if key < k then (key, value) :: (k, v) :: rest
    else if key = k then (key, value) :: rest
    else (k, v) :: putSorted key value rest

theorem mem_putSorted {key value : String} {entries : List (String × String)}
    {e : String × String} (he : e ∈ putSorted key value entries) :
    e = (key, value) ∨ e ∈ entries := by
  induction entries with
  | nil => simpa [putSorted] using he
  | cons d rest ih =>
    obtain ⟨k, v⟩ := d
    rw [putSorted] at he
    split at he
    · simpa using he
    · split at he
      · rcases List.mem_cons.1 he with rfl | he
        · exact Or.inl rfl
        · exact Or.inr (List.mem_cons_of_mem _ he)
      · rcases List.mem_cons.1 he with rfl | he
        · exact Or.inr List.mem_cons_self
        · rcases ih he with rfl | he
          · exact Or.inl rfl
          · exact Or.inr (List.mem_cons_of_mem _ he)

/-- **Putting in a value keeps the order of the keys.** -/
theorem pairwise_putSorted (key value : String) {entries : List (String × String)}
    (h : entries.Pairwise (·.1 < ·.1)) : (putSorted key value entries).Pairwise (·.1 < ·.1) := by
  induction entries with
  | nil => simp [putSorted]
  | cons d rest ih =>
    obtain ⟨k, v⟩ := d
    obtain ⟨hd, hrest⟩ := List.pairwise_cons.1 h
    rw [putSorted]
    split
    · next hlt =>
      refine List.pairwise_cons.2 ⟨fun e he => ?_, h⟩
      rcases List.mem_cons.1 he with rfl | he
      · exact hlt
      · exact String.lt_trans hlt (hd e he)
    · next hlt =>
      split
      · next heq => subst heq; exact List.pairwise_cons.2 ⟨hd, hrest⟩
      · next hne =>
        refine List.pairwise_cons.2 ⟨fun e he => ?_, ih hrest⟩
        rcases mem_putSorted he with rfl | he
        · exact Std.lt_of_le_of_ne (String.not_lt.1 hlt) (Ne.symm hne)
        · exact hd e he

/-- No attributes are in order. -/
theorem pairwise_nil : ([] : List (String × String)).Pairwise (·.1 < ·.1) := List.Pairwise.nil

/-- Attributes, in the order of their keys. -/
structure Attributes where
  entries : List (String × String) := []
  sorted : entries.Pairwise (·.1 < ·.1) := by
    first | exact FirewallConfig.Xml.pairwise_nil | simp

namespace Attributes

@[ext] theorem ext {a b : Attributes} (h : a.entries = b.entries) : a = b := by
  cases a; cases b; cases h; rfl

/-- The attributes with a value in the place of a key. -/
def put (a : Attributes) (key value : String) : Attributes where
  entries := putSorted key value a.entries
  sorted := pairwise_putSorted key value a.sorted

/-- The attributes of a list of keys and values, of which the last value of a key counts. -/
def ofList (entries : List (String × String)) : Attributes :=
  entries.foldl (fun a e => a.put e.1 e.2) {}

/-- The value of a key. -/
def get? (a : Attributes) (key : String) : Option String :=
  (a.entries.find? (·.1 == key)).map Prod.snd

end Attributes

/-! ## Elements -/

/-- An element.  Its text stands before its children. -/
structure Node where
  tag : String
  attributes : Attributes := {}
  children : List Node := []
  text : Option String := none

instance : Inhabited Node := ⟨{ tag := "" }⟩

namespace Node

/-- The element has neither children nor text. -/
def isEmpty (n : Node) : Bool := n.children.isEmpty && n.text.isNone

/-- The value of an attribute. -/
def attribute? (n : Node) (key : String) : Option String := n.attributes.get? key

/-- The first child of a tag. -/
def child? (n : Node) (tag : String) : Option Node := n.children.find? (·.tag == tag)

/-- The children of a tag. -/
def childrenOf (n : Node) (tag : String) : List Node := n.children.filter (·.tag == tag)

/-- The first child of a tag that has an attribute of a value. -/
def childWith? (n : Node) (tag key value : String) : Option Node :=
  n.children.find? fun c => c.tag == tag && c.attribute? key == some value

/-- The element that a path of tags leads to, by the first child of each. -/
def find? (n : Node) : List String → Option Node
  | [] => some n
  | tag :: path => (n.child? tag).bind (·.find? path)

/-- The text of the element that a path of tags leads to. -/
def textAt? (n : Node) (path : List String) : Option String := (n.find? path).bind (·.text)

/-- Puts a child at the end. -/
def push (n : Node) (child : Node) : Node := { n with children := n.children ++ [child] }

/-- Gives an attribute a value. -/
def withAttribute (n : Node) (key value : String) : Node :=
  { n with attributes := n.attributes.put key value }

/-- Changes the element that a path of tags leads to; what is missing on the way is put in. -/
def amendAt : List String → (Node → Node) → Node → Node
  | [], f, n => f n
  | tag :: path, f, n =>
    { n with children := amendFirst (·.tag == tag) { tag } (amendAt path f) n.children }

/-- An element without attributes and text. -/
def branch (tag : String) (children : List Node) : Node := { tag, children }

/-- An element that holds text alone. -/
def leaf (tag text : String) : Node := { tag, text := some text }

end Node

end FirewallConfig.Xml
