import FirewallConfig.FortiOs.Word
import FirewallConfig.Text.Lines

/-!
# FortiOs/Section — configuration sections, written and read

A section holds settings, entries and further sections, and an entry holds settings and sections.
The same trees serve for what is read, whose words are texts, and for what is written, whose words
say whether they are quoted.  `Section.lines` writes a section; `readForest` reads a text with a
stack of the sections that are open, and closes those that are left at the end.
-/

namespace FirewallConfig.FortiOs

/-- A setting with its values. -/
structure Setting (ω : Type) where
  key : ω
  values : List ω
deriving DecidableEq, Repr

mutual

/-- A section: `config PATH … end`. -/
structure Section (ω : Type) where
  path : ω
  settings : List (Setting ω) := []
  entries : List (Entry ω) := []
  children : List (Section ω) := []

/-- An entry of a section: `edit NAME … next`. -/
structure Entry (ω : Type) where
  name : ω
  settings : List (Setting ω) := []
  children : List (Section ω) := []

end

/-! ## Every section, however deep -/

mutual

/-- The section and those inside it: below it first, then in its entries. -/
def Section.all {ω : Type} : Section ω → List (Section ω)
  | ⟨path, settings, entries, children⟩ =>
    ⟨path, settings, entries, children⟩ :: (allSections children ++ allInEntries entries)

/-- The sections inside an entry. -/
def Entry.all {ω : Type} : Entry ω → List (Section ω)
  | ⟨_, _, children⟩ => allSections children

/-- The sections of a list and those inside them. -/
def allSections {ω : Type} : List (Section ω) → List (Section ω)
  | [] => []
  | s :: ss => s.all ++ allSections ss

/-- The sections inside the entries of a list. -/
def allInEntries {ω : Type} : List (Entry ω) → List (Section ω)
  | [] => []
  | e :: es => e.all ++ allInEntries es

end

/-- Every section of a path, wherever it stands. -/
def sectionsAt (path : String) (forest : List (Section String)) : List (Section String) :=
  (allSections forest).filter (·.path == path)

/-- The entries of every section of a path. -/
def entriesAt (path : String) (forest : List (Section String)) : List (Entry String) :=
  (sectionsAt path forest).flatMap (·.entries)

/-! ## Looking up a setting -/

/-- The values of a key, of which the last setting counts. -/
def valuesOf (settings : List (Setting String)) (key : String) : List String :=
  match settings.reverse.find? (·.key == key) with
  | some s => s.values
  | none => []

/-- The first value of a key. -/
def valueOf (settings : List (Setting String)) (key : String) : Option String :=
  (valuesOf settings key).head?

/-- All values of a key with a blank between neighbours, if there are any. -/
def joinedValues (settings : List (Setting String)) (key : String) : Option String :=
  match valuesOf settings key with
  | [] => none
  | values => some (Text.unwords values)

/-! ## Writing -/

/-- A line of a nesting level. -/
def indent (level : Nat) (words : List String) : String :=
  "".pushn ' ' (4 * level) ++ Text.unwords words

/-- The line of a setting that stands at a level. -/
def Setting.line (level : Nat) (s : Setting Value) : String :=
  indent level ("set" :: s.key.spelling :: s.values.map Value.spelling)

mutual

/-- The lines of a section that stands at a level. -/
def Section.lines (level : Nat) : Section Value → List String
  | ⟨path, settings, entries, children⟩ =>
    indent level ["config", path.spelling]
      :: (settings.map (Setting.line (level + 1)) ++ sectionLines (level + 1) children
        ++ entryLines (level + 1) entries ++ [indent level ["end"]])

/-- The lines of an entry that stands at a level. -/
def Entry.lines (level : Nat) : Entry Value → List String
  | ⟨name, settings, children⟩ =>
    indent level ["edit", name.spelling]
      :: (settings.map (Setting.line (level + 1)) ++ sectionLines (level + 1) children
        ++ [indent level ["next"]])

/-- The lines of sections that stand at a level. -/
def sectionLines (level : Nat) : List (Section Value) → List String
  | [] => []
  | s :: ss => s.lines level ++ sectionLines level ss

/-- The lines of entries that stand at a level. -/
def entryLines (level : Nat) : List (Entry Value) → List String
  | [] => []
  | e :: es => e.lines level ++ entryLines level es

end

/-! ## Reading -/

/-- What a line says. -/
inductive Directive where
  | config (path : String)
  | edit (name : String)
  | set (setting : Setting String)
  | next
  | finish
  | other
deriving DecidableEq, Repr

/-- Reads the words of a line. -/
def Directive.ofWords : List String → Directive
  | "config" :: word :: words => .config (Text.unwords (word :: words))
  | "edit" :: name :: _ => .edit name
  | "set" :: key :: values => .set { key, values }
  | ["next"] => .next
  | ["end"] => .finish
  | _ => .other

/-- Reads a line without the blanks at its ends.  A line that is empty or begins with `#` says
nothing. -/
def Directive.ofLine (line : String) : Directive :=
  if line.isEmpty || Text.beginsWith "#" line then .other else ofWords (splitWords line)

/-- A section that is open, and the entry of it that is open, if one is. -/
structure Frame where
  top : Section String
  entry : Option (Entry String) := none

namespace Frame

/-- Ends the open entry. -/
def closeEntry (f : Frame) : Frame :=
  match f.entry with
  | some e => { top := { f.top with entries := f.top.entries ++ [e] } }
  | none => f

/-- Begins an entry; the one before it ends. -/
def edit (f : Frame) (name : String) : Frame := { f.closeEntry with entry := some { name } }

/-- Adds a setting to the open entry, or else to the section. -/
def set (f : Frame) (s : Setting String) : Frame :=
  match f.entry with
  | some e => { f with entry := some { e with settings := e.settings ++ [s] } }
  | none => { f with top := { f.top with settings := f.top.settings ++ [s] } }

/-- Adds a section to the open entry, or else to the section. -/
def attach (f : Frame) (s : Section String) : Frame :=
  match f.entry with
  | some e => { f with entry := some { e with children := e.children ++ [s] } }
  | none => { f with top := { f.top with children := f.top.children ++ [s] } }

/-- The section, all of it. -/
def close (f : Frame) : Section String := f.closeEntry.top

end Frame

/-- What has been read so far: the sections that are open, innermost first, and those that are
complete and stand in no other. -/
structure Reading where
  stack : List Frame := []
  forest : List (Section String) := []

namespace Reading

/-- Changes the innermost open section. -/
def amend (r : Reading) (f : Frame → Frame) : Reading :=
  match r.stack with
  | top :: below => { r with stack := f top :: below }
  | [] => r

/-- Ends the innermost open section: it becomes part of the one around it. -/
def pop (r : Reading) : Reading :=
  match r.stack with
  | top :: outer :: below => { r with stack := outer.attach top.close :: below }
  | [top] => { stack := [], forest := r.forest ++ [top.close] }
  | [] => r

/-- Takes in a directive. -/
def apply (r : Reading) : Directive → Reading
  | .config path => { r with stack := { top := { path } } :: r.stack }
  | .edit name => r.amend (·.edit name)
  | .set s => r.amend (·.set s)
  | .next => r.amend (·.closeEntry)
  | .finish => r.pop
  | .other => r

/-- Takes in a line. -/
def step (r : Reading) (raw : String) : Reading := r.apply (Directive.ofLine (Text.trim raw))

/-- Ends the sections that are still open, innermost first, `top` being one that stands in none of
the frames. -/
def closeAll (forest : List (Section String)) (top : Section String) :
    List Frame → List (Section String)
  | [] => forest ++ [top]
  | f :: fs => closeAll forest (f.attach top).close fs

/-- The sections that have been read, once the text has ended. -/
def finish (r : Reading) : List (Section String) :=
  match r.stack with
  | [] => r.forest
  | top :: below => closeAll r.forest top.close below

/-- What has been read once some lines are through. -/
def run (r : Reading) (lines : List String) : Reading := lines.foldl step r

end Reading

/-- Reads the sections of a text. -/
def readForest (text : String) : List (Section String) :=
  (Reading.run {} (Text.lines text)).finish

end FirewallConfig.FortiOs
