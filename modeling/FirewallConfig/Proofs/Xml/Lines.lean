import FirewallConfig.Proofs.Text.Blank
import FirewallConfig.Proofs.Xml.Entity
import FirewallConfig.Xml.Writer

/-!
# Proofs/Xml/Lines — the lines of a written element

An element that holds text or children but not both is written with one element a line, if no line
feed is in its names, its texts and its values.  `Node.lines` lists these lines in pre-order and
without their indentation, and `prints_write` says that the text of the element is made of them.
`lines_document` says so of a whole document.
-/

namespace FirewallConfig

/-- Lines with line feeds between them, and one at the end. -/
theorem Text.join_eq_unlines (l : String) (ls : List String) :
    l ++ String.join (ls.map ("\n" ++ ·)) ++ "\n" = unlines (l :: ls) := by
  induction ls generalizing l with
  | nil => simp [unlines]
  | cons k ls ih =>
    have ih := ih k
    rw [unlines, List.map_cons, String.join_cons] at ih ⊢
    rw [List.map_cons, List.map_cons, String.join_cons, String.join_cons, ← ih]
    simp only [String.append_assoc]

namespace Xml

/-! ## Names -/

/-- A name may begin with the character. -/
def isNameStart (c : Char) : Bool := c.isAlpha || c == '_' || c == ':'

/-- The character may stand in a name. -/
def isNameChar (c : Char) : Bool := isNameStart c || c.isDigit || c == '-' || c == '.'

/-- The text is the name of a tag or an attribute. -/
def IsName (s : String) : Prop :=
  s.toList.head?.any isNameStart = true ∧ s.toList.all isNameChar = true

instance (s : String) : Decidable (IsName s) := inferInstanceAs (Decidable (_ ∧ _))

/-- A character that stands in no name is in none. -/
theorem IsName.not_mem {s : String} (hs : IsName s) {c : Char} (hc : isNameChar c = false) :
    c ∉ s.toList := by
  intro h
  rw [List.all_eq_true.1 hs.2 c h] at hc
  exact absurd hc (by decide)

theorem IsName.oneLine {s : String} (hs : IsName s) : Text.OneLine s := hs.not_mem (by decide)

/-- A name begins with a letter or what counts as one. -/
theorem IsName.exists_cons {s : String} (hs : IsName s) :
    ∃ c cs, s.toList = c :: cs ∧ isNameStart c = true := by
  cases h : s.toList with
  | nil =>
    have := hs.1
    rw [h] at this
    exact absurd this (by decide)
  | cons c cs =>
    have := hs.1
    rw [h] at this
    exact ⟨c, cs, rfl, this⟩

/-! ## Elements that are written one a line -/

/-- Attributes with names, and with values that hold no line feed. -/
def Attributes.Regular (a : Attributes) : Prop :=
  ∀ e ∈ a.entries, IsName e.1 ∧ Text.OneLine e.2

/-- The element holds text or children but not both, its tags are names, and its texts hold no line
feed; and so it is of everything in it. -/
inductive Node.Regular : Node → Prop where
  | text {tag : String} {attributes : Attributes} {text : String} (htag : IsName tag)
      (hattributes : attributes.Regular) (htext : Text.OneLine text) :
      Regular { tag, attributes, text := some text }
  | children {tag : String} {attributes : Attributes} {children : List Node} (htag : IsName tag)
      (hattributes : attributes.Regular) (hchildren : ∀ n ∈ children, n.Regular) :
      Regular { tag, attributes, children }

/-- The property holds of the element and of everything in it. -/
inductive Node.All (P : Node → Prop) : Node → Prop where
  | mk {n : Node} (h : P n) (hchildren : ∀ m ∈ n.children, Node.All P m) : Node.All P n

/-- The property holds of an element and of its children, which have none themselves. -/
theorem Node.All.of_children {P : Node → Prop} {n : Node} (h : P n)
    (hchildren : ∀ m ∈ n.children, P m ∧ m.children = []) : n.All P := by
  refine .mk h fun m hm => ?_
  obtain ⟨hm, hnone⟩ := hchildren m hm
  exact .mk hm (hnone ▸ List.forall_mem_nil _)

theorem Node.All.and {P Q : Node → Prop} {n : Node} (hp : n.All P) (hq : n.All Q) :
    n.All fun m => P m ∧ Q m := by
  induction hp with
  | mk h _ ih =>
    cases hq with
    | mk h' hchildren => exact .mk ⟨h, h'⟩ fun m hm => ih m hm (hchildren m hm)

/-- The element holds text or children but not both, and no line feed is in its text or in the
values of its attributes. -/
structure Node.Unbroken (n : Node) : Prop where
  apart : n.text = none ∨ n.children = []
  text : ∀ s ∈ n.text, Text.OneLine s
  values : ∀ e ∈ n.attributes.entries, Text.OneLine e.2

/-- No line feed is in the tag of the element or in the keys of its attributes. -/
structure Node.UnbrokenNames (n : Node) : Prop where
  tag : Text.OneLine n.tag
  keys : ∀ e ∈ n.attributes.entries, Text.OneLine e.1

instance (n : Node) : Decidable n.Unbroken :=
  decidable_of_iff
    ((n.text = none ∨ n.children = []) ∧ (∀ s ∈ n.text, Text.OneLine s)
      ∧ ∀ e ∈ n.attributes.entries, Text.OneLine e.2)
    ⟨fun h => ⟨h.1, h.2.1, h.2.2⟩, fun h => ⟨h.apart, h.text, h.values⟩⟩

instance (n : Node) : Decidable n.UnbrokenNames :=
  decidable_of_iff (Text.OneLine n.tag ∧ ∀ e ∈ n.attributes.entries, Text.OneLine e.1)
    ⟨fun h => ⟨h.1, h.2⟩, fun h => ⟨h.tag, h.keys⟩⟩

theorem Node.Regular.unbroken {n : Node} (h : n.Regular) :
    n.All fun m => m.Unbroken ∧ m.UnbrokenNames := by
  induction h with
  | text htag hattributes htext =>
    refine .mk ⟨⟨.inr rfl, fun s hs => ?_, fun e he => (hattributes e he).2⟩,
      ⟨htag.oneLine, fun e he => (hattributes e he).1.oneLine⟩⟩ (List.forall_mem_nil _)
    cases hs
    exact htext
  | children htag hattributes _ ih =>
    exact .mk ⟨⟨.inl rfl, fun _ hs => (nomatch hs), fun e he => (hattributes e he).2⟩,
      ⟨htag.oneLine, fun e he => (hattributes e he).1.oneLine⟩⟩ ih

mutual

/-- The lines of an element, without their indentation. -/
def Node.lines : Node → List String
  | ⟨tag, attributes, children, text⟩ =>
    match text with
    | some text => ["<" ++ tagText tag attributes ++ ">" ++ escape text ++ "</" ++ tag ++ ">"]
    | none =>
      if children.isEmpty then ["<" ++ tagText tag attributes ++ "/>"]
      else
        ("<" ++ tagText tag attributes ++ ">") :: linesOfAll children ++ ["</" ++ tag ++ ">"]

/-- The lines of elements side by side. -/
def linesOfAll : List Node → List String
  | [] => []
  | n :: ns => n.lines ++ linesOfAll ns

end

@[simp] theorem linesOfAll_nil : linesOfAll [] = [] := by rw [linesOfAll]

theorem linesOfAll_cons (n : Node) (ns : List Node) :
    linesOfAll (n :: ns) = n.lines ++ linesOfAll ns := by rw [linesOfAll]

@[simp] theorem linesOfAll_singleton (n : Node) : linesOfAll [n] = n.lines := by
  rw [linesOfAll_cons, linesOfAll_nil, List.append_nil]

theorem linesOfAll_append (ns ms : List Node) :
    linesOfAll (ns ++ ms) = linesOfAll ns ++ linesOfAll ms := by
  induction ns with
  | nil => rw [linesOfAll_nil, List.nil_append, List.nil_append]
  | cons n ns ih => rw [List.cons_append, linesOfAll_cons, linesOfAll_cons, ih, List.append_assoc]

/-! ## Writing -/

/-- The text is made of the lines, each after a line feed and perhaps between blanks. -/
def Prints (text : String) (lines : List String) : Prop :=
  ∃ raws : List String, raws.map Text.trim = lines ∧ (∀ r ∈ raws, Text.OneLine r)
    ∧ text = String.join (raws.map ("\n" ++ ·))

namespace Prints

theorem nil : Prints "" [] := ⟨[], rfl, by simp, rfl⟩

theorem append {s t : String} {ls ms : List String} (hs : Prints s ls) (ht : Prints t ms) :
    Prints (s ++ t) (ls ++ ms) := by
  obtain ⟨rs, rfl, hrs, rfl⟩ := hs
  obtain ⟨qs, rfl, hqs, rfl⟩ := ht
  refine ⟨rs ++ qs, List.map_append, ?_, ?_⟩
  · intro r hr
    rcases List.mem_append.1 hr with hr | hr
    · exact hrs r hr
    · exact hqs r hr
  · rw [List.map_append, String.join_append]

/-- One line of markup at a level. -/
theorem markup {s : String} (hs : Text.OneLine s) (level : Nat) :
    Prints (lineStart true level ++ ("<" ++ s ++ ">")) ["<" ++ s ++ ">"] := by
  refine ⟨["".pushn ' ' (2 * level) ++ ("<" ++ s ++ ">")], ?_, ?_, ?_⟩
  · have hlist : ("<" ++ s ++ ">").toList = '<' :: s.toList ++ ['>'] := by simp
    rw [List.map_singleton]
    congr 1
    rw [Text.trim_blanks_append]
    apply String.toList_inj.1
    rw [Text.toList_trim, hlist]
    exact (Chars.solid_cons_append (by decide) (by decide) s.toList).trim_eq
  · intro r hr
    have hindent : Text.OneLine ("".pushn ' ' (2 * level)) := by
      rw [Text.OneLine, Text.toList_blanks]
      simp
    rw [List.mem_singleton.1 hr]
    simp only [Text.oneLine_append]
    exact ⟨hindent, ⟨by decide, hs⟩, by decide⟩
  · simp [lineStart, String.append_assoc]

end Prints

theorem Node.Unbroken.oneLine_tagText {n : Node} (h : n.Unbroken) (hnames : n.UnbrokenNames) :
    Text.OneLine (tagText n.tag n.attributes) := by
  refine Text.oneLine_append.2 ⟨hnames.tag, Text.oneLine_join fun t ht => ?_⟩
  obtain ⟨e, he, rfl⟩ := List.mem_map.1 ht
  have hkey := hnames.keys e he
  have hvalue := oneLine_escape (h.values e he)
  simp only [Text.oneLine_append]
  exact ⟨⟨⟨⟨by decide, hkey⟩, by decide⟩, hvalue⟩, by decide⟩

theorem prints_writeChildren {ns : List Node} {level : Nat}
    (h : ∀ n ∈ ns, Prints (n.write true level) n.lines) :
    Prints (writeChildren true level ns) (linesOfAll ns) := by
  induction ns with
  | nil =>
    rw [writeChildren, linesOfAll_nil]
    exact Prints.nil
  | cons n ns ih =>
    rw [writeChildren, linesOfAll_cons]
    exact (h n List.mem_cons_self).append (ih fun m hm => h m (List.mem_cons_of_mem _ hm))

/-- **An element without line feeds is written as its lines.** -/
theorem prints_write_of_all {n : Node} (h : n.All fun m => m.Unbroken ∧ m.UnbrokenNames)
    (level : Nat) : Prints (n.write true level) n.lines := by
  induction h generalizing level with
  | @mk n hn _ ih =>
    obtain ⟨hunbroken, hnames⟩ := hn
    have hopen := hunbroken.oneLine_tagText hnames
    have htag := hnames.tag
    obtain ⟨tag, attributes, children, text⟩ := n
    rw [Node.write]
    cases text with
    | some text =>
      have hchildren : children = [] := by simpa using hunbroken.apart
      have hline : Text.OneLine (tagText tag attributes ++ ">" ++ escape text ++ "</" ++ tag) := by
        simp only [Text.oneLine_append]
        exact ⟨⟨⟨⟨hopen, by decide⟩, oneLine_escape (hunbroken.text text rfl)⟩, by decide⟩, htag⟩
      have := Prints.markup hline level
      subst hchildren
      rw [Node.lines]
      simpa [writeChildren, lineStart, String.append_assoc] using this
    | none =>
      cases children with
      | nil =>
        have := Prints.markup (s := tagText tag attributes ++ "/")
          (Text.oneLine_append.2 ⟨hopen, by decide⟩) level
        rw [Node.lines]
        simpa [String.append_assoc] using this
      | cons c cs =>
        have hslash : "<" ++ ("/" ++ tag) = "</" ++ tag := (String.append_assoc ..).symm
        have hclose := Prints.markup (s := "/" ++ tag)
          (Text.oneLine_append.2 ⟨by decide, htag⟩) level
        rw [hslash] at hclose
        have hinner := prints_writeChildren fun m hm => ih m hm (level + 1)
        have := ((Prints.markup hopen level).append hinner).append hclose
        rw [Node.lines]
        simpa [escape, String.append_assoc] using this

/-- A regular element is written as its lines. -/
theorem prints_write {n : Node} (h : n.Regular) (level : Nat) :
    Prints (n.write true level) n.lines :=
  prints_write_of_all h.unbroken level

/-! ## Documents -/

/-- **A document without a comment has one element a line**: behind the declaration stand the lines
of its root, indented, and no others. -/
theorem lines_document {n : Node} (h : n.All Node.Unbroken) (hnames : n.All Node.UnbrokenNames) :
    ∃ raws, Text.lines (document n none) = declaration :: raws ∧ raws.map Text.trim = n.lines := by
  obtain ⟨raws, hraws, honeLine, htext⟩ := prints_write_of_all (h.and hnames) 0
  have hdocument : document n none = Text.unlines (declaration :: raws) := by
    rw [← Text.join_eq_unlines, ← htext, document, Option.toList_none, List.map_nil,
      String.join_nil, String.append_empty]
  have hlines : Text.lines (document n none) = (declaration :: raws).map Text.withoutReturn := by
    rw [hdocument]
    exact Text.lines_unlines_map (List.forall_mem_cons.2 ⟨by decide, honeLine⟩)
  refine ⟨raws.map Text.withoutReturn, hlines, ?_⟩
  rw [List.map_map, ← hraws]
  exact List.map_congr_left fun l _ => Text.trim_withoutReturn l

/-- Two members side by side, of which the second one is empty. -/
def memberList : Node where
  tag := "list"
  children := [.leaf "member" "R&D", { tag := "member", attributes := .ofList [("loc", "a")] }]

/-- The lines of two members. -/
theorem lines_document_memberList :
    (∃ raws, Text.lines (document memberList none) = declaration :: raws
        ∧ raws.map Text.trim = memberList.lines)
      ∧ memberList.lines
        = ["<list>", "<member>R&amp;D</member>", "<member loc=\"a\"/>", "</list>"] :=
  ⟨lines_document (.of_children (by decide) (by decide)) (.of_children (by decide) (by decide)),
    by decide +kernel⟩

/-- An element whose tag holds a line feed. -/
def brokenTag : Node := { tag := "a\nb" }

/-- **A line feed in a tag breaks the line of its element.** -/
theorem lines_document_brokenTag :
    brokenTag.All Node.Unbroken ∧ Text.lines (document brokenTag none) = [declaration, "<a", "b/>"]
      ∧ ¬ ∃ raws, Text.lines (document brokenTag none) = declaration :: raws
          ∧ raws.map Text.trim = brokenTag.lines := by
  have hlines : Text.lines (document brokenTag none) = [declaration, "<a", "b/>"] := by
    decide +kernel
  refine ⟨.of_children (by decide) (by decide), hlines, ?_⟩
  rintro ⟨raws, hraws, htrim⟩
  have heq : raws = ["<a", "b/>"] := by
    rw [hlines] at hraws
    exact (List.cons.inj hraws).2.symm
  rw [heq] at htrim
  exact absurd (congrArg List.length htrim) (by decide +kernel)

end Xml

end FirewallConfig
