import FirewallConfig.Proofs.PanOs.Mark

/-!
# Proofs/PanOs/Scan — what a scan of written elements comes to

The reader scans line by line, with an area and an entry that it collects; the writer makes a tree.
`Scans area ns es` follows the tree: met in an area, the elements `ns` come to the events `es`, each
of them a whole entry of some area or a setting outside of all.  `run_linesOfAll` says that a scan of
the written lines does exactly these events, and is back where it was.
-/

namespace FirewallConfig.PanOs

open Xml (Node IsName linesOfAll)

/-! ## Elements -/

/-- An element that is written in marks: only entries have a name, and nothing holds a line feed. -/
inductive Element : Node → Prop where
  | leaf {tag text : String} (htag : IsName tag) (hentry : tag ≠ "entry")
      (htext : Text.OneLine text) : Element (.leaf tag text)
  | branch {tag : String} {children : List Node} (htag : IsName tag) (hentry : tag ≠ "entry")
      (hchildren : ∀ n ∈ children, Element n) : Element (.branch tag children)
  | entry {name : String} {children : List Node} (hname : Text.OneLine name)
      (hchildren : ∀ n ∈ children, Element n) : Element (entry name children)

/-- An entry with elements in it. -/
def IsEntry (n : Node) : Prop :=
  ∃ name children, Text.OneLine name ∧ (∀ m ∈ children, Element m) ∧ n = entry name children

theorem IsEntry.element {n : Node} (h : IsEntry n) : Element n := by
  obtain ⟨name, children, hname, hchildren, rfl⟩ := h
  exact .entry hname hchildren

theorem regular_none : ({} : Xml.Attributes).Regular := by
  intro e he
  simp at he

theorem entries_put_name (name : String) :
    (({} : Xml.Attributes).put "name" name).entries = [("name", name)] := rfl

theorem Element.regular {n : Node} (h : Element n) : n.Regular := by
  induction h with
  | leaf htag _ htext => exact .text htag regular_none htext
  | branch htag _ _ ih => exact .children htag regular_none ih
  | @entry name children hname _ ih =>
    have hkey : IsName "name" := by decide
    refine .children isName_entry (fun e he => ?_) ih
    rw [Node.branch, entries_put_name, List.mem_singleton] at he
    rw [he]
    exact ⟨hkey, hname⟩

/-! ## The scan, line by line -/

namespace Reading

@[simp] theorem run_nil (r : Reading) : r.run [] = r := rfl

theorem run_cons (r : Reading) (line : String) (lines : List String) :
    r.run (line :: lines) = (r.step line).run lines := rfl

theorem run_singleton (r : Reading) (line : String) : r.run [line] = r.step line := rfl

theorem run_append (r : Reading) (ls ms : List String) : r.run (ls ++ ms) = (r.run ls).run ms :=
  List.foldl_append

theorem step_trim (r : Reading) (line : String) : r.step (Text.trim line) = r.step line := by
  rw [step, step, Text.trim_trim]

/-- The blanks at the ends of the lines do not count. -/
theorem run_map_trim (r : Reading) (lines : List String) :
    r.run (lines.map Text.trim) = r.run lines := by
  induction lines generalizing r with
  | nil => rfl
  | cons line lines ih => rw [List.map_cons, run_cons, run_cons, step_trim, ih]

/-- Lines that are written are read one by one. -/
theorem run_lines_unlines (r : Reading) {ls : List String} (h : ∀ l ∈ ls, Text.OneLine l) :
    r.run (Text.lines (Text.unlines ls)) = r.run ls := by
  rw [← run_map_trim, Text.map_trim_lines_unlines h, run_map_trim]

/-! ### Outside of all areas -/

/-- A line without a text sets nothing. -/
theorem settingLine_line {m : Mark} (hm : m.Valid) (h : ∀ t, m.leafText? t = none) (c : Config) :
    settingLine c m.line = c := by
  rw [settingLine, Mark.leafText_line (by decide) hm, Mark.leafText_line (by decide) hm,
    Mark.leafText_line (by decide) hm, h, h, h]

theorem step_none {m : Mark} (hm : m.Valid)
    (h : (Area.all.find? fun a => m.isOpening a.tag) = none) (c : Config) :
    step { config := c } m.line = { config := settingLine c m.line } := by
  rw [step, Mark.trim_line]
  show idleLine _ _ = _
  rw [idleLine, Mark.opened?_line hm, h]

/-! ### In an area -/

theorem step_some {m : Mark} (hm : m.Valid)
    (h : (Area.all.find? fun a => m.isOpening a.tag) = none) (c : Config) (a : Area) :
    step { config := c, area := some a } m.line =
      if m.isClosing a.tag then { config := c }
      else if (m.entryName?).isNone then { config := c, area := some a }
      else if isSelfClosed m.line || Text.holds (closeTag "entry") m.line then
        takeEntry { config := c, area := some a } [m.line]
      else { config := c, area := some a, entry := some ([m.line], 1) } := by
  rw [step, Mark.trim_line]
  show idleLine _ _ = _
  rw [idleLine, Mark.opened?_line hm, h]
  show (if a.isClosedBy m.line = true then _ else _) = _
  rw [Mark.isClosedBy_line a hm, Mark.entryName_line hm]

/-! ### In an entry -/

theorem step_entry {m : Mark} (hm : m.Valid) (c : Config) (area : Option Area)
    (lines : List String) {depth d : Nat} (hd : depth + m.opened - m.closed = d) (hpos : d ≠ 0) :
    step { config := c, area, entry := some (lines, depth) } m.line =
      { config := c, area, entry := some (m.line :: lines, d) } := by
  rw [step, Mark.trim_line]
  show (if PanOs.depthAfter depth m.line = 0 then _ else _) = _
  rw [Mark.depthAfter_line hm, hd, if_neg hpos]

theorem step_entry_last {m : Mark} (hm : m.Valid) (c : Config) (area : Option Area)
    (lines : List String) {depth : Nat} (hd : depth + m.opened - m.closed = 0) :
    step { config := c, area, entry := some (lines, depth) } m.line =
      takeEntry { config := c, area, entry := some (lines, depth) } (m.line :: lines).reverse := by
  rw [step, Mark.trim_line]
  show (if PanOs.depthAfter depth m.line = 0 then _ else _) = _
  rw [Mark.depthAfter_line hm, if_pos hd]

/-- Scanning the lines collects them for the entry, and leaves as many entries open as there
were. -/
def Collected (lines : List String) : Prop :=
  ∀ (c : Config) (area : Option Area) (before : List String) {depth : Nat}, depth ≠ 0 →
    run { config := c, area, entry := some (before, depth) } lines =
      { config := c, area, entry := some (lines.reverse ++ before, depth) }

theorem Collected.append {ls ms : List String} (hls : Collected ls) (hms : Collected ms) :
    Collected (ls ++ ms) := by
  intro c area before depth hdepth
  rw [run_append, hls c area before hdepth, hms c area _ hdepth, List.reverse_append,
    List.append_assoc]

theorem collected_line {m : Mark} (hm : m.Valid) (hopened : m.opened = 0) (hclosed : m.closed = 0) :
    Collected [m.line] := by
  intro c area before depth hdepth
  have hd : depth + m.opened - m.closed = depth := by rw [hopened, hclosed, Nat.add_zero, Nat.sub_zero]
  rw [run_singleton, step_entry hm c area before hd hdepth, List.reverse_singleton,
    List.singleton_append]

theorem collected_linesOfAll {ns : List Node} (h : ∀ n ∈ ns, Collected n.lines) :
    Collected (linesOfAll ns) := by
  induction ns with
  | nil => exact fun _ _ _ _ _ => rfl
  | cons n ns ih =>
    rw [Xml.linesOfAll_cons]
    exact (h n List.mem_cons_self).append (ih fun m hm => h m (List.mem_cons_of_mem _ hm))

/-- **An element inside an entry is collected with it.** -/
theorem collected_lines {n : Node} (h : Element n) : Collected n.lines := by
  induction h with
  | @leaf tag text htag hentry _ =>
    rw [lines_leaf]
    exact collected_line (m := .leaf tag text) ⟨htag, hentry⟩ rfl rfl
  | @branch tag children htag hentry _ ih =>
    rw [lines_branch]
    split
    · exact collected_line (m := .empty tag) htag rfl rfl
    · have hopening := collected_line (m := .opening tag) ⟨htag, hentry⟩ rfl rfl
      have hclosing := collected_line (m := .closing tag) htag rfl (if_neg hentry)
      exact (hopening.append (collected_linesOfAll ih)).append hclosing
  | @entry name children _ _ ih =>
    rw [lines_entry]
    split
    · exact collected_line (m := .emptyEntry name) trivial rfl rfl
    · intro c area before depth hdepth
      have hpos : depth + 1 ≠ 0 := Nat.succ_ne_zero depth
      have hopened : depth + (Mark.entry name).opened - (Mark.entry name).closed = depth + 1 := rfl
      have hclosed : depth + 1 + (Mark.closing "entry").opened - (Mark.closing "entry").closed
          = depth := rfl
      rw [List.cons_append, run_cons, step_entry (m := .entry name) trivial c area before hopened hpos,
        run_append, collected_linesOfAll ih c area _ hpos, run_cons,
        step_entry (m := .closing "entry") isName_entry c area _ hclosed hdepth]
      simp

end Reading

/-! ## Events -/

/-- The area that a tag opens. -/
def Area.ofTag? (tag : String) : Option Area := all.find? fun a => tag == a.tag

theorem Area.ofTag?_tag (a : Area) : Area.ofTag? a.tag = some a := by
  cases a <;> decide

/-- What a scan comes to. -/
inductive Event where
  /-- An entry of an area. -/
  | entry (area : Area) (n : Node)
  /-- An element with text outside all areas. -/
  | setting (tag text : String)

/-- What an event does to what has been read so far. -/
def Event.apply (c : Config) : Event → Config
  | entry area n => (Reading.takeEntry { config := c, area := some area } n.lines).config
  | setting tag text => Reading.settingLine c (Mark.leaf tag text).line

/-- The events that elements side by side come to, met in an area or outside of all. -/
inductive Scans : Option Area → List Node → List Event → Prop where
  | nil (area : Option Area) : Scans area [] []
  | append {area : Option Area} {ns ms : List Node} {es fs : List Event} (hns : Scans area ns es)
      (hms : Scans area ms fs) : Scans area (ns ++ ms) (es ++ fs)
  /-- In an area, an entry is taken as a whole. -/
  | entry (a : Area) {n : Node} (hn : IsEntry n) : Scans (some a) [n] [.entry a n]
  /-- Outside all areas, what is in an entry counts as if it stood there. -/
  | plain {name : String} {children : List Node} {es : List Event} (hname : Text.OneLine name)
      (hes : Scans none children es) : Scans none [PanOs.entry name children] es
  | setting {tag text : String} (htag : IsName tag) (hentry : tag ≠ "entry")
      (htext : Text.OneLine text) : Scans none [.leaf tag text] [.setting tag text]
  /-- The tag of an area opens it for what is inside. -/
  | area (a : Area) {children : List Node} {es : List Event} (hes : Scans (some a) children es) :
      Scans none [.branch a.tag children] es
  /-- Any other tag changes nothing. -/
  | branch {area : Option Area} {tag : String} {children : List Node} {es : List Event}
      (htag : IsName tag) (hentry : tag ≠ "entry") (harea : Area.ofTag? tag = none)
      (hes : Scans area children es) : Scans area [.branch tag children] es

/-- What is scanned is made of elements. -/
theorem Scans.element {area : Option Area} {ns : List Node} {es : List Event}
    (h : Scans area ns es) : ∀ n ∈ ns, Element n := by
  induction h with
  | nil => exact List.forall_mem_nil _
  | append _ _ ihn ihm => exact List.forall_mem_append.2 ⟨ihn, ihm⟩
  | entry a hn => exact List.forall_mem_singleton.2 hn.element
  | plain hname _ ih => exact List.forall_mem_singleton.2 (.entry hname ih)
  | setting htag hentry htext => exact List.forall_mem_singleton.2 (.leaf htag hentry htext)
  | area a _ ih =>
    obtain ⟨hname, hentry⟩ := Mark.isName_tag a
    exact List.forall_mem_singleton.2 (.branch hname hentry ih)
  | branch htag hentry _ _ ih => exact List.forall_mem_singleton.2 (.branch htag hentry ih)

theorem Scans.eq_nil {area : Option Area} {ns : List Node} {es : List Event}
    (h : Scans area ns es) (hns : ns = []) : es = [] := by
  induction h with
  | nil => rfl
  | append _ _ ihn ihm =>
    obtain ⟨hn, hm⟩ := List.append_eq_nil_iff.1 hns
    rw [ihn hn, ihm hm]
    rfl
  | entry | plain | setting | area | branch => exact absurd hns (List.cons_ne_nil _ _)

namespace Reading

/-! ## The scan of the whole -/

/-- A mark that opens no area. -/
theorem find?_isOpening {m : Mark} (h : ∀ tag, m = .opening tag → Area.ofTag? tag = none) :
    (Area.all.find? fun a => m.isOpening a.tag) = none := by
  cases m with
  | opening tag => exact h tag rfl
  | closing _ | empty _ | leaf _ _ | entry _ | emptyEntry _ => rfl

/-- A line outside all areas that opens none and has no text. -/
theorem step_plain {m : Mark} (hm : m.Valid) (h : ∀ tag, m = .opening tag → Area.ofTag? tag = none)
    (htext : ∀ t, m.leafText? t = none) (c : Config) :
    step { config := c } m.line = { config := c } := by
  rw [step_none hm (find?_isOpening h), settingLine_line hm htext]

/-- A line in an area that neither opens an entry nor ends the area. -/
theorem step_between {m : Mark} (hm : m.Valid) {a : Area}
    (h : ∀ tag, m = .opening tag → Area.ofTag? tag = none) (hname : m.entryName? = none)
    (hclosing : m.isClosing a.tag = false) (c : Config) :
    step { config := c, area := some a } m.line = { config := c, area := some a } := by
  rw [step_some hm (find?_isOpening h), hclosing, hname]
  rfl

/-- Taking in an entry changes what has been read, and nothing else. -/
theorem takeEntry_eq (c : Config) (a : Area) (e : Option (List String × Nat)) (n : Node) :
    takeEntry { config := c, area := some a, entry := e } n.lines
      = { config := Event.apply c (.entry a n), area := some a } := by
  rw [Event.apply, takeEntry, takeEntry]
  cases (Block.ofLines n.lines).name <;> rfl

/-- An entry of an area, from its first line to its last. -/
theorem run_entry (a : Area) {n : Node} (h : IsEntry n) (c : Config) :
    run { config := c, area := some a } n.lines =
      { config := Event.apply c (.entry a n), area := some a } := by
  obtain ⟨name, children, -, hchildren, rfl⟩ := h
  have htake (e : Option (List String × Nat)) := takeEntry_eq c a e (PanOs.entry name children)
  rw [lines_entry] at htake ⊢
  split
  · next hempty =>
    rw [if_pos hempty] at htake
    rw [run_singleton, step_some (m := .emptyEntry name) trivial (find?_isOpening nofun),
      Mark.isSelfClosed_emptyEntry, Bool.true_or, if_neg (by exact Bool.false_ne_true),
      if_neg (by exact Bool.false_ne_true), if_pos rfl, htake none]
  · next hempty =>
    rw [if_neg hempty] at htake
    have hopening : step { config := c, area := some a } (Mark.entry name).line
        = { config := c, area := some a, entry := some ([(Mark.entry name).line], 1) } := by
      rw [step_some (m := .entry name) trivial (find?_isOpening nofun), Mark.isSelfClosed_entry,
        Mark.holds_closeTag_entry]
      rfl
    have hcollected := collected_linesOfAll (fun n hn => collected_lines (hchildren n hn)) c (some a)
      [(Mark.entry name).line] Nat.one_ne_zero
    rw [List.cons_append, run_cons, hopening, run_append, hcollected, run_cons, run_nil,
      step_entry_last (m := .closing "entry") isName_entry _ _ _ rfl, List.reverse_cons,
      List.reverse_append, List.reverse_reverse, List.reverse_singleton]
    exact htake _

theorem step_opening (a : Area) (c : Config) :
    step { config := c } (Mark.opening a.tag).line = { config := c, area := some a } := by
  rw [step, Mark.trim_line]
  have hopened : Area.opened? (Mark.opening a.tag).line = some a :=
    (Mark.opened?_line (m := .opening a.tag) (Mark.isName_tag a)).trans (Area.ofTag?_tag a)
  show idleLine _ _ = _
  rw [idleLine, hopened]

theorem step_closing (a : Area) (c : Config) :
    step { config := c, area := some a } (Mark.closing a.tag).line = { config := c } := by
  have hclosing : (Mark.closing a.tag).isClosing a.tag = true := beq_self_eq_true a.tag
  rw [step_some (m := .closing a.tag) (Mark.isName_tag a).1 (find?_isOpening nofun), hclosing]
  rfl

/-- Lines between two tags are scanned from the first tag, through them, to the second. -/
theorem run_around {s opened ended t : Reading} {first last : String} {ls : List String}
    (hfirst : step s first = opened) (hls : run opened ls = ended) (hlast : step ended last = t) :
    run s (first :: (ls ++ [last])) = t := by
  rw [run_cons, hfirst, run_append, hls, run_cons, hlast, run_nil]

/-- **A scan of written elements does their events**, and is back where it was. -/
theorem run_linesOfAll {area : Option Area} {ns : List Node} {es : List Event}
    (h : Scans area ns es) (c : Config) :
    run { config := c, area } (linesOfAll ns) = { config := es.foldl Event.apply c, area } := by
  induction h generalizing c with
  | nil => rfl
  | append _ _ ihn ihm =>
    rw [Xml.linesOfAll_append, run_append, ihn, ihm, List.foldl_append]
  | entry a hn =>
    rw [Xml.linesOfAll_singleton]
    exact run_entry a hn c
  | @plain name children es _ hes ih =>
    rw [Xml.linesOfAll_singleton, lines_entry]
    split
    · next hempty =>
      rw [hes.eq_nil (List.isEmpty_iff.1 hempty), run_singleton]
      exact step_plain (m := .emptyEntry name) trivial nofun (fun _ => rfl) c
    · exact run_around (step_plain (m := .entry name) trivial nofun (fun _ => rfl) c) (ih c)
        (step_plain (m := .closing "entry") isName_entry nofun (fun _ => rfl) _)
  | @setting tag text htag hentry _ =>
    rw [Xml.linesOfAll_singleton, lines_leaf, run_singleton]
    exact step_none (m := .leaf tag text) ⟨htag, hentry⟩ (find?_isOpening nofun) c
  | @area a children es hes ih =>
    obtain ⟨htag, hentry⟩ := Mark.isName_tag a
    rw [Xml.linesOfAll_singleton, lines_branch]
    split
    · next hempty =>
      rw [hes.eq_nil (List.isEmpty_iff.1 hempty), run_singleton]
      exact step_plain (m := .empty a.tag) htag nofun (fun _ => rfl) c
    · exact run_around (step_opening a c) (ih c) (step_closing a _)
  | @branch area tag children es htag hentry harea hes ih =>
    have hopens : ∀ t, Mark.opening tag = .opening t → Area.ofTag? t = none := by
      rintro t ⟨⟩
      exact harea
    rw [Xml.linesOfAll_singleton, lines_branch]
    cases area with
    | none =>
      split
      · next hempty =>
        rw [hes.eq_nil (List.isEmpty_iff.1 hempty), run_singleton]
        exact step_plain (m := .empty tag) htag nofun (fun _ => rfl) c
      · exact run_around (step_plain (m := .opening tag) ⟨htag, hentry⟩ hopens (fun _ => rfl) c)
          (ih c) (step_plain (m := .closing tag) htag nofun (fun _ => rfl) _)
    | some a =>
      have hclosing : (Mark.closing tag).isClosing a.tag = false := by
        refine beq_eq_false_iff_ne.2 ?_
        rintro rfl
        rw [Area.ofTag?_tag] at harea
        cases harea
      split
      · next hempty =>
        rw [hes.eq_nil (List.isEmpty_iff.1 hempty), run_singleton]
        exact step_between (m := .empty tag) htag nofun rfl rfl c
      · exact run_around (step_between (m := .opening tag) ⟨htag, hentry⟩ hopens rfl rfl c) (ih c)
          (step_between (m := .closing tag) htag nofun rfl hclosing _)

end Reading

end FirewallConfig.PanOs
