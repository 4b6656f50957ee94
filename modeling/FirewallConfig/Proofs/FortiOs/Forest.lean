import FirewallConfig.FortiOs.Section
import FirewallConfig.Proofs.Text.OneLine

/-!
# Proofs/FortiOs/Forest — the sections of a text hold no line feed

A text is read line by line, and what a line says is made of its characters: whatever the sections
are, and however deep they stand, no value in them holds a line feed (`oneLine_readForest`).
-/

namespace FirewallConfig.FortiOs

/-! ## Words -/

/-- A word holds characters of the line, or of what was read of it before. -/
theorem subset_of_mem_wordsFrom {w opened cs : List Char} {hadQuotes inQuotes : Bool}
    (hw : w ∈ wordsFrom opened hadQuotes inQuotes cs) : w ⊆ opened ++ cs := by
  have hword {opened ds : List Char} (hw : w = opened.reverse) : w ⊆ opened ++ ds := fun c hc =>
    List.mem_append_left _ (List.mem_reverse.1 (hw ▸ hc))
  have hskip {c : Char} {opened cs : List Char} (h : w ⊆ opened ++ cs) :
      w ⊆ opened ++ c :: cs := fun d hd =>
    (List.mem_append.1 (h hd)).elim (fun h => List.mem_append_left _ h) fun h =>
      List.mem_append_right _ (List.mem_cons_of_mem _ h)
  have hfresh {opened cs : List Char} (h : w ⊆ [] ++ cs) : w ⊆ opened ++ cs := fun d hd =>
    List.mem_append_right _ (h hd)
  have hshift {c : Char} {opened cs : List Char} (h : w ⊆ c :: opened ++ cs) :
      w ⊆ opened ++ c :: cs := fun d hd => by
    have hd := h hd
    simp only [List.cons_append, List.mem_cons, List.mem_append] at hd ⊢
    exact or_left_comm.1 hd
  fun_induction wordsFrom opened hadQuotes inQuotes cs with
  | case1 => cases hw
  | case2 => exact hword (List.mem_singleton.1 hw)
  | case3 _ _ _ _ _ ih => exact hskip (ih hw)
  | case4 _ _ _ _ _ _ _ ih => exact hskip (hshift (ih hw))
  | case5 _ _ _ _ _ _ _ ih => exact hskip (ih hw)
  | case6 _ _ _ _ _ _ _ _ _ ih => exact hskip (hfresh (ih hw))
  | case7 _ _ _ _ _ _ _ _ _ ih =>
    rcases List.mem_cons.1 hw with hw | hw
    · exact hword hw
    · exact hskip (hfresh (ih hw))
  | case8 _ _ _ _ _ _ _ _ ih => exact hshift (ih hw)

theorem oneLine_of_mem_splitWords {line : String} (h : Text.OneLine line) :
    ∀ w ∈ splitWords line, Text.OneLine w := by
  intro w hw
  obtain ⟨cs, hcs, rfl⟩ := List.mem_map.1 hw
  exact h.of_subset (by simpa using subset_of_mem_wordsFrom hcs)

/-! ## Directives -/

/-- The values that a directive gives hold no line feed. -/
def Directive.OneLine : Directive → Prop
  | .edit name => Text.OneLine name
  | .set s => ∀ v ∈ s.values, Text.OneLine v
  | _ => True

theorem Directive.oneLine_ofLine {line : String} (h : Text.OneLine line) :
    (Directive.ofLine line).OneLine := by
  have hwords := oneLine_of_mem_splitWords h
  rw [ofLine]
  split
  · trivial
  · unfold ofWords
    split
    · trivial
    · next heq =>
      rw [heq] at hwords
      exact hwords _ (List.mem_cons_of_mem _ List.mem_cons_self)
    · next heq =>
      rw [heq] at hwords
      exact fun v hv => hwords v (List.mem_cons_of_mem _ (List.mem_cons_of_mem _ hv))
    · trivial
    · trivial
    · trivial

/-! ## Sections -/

/-- The values of settings hold no line feed. -/
def SettingsOneLine (settings : List (Setting String)) : Prop :=
  ∀ s ∈ settings, ∀ v ∈ s.values, Text.OneLine v

mutual

/-- No value in the section holds a line feed, however deep it stands. -/
inductive Section.OneLine : Section String → Prop
  | intro {s : Section String} (settings : SettingsOneLine s.settings)
    (entries : ∀ e ∈ s.entries, Entry.OneLine e)
    (children : ∀ t ∈ s.children, Section.OneLine t) : Section.OneLine s

/-- No value in the entry holds a line feed, and its name holds none. -/
inductive Entry.OneLine : Entry String → Prop
  | intro {e : Entry String} (name : Text.OneLine e.name)
    (settings : SettingsOneLine e.settings)
    (children : ∀ t ∈ e.children, Section.OneLine t) : Entry.OneLine e

end

theorem SettingsOneLine.append_singleton {settings : List (Setting String)}
    (h : SettingsOneLine settings) {s : Setting String} (hs : ∀ v ∈ s.values, Text.OneLine v) :
    SettingsOneLine (settings ++ [s]) :=
  List.forall_mem_append.2 ⟨h, List.forall_mem_singleton.2 hs⟩

mutual

/-- What stands in a section holds no line feed either. -/
theorem Section.OneLine.of_mem_all :
    {s : Section String} → s.OneLine → ∀ t ∈ s.all, t.OneLine
  | ⟨_, _, _, _⟩, .intro settings entries children => by
    rw [Section.all]
    exact List.forall_mem_cons.2 ⟨.intro settings entries children,
      List.forall_mem_append.2
        ⟨oneLine_of_mem_allSections children, oneLine_of_mem_allInEntries entries⟩⟩

theorem oneLine_of_mem_allSections :
    {ss : List (Section String)} → (∀ s ∈ ss, s.OneLine) → ∀ t ∈ allSections ss, t.OneLine
  | [], _ => by
    rw [allSections]
    exact List.forall_mem_nil _
  | s :: ss, h => by
    obtain ⟨hs, hss⟩ := List.forall_mem_cons.1 h
    rw [allSections]
    exact List.forall_mem_append.2 ⟨hs.of_mem_all, oneLine_of_mem_allSections hss⟩

theorem oneLine_of_mem_allInEntries :
    {es : List (Entry String)} → (∀ e ∈ es, e.OneLine) → ∀ t ∈ allInEntries es, t.OneLine
  | [], _ => by
    rw [allInEntries]
    exact List.forall_mem_nil _
  | ⟨_, _, _⟩ :: es, h => by
    obtain ⟨⟨_, _, children⟩, hes⟩ := List.forall_mem_cons.1 h
    rw [allInEntries, Entry.all]
    exact List.forall_mem_append.2
      ⟨oneLine_of_mem_allSections children, oneLine_of_mem_allInEntries hes⟩

end

/-- The entries of a path hold no line feed. -/
theorem oneLine_of_mem_entriesAt {forest : List (Section String)} (h : ∀ s ∈ forest, s.OneLine)
    (path : String) : ∀ e ∈ entriesAt path forest, e.OneLine := by
  intro e he
  obtain ⟨s, hs, he⟩ := List.mem_flatMap.1 he
  obtain ⟨-, entries, -⟩ := oneLine_of_mem_allSections h s (List.mem_filter.1 hs).1
  exact entries e he

/-! ## The stack -/

/-- No value in an open section holds a line feed. -/
structure Frame.OneLine (f : Frame) : Prop where
  top : f.top.OneLine
  entry : ∀ e ∈ f.entry, e.OneLine

namespace Frame.OneLine

variable {f : Frame} (h : f.OneLine)
include h

theorem closeEntry : f.closeEntry.OneLine := by
  rw [Frame.closeEntry]
  split
  · next e he =>
    obtain ⟨settings, entries, children⟩ := h.top
    exact ⟨.intro settings
      (List.forall_mem_append.2 ⟨entries, List.forall_mem_singleton.2 (h.entry e he)⟩) children,
      nofun⟩
  · exact h

theorem edit {name : String} (hname : Text.OneLine name) : (f.edit name).OneLine where
  top := h.closeEntry.top
  entry := by
    rintro e ⟨⟩
    exact .intro hname (List.forall_mem_nil _) (List.forall_mem_nil _)

theorem set {s : Setting String} (hs : ∀ v ∈ s.values, Text.OneLine v) : (f.set s).OneLine := by
  rw [Frame.set]
  split
  · next e he =>
    obtain ⟨name, settings, children⟩ := h.entry e he
    refine ⟨h.top, ?_⟩
    rintro e ⟨⟩
    exact .intro name (settings.append_singleton hs) children
  · obtain ⟨settings, entries, children⟩ := h.top
    exact ⟨.intro (settings.append_singleton hs) entries children, h.entry⟩

theorem attach {s : Section String} (hs : s.OneLine) : (f.attach s).OneLine := by
  rw [Frame.attach]
  split
  · next e he =>
    obtain ⟨name, settings, children⟩ := h.entry e he
    refine ⟨h.top, ?_⟩
    rintro e ⟨⟩
    exact .intro name settings
      (List.forall_mem_append.2 ⟨children, List.forall_mem_singleton.2 hs⟩)
  · obtain ⟨settings, entries, children⟩ := h.top
    exact ⟨.intro settings entries
      (List.forall_mem_append.2 ⟨children, List.forall_mem_singleton.2 hs⟩), h.entry⟩

end Frame.OneLine

namespace Reading

/-- No value that has been read holds a line feed. -/
structure OneLine (r : Reading) : Prop where
  stack : ∀ f ∈ r.stack, f.OneLine
  forest : ∀ s ∈ r.forest, s.OneLine

variable {r : Reading}

theorem OneLine.amend (h : r.OneLine) {f : Frame → Frame}
    (hf : ∀ frame : Frame, frame.OneLine → (f frame).OneLine) : (r.amend f).OneLine := by
  rw [Reading.amend]
  split
  · next heq =>
    obtain ⟨htop, hbelow⟩ := List.forall_mem_cons.1 (heq ▸ h.stack)
    exact ⟨List.forall_mem_cons.2 ⟨hf _ htop, hbelow⟩, h.forest⟩
  · exact h

theorem OneLine.pop (h : r.OneLine) : r.pop.OneLine := by
  rw [Reading.pop]
  split
  · next heq =>
    obtain ⟨htop, hrest⟩ := List.forall_mem_cons.1 (heq ▸ h.stack)
    obtain ⟨houter, hbelow⟩ := List.forall_mem_cons.1 hrest
    exact ⟨List.forall_mem_cons.2 ⟨houter.attach htop.closeEntry.top, hbelow⟩, h.forest⟩
  · next heq =>
    obtain ⟨htop, -⟩ := List.forall_mem_cons.1 (heq ▸ h.stack)
    exact ⟨List.forall_mem_nil _,
      List.forall_mem_append.2 ⟨h.forest, List.forall_mem_singleton.2 htop.closeEntry.top⟩⟩
  · exact h

theorem OneLine.apply (h : r.OneLine) {d : Directive} (hd : d.OneLine) : (r.apply d).OneLine := by
  cases d with
  | config path =>
    have hframe : Frame.OneLine { top := { path } } :=
      ⟨.intro (List.forall_mem_nil _) (List.forall_mem_nil _) (List.forall_mem_nil _), nofun⟩
    exact ⟨List.forall_mem_cons.2 ⟨hframe, h.stack⟩, h.forest⟩
  | edit name => exact h.amend fun f hf => hf.edit hd
  | set s => exact h.amend fun f hf => hf.set hd
  | next => exact h.amend fun f hf => hf.closeEntry
  | finish => exact h.pop
  | other => exact h

theorem OneLine.step (h : r.OneLine) {raw : String} (hraw : Text.OneLine raw) :
    (r.step raw).OneLine := h.apply (Directive.oneLine_ofLine hraw.trim)

theorem OneLine.run (h : r.OneLine) {lines : List String} (hlines : ∀ l ∈ lines, Text.OneLine l) :
    (r.run lines).OneLine := by
  induction lines generalizing r with
  | nil => exact h
  | cons l lines ih =>
    obtain ⟨hl, hlines⟩ := List.forall_mem_cons.1 hlines
    exact ih (h.step hl) hlines

theorem oneLine_closeAll {forest : List (Section String)} (hforest : ∀ s ∈ forest, s.OneLine)
    {top : Section String} (htop : top.OneLine) {fs : List Frame} (hfs : ∀ f ∈ fs, f.OneLine) :
    ∀ s ∈ closeAll forest top fs, s.OneLine := by
  induction fs generalizing top with
  | nil => exact List.forall_mem_append.2 ⟨hforest, List.forall_mem_singleton.2 htop⟩
  | cons f fs ih =>
    obtain ⟨hf, hfs⟩ := List.forall_mem_cons.1 hfs
    exact ih (hf.attach htop).closeEntry.top hfs

theorem OneLine.finish (h : r.OneLine) : ∀ s ∈ r.finish, s.OneLine := by
  rw [Reading.finish]
  split
  · exact h.forest
  · next heq =>
    obtain ⟨htop, hbelow⟩ := List.forall_mem_cons.1 (heq ▸ h.stack)
    exact oneLine_closeAll h.forest htop.closeEntry.top hbelow

end Reading

/-- **No value in the sections of a text holds a line feed.** -/
theorem oneLine_readForest (text : String) : ∀ s ∈ readForest text, s.OneLine := by
  have hstart : Reading.OneLine {} := ⟨List.forall_mem_nil _, List.forall_mem_nil _⟩
  exact (hstart.run fun _ h => Text.oneLine_of_mem_lines h).finish

end FirewallConfig.FortiOs
