import FirewallConfig.Proofs.FortiOs.Section
import FirewallConfig.Proofs.FortiOs.Word
import FirewallConfig.Proofs.Text.Cut

/-!
# Proofs/FortiOs/Line — written sections are read back

A written line says one directive, whatever its values hold: the keyword and the key in front of
them are words of their own (`directive_line`).  So the lines of a section say the directives of
what it is read back as.  `Lays` ties lines to the sections that they hold; it is closed under
concatenation, and `readForest_unlines` reads such lines.
-/

namespace FirewallConfig.FortiOs

/-! ## What a line says -/

/-- What a line says, the blanks at its ends aside. -/
def directive (line : String) : Directive := Directive.ofLine (Text.trim line)

/-- The word begins a directive: it is a word of its own, and no remark. -/
def IsKeyword (word : String) : Prop := IsBareWord word.toList ∧ '#' ∉ word.toList

instance (word : String) : Decidable (IsKeyword word) :=
  inferInstanceAs (Decidable (IsBareWord word.toList ∧ '#' ∉ word.toList))

/-- A line that begins with a keyword says what its words say. -/
theorem directive_indent {word : String} (hword : IsKeyword word) (level : Nat)
    (ts : List String) :
    directive (indent level (word :: ts))
      = Directive.ofWords (word :: splitWords (Text.trim (Text.unwords ts))) := by
  have hwords : splitWords (Text.trim (Text.unwords (word :: ts)))
      = word :: splitWords (Text.trim (Text.unwords ts)) :=
    splitWords_trim_unwords_cons (v := .bare word) hword.1 ts
  have hsolid : Chars.Solid word.toList :=
    Chars.solid_of_forall hword.1.1 fun c hc => (hword.1.2 c hc).1
  have hline : ∃ rest, (Text.trim (Text.unwords (word :: ts))).toList = word.toList ++ rest := by
    cases ts with
    | nil =>
      exact ⟨[], by rw [Text.unwords, String.intercalate_singleton, Text.toList_trim,
        hsolid.trim_eq, List.append_nil]⟩
    | cons t ts =>
      refine ⟨Chars.trimEnd (" ".toList ++ (" ".intercalate (t :: ts)).toList), ?_⟩
      rw [Text.unwords, String.intercalate_cons_cons, Text.toList_trim, String.toList_append,
        String.toList_append, List.append_assoc, hsolid.trim_append]
  rw [directive, indent, Text.trim_blanks_append]
  generalize Text.trim (Text.unwords (word :: ts)) = line at hline hwords ⊢
  obtain ⟨rest, hrest⟩ := hline
  obtain ⟨c, cs, hcons⟩ := List.exists_cons_of_ne_nil hword.1.1
  have hempty : line.isEmpty = false := by
    rw [String.isEmpty_eq_false_iff]
    rintro rfl
    simp [hcons] at hrest
  have hremark : Text.beginsWith "#" line = false := by
    rw [Bool.eq_false_iff]
    intro h
    obtain ⟨tail, htail⟩ := Text.beginsWith_iff.1 h
    have hhash : "#".toList = ['#'] := rfl
    rw [htail, hcons, hhash] at hrest
    have hc : '#' = c := (List.cons.inj hrest).1
    refine hword.2 ?_
    rw [hcons, hc]
    exact List.mem_cons_self
  rw [Directive.ofLine, hempty, hremark, hwords]
  rfl

/-- A remark says nothing. -/
theorem directive_remark {line : String} (h : ∃ cs, line.toList = '#' :: cs) :
    directive line = .other := by
  obtain ⟨cs, hcs⟩ := h
  have hsolid : Chars.Solid ['#'] :=
    Chars.solid_of_forall (List.cons_ne_nil _ _) (List.forall_mem_singleton.2 (by decide))
  have hremark : Text.beginsWith "#" (Text.trim line) = true := by
    refine Text.beginsWith_iff.2 ⟨Chars.trimEnd cs, ?_⟩
    rw [Text.toList_trim, hcs]
    exact hsolid.trim_append cs
  rw [directive, Directive.ofLine, hremark, Bool.or_true]
  rfl

theorem directive_empty : directive "" = .other := by decide

/-! ## What a section is read back as -/

/-- What a setting is read back as. -/
def Setting.readBack (s : Setting Value) : Setting String where
  key := s.key.text
  values := readValues s.values

mutual

/-- What a section is read back as. -/
def Section.readBack : Section Value → Section String
  | ⟨path, settings, entries, children⟩ =>
    ⟨path.text, settings.map Setting.readBack, readBackEntries entries, readBackSections children⟩

/-- What an entry is read back as. -/
def Entry.readBack : Entry Value → Entry String
  | ⟨name, settings, children⟩ =>
    ⟨name.text, settings.map Setting.readBack, readBackSections children⟩

/-- What sections are read back as. -/
def readBackSections : List (Section Value) → List (Section String)
  | [] => []
  | s :: ss => s.readBack :: readBackSections ss

/-- What entries are read back as. -/
def readBackEntries : List (Entry Value) → List (Entry String)
  | [] => []
  | e :: es => e.readBack :: readBackEntries es

end

theorem readBackEntries_eq_map (es : List (Entry Value)) :
    readBackEntries es = es.map Entry.readBack := by
  induction es with
  | nil => rfl
  | cons e es ih => rw [readBackEntries, ih, List.map_cons]

/-! ## Sections whose lines can be told apart -/

/-- The value is read back as it is where it stands as a path. -/
def Value.IsPath (v : Value) : Prop := readValues [v] ≠ [] ∧ Text.unwords (readValues [v]) = v.text

theorem Value.isPath_bare {path : String} (ws : List String) (hne : ws ≠ [])
    (hws : ∀ w ∈ ws, IsBareWord w.toList) (h : path = Text.unwords ws) :
    (Value.bare path).IsPath := by
  have hread : readValues [.bare path] = ws := by
    have hwords : readValues (ws.map .bare) = ws := by
      rw [readValues_eq (List.forall_mem_map.2 hws), List.map_map]
      exact List.map_id ws
    have hspelling : (ws.map Value.bare).map Value.spelling = ws := by
      rw [List.map_map]
      exact List.map_id ws
    rw [readValues, hspelling] at hwords
    rw [readValues, List.map_singleton, Value.spelling, h, Text.unwords, String.intercalate_singleton]
    exact hwords
  exact ⟨hread ▸ hne, by rw [hread, h]; rfl⟩

/-- The key of a setting is a word, and nothing in it holds a line feed. -/
structure Setting.Regular (s : Setting Value) : Prop where
  key : s.key.IsWord
  oneLine : ∀ v ∈ s.key :: s.values, Text.OneLine v.text

mutual

/-- Paths, names and keys are read back as they are, and nothing holds a line feed. -/
inductive Section.Regular : Section Value → Prop
  | mk {path : Value} {settings : List (Setting Value)} {entries : List (Entry Value)}
      {children : List (Section Value)} (hpath : path.IsPath) (hone : Text.OneLine path.text)
      (hsettings : ∀ s ∈ settings, s.Regular) (hentries : ∀ e ∈ entries, Entry.Regular e)
      (hchildren : ∀ s ∈ children, Section.Regular s) :
      Section.Regular ⟨path, settings, entries, children⟩

/-- Names and keys are read back as they are, and nothing holds a line feed. -/
inductive Entry.Regular : Entry Value → Prop
  | mk {name : Value} {settings : List (Setting Value)} {children : List (Section Value)}
      (hname : name.IsWord) (hone : Text.OneLine name.text)
      (hsettings : ∀ s ∈ settings, s.Regular) (hchildren : ∀ s ∈ children, Section.Regular s) :
      Entry.Regular ⟨name, settings, children⟩

end

/-! ### No line is broken -/

theorem Value.oneLine_spelling {v : Value} (hv : Text.OneLine v.text) :
    Text.OneLine v.spelling := by
  cases v with
  | bare text => exact hv
  | quoted text =>
    rw [spelling, FortiOs.quoted, Text.oneLine_ofList, escape]
    simp only [List.mem_cons, List.mem_append, List.mem_flatMap, List.not_mem_nil, or_false,
      not_or, not_exists, not_and]
    refine ⟨by decide, fun c hc h => ?_, by decide⟩
    split at h
    · rcases List.mem_cons.1 h with h | h
      · exact absurd h (by decide)
      · exact hv (List.mem_singleton.1 h ▸ hc)
    · exact hv (List.mem_singleton.1 h ▸ hc)

theorem oneLine_indent {ts : List String} (h : ∀ t ∈ ts, Text.OneLine t) (level : Nat) :
    Text.OneLine (indent level ts) := by
  have hblanks : Text.OneLine ("".pushn ' ' (4 * level)) := by
    rw [Text.OneLine, Text.toList_blanks]
    simp
  rw [indent, Text.oneLine_append]
  exact ⟨hblanks, Text.oneLine_unwords h⟩

theorem Setting.Regular.oneLine_line {s : Setting Value} (hs : s.Regular) (level : Nat) :
    Text.OneLine (s.line level) := by
  refine oneLine_indent (fun t ht => ?_) level
  rcases List.mem_cons.1 ht with rfl | ht
  · decide
  · rw [← List.map_cons (f := Value.spelling)] at ht
    obtain ⟨v, hv, rfl⟩ := List.mem_map.1 ht
    exact Value.oneLine_spelling (hs.oneLine v hv)

/-! ### Every line says its directive -/

theorem directive_line {s : Setting Value} (hs : s.key.IsWord) (level : Nat) :
    directive (s.line level) = .set s.readBack := by
  rw [Setting.line, directive_indent (by decide), splitWords_trim_unwords_cons hs]
  rfl

theorem directive_config {path : Value} (hpath : path.IsPath) (level : Nat) :
    directive (indent level ["config", path.spelling]) = .config path.text := by
  obtain ⟨w, ws, hws⟩ := List.exists_cons_of_ne_nil hpath.1
  have hread : splitWords (Text.trim (Text.unwords [path.spelling])) = w :: ws := hws
  have hjoin : Text.unwords (w :: ws) = path.text := hws ▸ hpath.2
  rw [directive_indent (by decide), hread, ← hjoin]
  rfl

theorem directive_edit {name : Value} (hname : name.IsWord) (level : Nat) :
    directive (indent level ["edit", name.spelling]) = .edit name.text := by
  rw [directive_indent (by decide), splitWords_trim_unwords_cons hname]
  rfl

theorem directive_next (level : Nat) : directive (indent level ["next"]) = .next := by
  rw [directive_indent (by decide)]
  rfl

theorem directive_end (level : Nat) : directive (indent level ["end"]) = .finish := by
  rw [directive_indent (by decide)]
  rfl

/-- The lines of settings say them. -/
theorem map_directive_settings {settings : List (Setting Value)} (h : ∀ s ∈ settings, s.Regular)
    (level : Nat) :
    (settings.map (Setting.line level)).map directive
      = (settings.map Setting.readBack).map .set := by
  rw [List.map_map, List.map_map]
  refine List.map_congr_left fun s hs => ?_
  rw [Function.comp_apply, Function.comp_apply, directive_line (h s hs).key]

mutual

/-- **The lines of a section say what it is read back as.** -/
theorem map_directive_lines :
    (s : Section Value) → s.Regular → (level : Nat) →
      (s.lines level).map directive = s.readBack.directives
  | ⟨path, settings, entries, children⟩, .mk hpath _ hsettings hentries hchildren, level => by
    rw [Section.lines, Section.readBack, Section.directives, List.map_cons, List.map_append,
      List.map_append, List.map_append, directive_config hpath, map_directive_settings hsettings,
      map_directive_sectionLines children hchildren, map_directive_entryLines entries hentries,
      List.map_singleton, directive_end]

theorem map_directive_entryLines :
    (es : List (Entry Value)) → (∀ e ∈ es, e.Regular) → (level : Nat) →
      (entryLines level es).map directive = directivesOfEntries (readBackEntries es)
  | [], _, _ => rfl
  | ⟨name, settings, children⟩ :: es, h, level => by
    obtain ⟨⟨hname, -, hsettings, hchildren⟩, hes⟩ := List.forall_mem_cons.1 h
    rw [entryLines, Entry.lines, readBackEntries, directivesOfEntries, Entry.readBack,
      Entry.directives, List.map_append, List.map_cons, List.map_append, List.map_append,
      directive_edit hname, map_directive_settings hsettings,
      map_directive_sectionLines children hchildren, List.map_singleton, directive_next,
      map_directive_entryLines es hes]

theorem map_directive_sectionLines :
    (ss : List (Section Value)) → (∀ s ∈ ss, s.Regular) → (level : Nat) →
      (sectionLines level ss).map directive = directivesOfSections (readBackSections ss)
  | [], _, _ => rfl
  | s :: ss, h, level => by
    obtain ⟨hs, hss⟩ := List.forall_mem_cons.1 h
    rw [sectionLines, readBackSections, directivesOfSections, List.map_append,
      map_directive_lines s hs, map_directive_sectionLines ss hss]

end

mutual

/-- No line of a section is broken by what stands in it. -/
theorem oneLine_lines :
    (s : Section Value) → s.Regular → (level : Nat) → ∀ l ∈ s.lines level, Text.OneLine l
  | ⟨path, settings, entries, children⟩, .mk _ hone hsettings hentries hchildren, level => by
    have hopen : Text.OneLine (indent level ["config", path.spelling]) := by
      refine oneLine_indent ?_ level
      simpa using ⟨by decide, Value.oneLine_spelling hone⟩
    have hclose : Text.OneLine (indent level ["end"]) := oneLine_indent (by decide) level
    rw [Section.lines]
    simp only [List.forall_mem_cons, List.forall_mem_append, List.forall_mem_map]
    exact ⟨hopen, ⟨⟨fun s hs => (hsettings s hs).oneLine_line _,
      oneLine_sectionLines children hchildren _⟩, oneLine_entryLines entries hentries _⟩, hclose,
      List.forall_mem_nil _⟩

theorem oneLine_entryLines :
    (es : List (Entry Value)) → (∀ e ∈ es, e.Regular) → (level : Nat) →
      ∀ l ∈ entryLines level es, Text.OneLine l
  | [], _, _ => List.forall_mem_nil _
  | ⟨name, settings, children⟩ :: es, h, level => by
    obtain ⟨⟨-, hone, hsettings, hchildren⟩, hes⟩ := List.forall_mem_cons.1 h
    have hopen : Text.OneLine (indent level ["edit", name.spelling]) := by
      refine oneLine_indent ?_ level
      simpa using ⟨by decide, Value.oneLine_spelling hone⟩
    have hclose : Text.OneLine (indent level ["next"]) := oneLine_indent (by decide) level
    rw [entryLines, Entry.lines]
    simp only [List.forall_mem_cons, List.forall_mem_append, List.forall_mem_map]
    exact ⟨⟨hopen, ⟨fun s hs => (hsettings s hs).oneLine_line _,
      oneLine_sectionLines children hchildren _⟩, hclose, List.forall_mem_nil _⟩,
      oneLine_entryLines es hes level⟩

theorem oneLine_sectionLines :
    (ss : List (Section Value)) → (∀ s ∈ ss, s.Regular) → (level : Nat) →
      ∀ l ∈ sectionLines level ss, Text.OneLine l
  | [], _, _ => List.forall_mem_nil _
  | s :: ss, h, level => by
    obtain ⟨hs, hss⟩ := List.forall_mem_cons.1 h
    rw [sectionLines, List.forall_mem_append]
    exact ⟨oneLine_lines s hs level, oneLine_sectionLines ss hss level⟩

end

/-! ## Lines that hold sections -/

/-- The lines hold these sections, one after the other: to read them is to add the sections to
whatever is open. -/
structure Lays (lines : List String) (forest : List (Section String)) : Prop where
  oneLine : ∀ l ∈ lines, Text.OneLine l
  adds : ∀ r, (lines.map directive).foldl Reading.apply r = forest.foldl Reading.add r

/-- Lines that are written are read one by one. -/
theorem Reading.run_lines_unlines (r : Reading) {lines : List String}
    (h : ∀ l ∈ lines, Text.OneLine l) :
    r.run (Text.lines (Text.unlines lines)) = r.run lines := by
  have hstep (r : Reading) (l : String) : r.step (Text.withoutReturn l) = r.step l := by
    rw [step, Text.trim_withoutReturn, step]
  rw [run, Text.lines_unlines_map h, List.foldl_map]
  simp only [hstep]
  rfl

theorem readForest_unlines_eq {lines : List String} (h : ∀ l ∈ lines, Text.OneLine l) :
    readForest (Text.unlines lines) = (Reading.run {} lines).finish := by
  rw [readForest, Reading.run_lines_unlines _ h]

/-- **Lines that hold sections are read as these sections.** -/
theorem readForest_unlines {lines : List String} {forest : List (Section String)}
    (h : Lays lines forest) : readForest (Text.unlines lines) = forest := by
  have hadd (fs : List (Section String)) :
      forest.foldl Reading.add { forest := fs } = { forest := fs ++ forest } := by
    clear h
    induction forest generalizing fs with
    | nil => rw [List.append_nil]; rfl
    | cons s ss ih => rw [List.foldl_cons, List.append_cons, ← ih]; rfl
  have hrun : Reading.run {} lines = (lines.map directive).foldl Reading.apply {} := by
    rw [List.foldl_map]
    rfl
  rw [readForest_unlines_eq h.oneLine, hrun, h.adds, hadd]
  rfl

namespace Lays

theorem nil : Lays [] [] := ⟨List.forall_mem_nil _, fun _ => rfl⟩

theorem append {ls ms : List String} {ss ts : List (Section String)} (hs : Lays ls ss)
    (ht : Lays ms ts) : Lays (ls ++ ms) (ss ++ ts) where
  oneLine := List.forall_mem_append.2 ⟨hs.oneLine, ht.oneLine⟩
  adds := fun r => by rw [List.map_append, List.foldl_append, List.foldl_append, hs.adds, ht.adds]

/-- Lines that hold no section may follow. -/
theorem append_quiet {ls ms : List String} {ss : List (Section String)} (hs : Lays ls ss)
    (ht : Lays ms []) : Lays (ls ++ ms) ss := by
  simpa using hs.append ht

/-- Lines that say nothing hold no section. -/
theorem quiet {ls : List String} (hone : ∀ l ∈ ls, Text.OneLine l)
    (h : ∀ l ∈ ls, directive l = .other) : Lays ls [] where
  oneLine := hone
  adds := fun r => by
    induction ls with
    | nil => rfl
    | cons l ls ih =>
      obtain ⟨hl, hls⟩ := List.forall_mem_cons.1 h
      rw [List.map_cons, List.foldl_cons, hl]
      exact ih (List.forall_mem_cons.1 hone).2 hls

/-- An empty line holds no section. -/
theorem empty : Lays [""] [] :=
  quiet (by decide) fun l hl => by rw [List.mem_singleton.1 hl, directive_empty]

/-- The lines of a section hold it. -/
theorem lines {s : Section Value} (hs : s.Regular) (level : Nat) :
    Lays (s.lines level) [s.readBack] where
  oneLine := oneLine_lines s hs level
  adds := fun r => by rw [map_directive_lines s hs, foldl_apply_directives]; rfl

end Lays

end FirewallConfig.FortiOs
