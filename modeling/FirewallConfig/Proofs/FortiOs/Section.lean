import FirewallConfig.FortiOs.Section

/-!
# Proofs/FortiOs/Section — the directives of a section add it

A section is read as a run of a stack machine over directives.  `Section.directives` lists those of
a section, and `foldl_apply_directives` says that they add that section, whole, to whatever is open:
to the innermost open entry or section, or to the sections that are complete.
-/

namespace FirewallConfig.FortiOs

/-! ## The directives of a section -/

mutual

/-- The directives that say a section, in the order in which it is written. -/
def Section.directives : Section String → List Directive
  | ⟨path, settings, entries, children⟩ =>
    .config path
      :: (settings.map .set ++ directivesOfSections children ++ directivesOfEntries entries
        ++ [.finish])

/-- The directives that say an entry. -/
def Entry.directives : Entry String → List Directive
  | ⟨name, settings, children⟩ =>
    .edit name :: (settings.map .set ++ directivesOfSections children ++ [.next])

/-- The directives that say some sections. -/
def directivesOfSections : List (Section String) → List Directive
  | [] => []
  | s :: ss => s.directives ++ directivesOfSections ss

/-- The directives that say some entries. -/
def directivesOfEntries : List (Entry String) → List Directive
  | [] => []
  | e :: es => e.directives ++ directivesOfEntries es

end

namespace Reading

/-- A whole section is added to what is open, or else to the sections that are complete. -/
def add (r : Reading) (s : Section String) : Reading :=
  match r.stack with
  | [] => { r with forest := r.forest ++ [s] }
  | f :: fs => { r with stack := f.attach s :: fs }

/-- The innermost open section has these parts, and perhaps an open entry. -/
def opened (r : Reading) (top : Section String) (entry : Option (Entry String)) : Reading :=
  { r with stack := ⟨top, entry⟩ :: r.stack }

theorem apply_finish (r : Reading) (top : Section String) :
    (r.opened top none).apply .finish = r.add top := by
  obtain ⟨stack, forest⟩ := r
  cases stack <;> rfl

/-! ### Settings -/

theorem foldl_apply_settings (r : Reading) (path : String) (settings ss : List (Setting String))
    (entries : List (Entry String)) (children : List (Section String)) :
    (ss.map Directive.set).foldl apply (r.opened ⟨path, settings, entries, children⟩ none)
      = r.opened ⟨path, settings ++ ss, entries, children⟩ none := by
  induction ss generalizing settings with
  | nil => rw [List.append_nil]; rfl
  | cons s ss ih => rw [List.append_cons]; exact ih (settings ++ [s])

theorem foldl_apply_entrySettings (r : Reading) (top : Section String) (name : String)
    (settings ss : List (Setting String)) (children : List (Section String)) :
    (ss.map Directive.set).foldl apply (r.opened top (some ⟨name, settings, children⟩))
      = r.opened top (some ⟨name, settings ++ ss, children⟩) := by
  induction ss generalizing settings with
  | nil => rw [List.append_nil]; rfl
  | cons s ss ih => rw [List.append_cons]; exact ih (settings ++ [s])

theorem foldl_add_children (r : Reading) (path : String) (settings : List (Setting String))
    (entries : List (Entry String)) (children ss : List (Section String)) :
    ss.foldl add (r.opened ⟨path, settings, entries, children⟩ none)
      = r.opened ⟨path, settings, entries, children ++ ss⟩ none := by
  induction ss generalizing children with
  | nil => rw [List.append_nil]; rfl
  | cons s ss ih => rw [List.append_cons]; exact ih (children ++ [s])

theorem foldl_add_entryChildren (r : Reading) (top : Section String) (name : String)
    (settings : List (Setting String)) (children ss : List (Section String)) :
    ss.foldl add (r.opened top (some ⟨name, settings, children⟩))
      = r.opened top (some ⟨name, settings, children ++ ss⟩) := by
  induction ss generalizing children with
  | nil => rw [List.append_nil]; rfl
  | cons s ss ih => rw [List.append_cons]; exact ih (children ++ [s])

end Reading

/-! ### Sections and entries -/

mutual

/-- **The directives of a section add it, whole**, to whatever is open. -/
theorem foldl_apply_directives :
    (s : Section String) → (r : Reading) → s.directives.foldl Reading.apply r = r.add s
  | ⟨path, settings, entries, children⟩, r => by
    have hopen : r.apply (.config path) = r.opened ⟨path, [], [], []⟩ none := rfl
    rw [Section.directives, List.foldl_cons, List.foldl_append, List.foldl_append,
      List.foldl_append, hopen, Reading.foldl_apply_settings, List.nil_append,
      foldl_apply_directivesOfSections children, Reading.foldl_add_children, List.nil_append,
      foldl_apply_directivesOfEntries entries, List.nil_append, List.foldl_cons, List.foldl_nil,
      Reading.apply_finish]

theorem foldl_apply_directivesOfSections :
    (ss : List (Section String)) → (r : Reading) →
      (directivesOfSections ss).foldl Reading.apply r = ss.foldl Reading.add r
  | [], _ => rfl
  | s :: ss, r => by
    rw [directivesOfSections, List.foldl_append, foldl_apply_directives s,
      foldl_apply_directivesOfSections ss, List.foldl_cons]

/-- The directives of entries add them to the section around them. -/
theorem foldl_apply_directivesOfEntries :
    (es : List (Entry String)) → (r : Reading) → {path : String} →
      {settings : List (Setting String)} → {entries : List (Entry String)} →
      {children : List (Section String)} →
      (directivesOfEntries es).foldl Reading.apply
          (r.opened ⟨path, settings, entries, children⟩ none)
        = r.opened ⟨path, settings, entries ++ es, children⟩ none
  | [], _, _, _, _, _ => by rw [List.append_nil]; rfl
  | ⟨name, own, below⟩ :: es, r, path, settings, entries, children => by
    have hedit : (r.opened ⟨path, settings, entries, children⟩ none).apply (.edit name)
        = r.opened ⟨path, settings, entries, children⟩ (some ⟨name, [], []⟩) := rfl
    have hnext : (r.opened ⟨path, settings, entries, children⟩ (some ⟨name, own, below⟩)).apply .next
        = r.opened ⟨path, settings, entries ++ [⟨name, own, below⟩], children⟩ none := rfl
    rw [directivesOfEntries, Entry.directives, List.foldl_append, List.foldl_cons,
      List.foldl_append, List.foldl_append, hedit, Reading.foldl_apply_entrySettings,
      List.nil_append, foldl_apply_directivesOfSections below, Reading.foldl_add_entryChildren,
      List.nil_append, List.foldl_cons, List.foldl_nil, hnext,
      foldl_apply_directivesOfEntries es, List.append_assoc, List.singleton_append]

end

end FirewallConfig.FortiOs
