import FirewallConfig.Proofs.PanOs.Records

/-!
# Proofs/PanOs/Collect — which lines of any text an entry is read from

A written entry is followed element by element in `Proofs/PanOs/Scan`; here the lines are those of any
text.  An entry that the scan has opened goes on to the line that closes the last open entry
(`run_of_closesLast`), or to the end of the text, and then nothing is read from it
(`config_run_of_not_closesLast`).
-/

namespace FirewallConfig.PanOs

/-! ## Where an entry ends -/

/-- The last of the lines closes the last of the open entries, `depth` being open before them. -/
def ClosesLast : Nat → List String → Prop
  | depth, [] => depth = 0
  | depth, line :: lines => depth ≠ 0 ∧ ClosesLast (depthAfter depth line) lines

instance decidableClosesLast : (depth : Nat) → (lines : List String) →
    Decidable (ClosesLast depth lines)
  | depth, [] => inferInstanceAs (Decidable (depth = 0))
  | depth, line :: lines =>
    have := decidableClosesLast (depthAfter depth line) lines
    inferInstanceAs (Decidable (depth ≠ 0 ∧ _))

theorem ClosesLast.eq_nil {ls : List String} (h : ClosesLast 0 ls) : ls = [] := by
  cases ls with
  | nil => rfl
  | cons l ls => exact absurd rfl h.1

theorem depthAfter_succ {depth : Nat} (hdepth : depth ≠ 0) {l : String} (hl : closes l ≤ 1) :
    depthAfter (depth + 1) l = depthAfter depth l + 1 := by
  rw [depthAfter, depthAfter]
  omega

/-- **With one more entry open, more lines are needed to close the last one**: those that close the
others, and lines that close one. -/
theorem closesLast_succ_append_iff {depth : Nat} {own : List String} (h : ClosesLast depth own)
    (hcloses : ∀ l ∈ own, closes l ≤ 1) {more : List String} :
    ClosesLast (depth + 1) (own ++ more) ↔ ClosesLast 1 more := by
  induction own generalizing depth with
  | nil =>
    obtain rfl : depth = 0 := h
    rfl
  | cons l own ih =>
    obtain ⟨hdepth, hrest⟩ := h
    obtain ⟨hl, hown⟩ := List.forall_mem_cons.1 hcloses
    rw [← ih hrest hown, List.cons_append, ClosesLast, depthAfter_succ hdepth hl]
    exact and_iff_right (Nat.succ_ne_zero depth)

theorem exists_append_of_closesLast_succ {depth : Nat} {own : List String} (h : ClosesLast depth own)
    (hcloses : ∀ l ∈ own, closes l ≤ 1) {after block rest : List String}
    (hsplit : own ++ after = block ++ rest) (hblock : ClosesLast (depth + 1) block) :
    ∃ more, block = own ++ more ∧ after = more ++ rest := by
  induction own generalizing depth block with
  | nil => exact ⟨block, rfl, hsplit⟩
  | cons l own ih =>
    obtain ⟨hdepth, hrest⟩ := h
    obtain ⟨hl, hown⟩ := List.forall_mem_cons.1 hcloses
    cases block with
    | nil => exact absurd hblock (Nat.succ_ne_zero depth)
    | cons m block =>
      obtain ⟨rfl, htail⟩ := List.cons.inj hsplit
      obtain ⟨more, rfl, hafter⟩ := ih hrest hown htail (depthAfter_succ hdepth hl ▸ hblock.2)
      exact ⟨more, rfl, hafter⟩

/-- The lines of a text are scanned without the blanks at their ends. -/
theorem trim_of_map_trim_lines_eq {text : String} {before ls : List String}
    (h : (Text.lines text).map Text.trim = before ++ ls) : ∀ l ∈ ls, Text.trim l = l := by
  intro l hl
  obtain ⟨raw, -, rfl⟩ := List.mem_map.1 (h ▸ List.mem_append_right before hl)
  exact Text.trim_trim raw

namespace Reading

theorem run_lines_of_map_trim_eq {text : String} {before ls : List String}
    (h : (Text.lines text).map Text.trim = before ++ ls) (r : Reading) :
    r.run (Text.lines text) = (r.run before).run ls := by
  rw [← run_map_trim, h, run_append]

/-- What is being collected does not count where an entry is taken in. -/
theorem takeEntry_entry (r : Reading) (e : Option (List String × Nat)) (ls : List String) :
    takeEntry { r with entry := e } ls = r.takeEntry ls := by
  unfold takeEntry
  cases r.area with
  | none => rfl
  | some a => cases (Block.ofLines ls).name <;> rfl

theorem step_of_entry {r : Reading} {before : List String} {depth : Nat} {line : String}
    (hentry : r.entry = some (before, depth)) (htrim : Text.trim line = line) :
    r.step line = if depthAfter depth line = 0 then r.takeEntry (line :: before).reverse
      else { r with entry := some (line :: before, depthAfter depth line) } := by
  rw [step, hentry, htrim]

/-- An entry that is being collected is open. -/
theorem depth_ne_zero_run (ls : List String) :
    ∀ e ∈ (run {} ls).entry, e.2 ≠ 0 := by
  have hstep (r : Reading) (raw : String) (hr : ∀ e ∈ r.entry, e.2 ≠ 0) :
      ∀ e ∈ (r.step raw).entry, e.2 ≠ 0 := by
    have htake (ls : List String) : ∀ e ∈ (r.takeEntry ls).entry, e.2 ≠ 0 := by
      rw [takeEntry]
      split <;> exact forall_mem_none
    rw [step]
    split
    · rw [idleLine]
      split
      · exact hr
      · exact hr
      · split
        · exact hr
        · split
          · exact hr
          · split
            · exact htake _
            · exact forall_mem_some Nat.one_ne_zero
    · dsimp only
      split
      · exact htake _
      · next hopen => exact forall_mem_some hopen
  exact List.foldlRecOn ls step (b := {}) forall_mem_none fun r hr raw _ => hstep r raw hr

/-- **An entry that is open ends with the line that closes the last one**, and is taken in with all
lines up to there. -/
theorem run_of_closesLast {r : Reading} {before : List String} {depth : Nat} {ls : List String}
    (hentry : r.entry = some (before, depth)) (htrim : ∀ l ∈ ls, Text.trim l = l)
    (hdepth : depth ≠ 0) (h : ClosesLast depth ls) :
    r.run ls = r.takeEntry (before.reverse ++ ls) := by
  induction ls generalizing r before depth with
  | nil => exact absurd h hdepth
  | cons l ls ih =>
    obtain ⟨hl, hls⟩ := List.forall_mem_cons.1 htrim
    rw [run_cons, step_of_entry hentry hl]
    by_cases hlast : depthAfter depth l = 0
    · have hnil : ls = [] := (hlast ▸ h.2 : ClosesLast 0 ls).eq_nil
      rw [if_pos hlast, hnil, run_nil, List.reverse_cons]
    · rw [if_neg hlast, ih rfl hls hlast h.2, takeEntry_entry, List.reverse_cons, List.append_assoc,
        List.singleton_append]

/-- **Nothing is read from an entry that does not end.** -/
theorem config_run_of_not_closesLast {r : Reading} {before : List String} {depth : Nat}
    {ls : List String} (hentry : r.entry = some (before, depth))
    (htrim : ∀ l ∈ ls, Text.trim l = l)
    (h : ∀ block rest, ls = block ++ rest → ¬ ClosesLast depth block) :
    (r.run ls).config = r.config := by
  induction ls generalizing r before depth with
  | nil => rfl
  | cons l ls ih =>
    obtain ⟨hl, hls⟩ := List.forall_mem_cons.1 htrim
    have hdepth : depth ≠ 0 := h [] (l :: ls) rfl
    have hrest : ∀ block rest, ls = block ++ rest → ¬ ClosesLast (depthAfter depth l) block :=
      fun block rest hls hblock => h (l :: block) rest (congrArg _ hls) ⟨hdepth, hblock⟩
    have hopen : depthAfter depth l ≠ 0 := hrest [] ls rfl
    rw [run_cons, step_of_entry hentry hl, if_neg hopen, ih rfl hls hrest]

/-- A line that opens an entry, and leaves it open, in an area. -/
theorem step_of_entryName {r : Reading} {a : Area} {line name : String} (harea : r.area = some a)
    (hentry : r.entry = none) (htrim : Text.trim line = line) (hname : entryName line = some name)
    (hself : isSelfClosed line = false) (hcloses : Text.holds (closeTag "entry") line = false) :
    r.step line = { r with entry := some ([line], 1) } := by
  have hopened : Area.opened? line = none := by
    refine List.find?_eq_none.2 fun b _ heq => ?_
    have hnone : entryName (openTag b.tag) = none :=
      Mark.entryName_line (m := .opening b.tag) (Mark.isName_tag b)
    rw [beq_iff_eq.1 heq, hnone] at hname
    cases hname
  have hclosed : a.isClosedBy line = false := by
    refine Bool.eq_false_iff.2 fun heq => ?_
    have hnone : entryName (closeTag a.tag) = none :=
      Mark.entryName_line (m := .closing a.tag) (Mark.isName_tag a).1
    rw [beq_iff_eq.1 heq, hnone] at hname
    cases hname
  rw [step, hentry, htrim]
  dsimp only
  rw [idleLine, hopened, harea]
  simp only [hclosed, hname, hself, hcloses, Option.isNone_some, Bool.or_self, Bool.false_eq_true,
    if_false]

end Reading

/-- Lines that are written are read one by one, and then the interfaces are joined with their zones. -/
theorem read_unlines {ls : List String} (h : ∀ l ∈ ls, Text.OneLine l) :
    read (Text.unlines ls) = { (Reading.run {} ls).config with
      interfaces := (Reading.run {} ls).config.interfaces.map
        (joinZone (Reading.run {} ls).config.zones) } := by
  rw [PanOs.read, Reading.run_lines_unlines _ h]

end FirewallConfig.PanOs
