import FirewallConfig.Proofs.Cisco.Header
import FirewallConfig.Proofs.Cisco.Step
import FirewallConfig.Proofs.Cisco.Tunnels

/-!
# Proofs/Cisco/Records — records that are stored behind the others

A block builds a record line by line, and stores it when it closes.  Records of one kind
(`RecordKind`) are found among the blocks by their header.  A line that is no such header changes
nothing of them where none is open (`records_step_of_not_isHeader`), so the records of a text are what
its lines add (`Adds`), and those of a written text are what the lines of its groups and of its
services add (`stored_write`).
-/

namespace FirewallConfig.Cisco

open Text

/-- What has been read of the records of one kind. -/
structure Records (α : Type) where
  stored : List α
  /-- The record whose block is open, if one is. -/
  opened : Option α

/-- A kind of records that blocks build, and that are stored behind the others. -/
structure RecordKind (α : Type) where
  stored : Kept → List α
  /-- The record that a block builds, if it is of this kind. -/
  built? : Block → Option α
  /-- The record with one more line, whose words are given too. -/
  line : α → Line → List String → α
  /-- The words that a header begins with. -/
  first : String
  second : String
  /-- What the header of a name is read as. -/
  directive : String → Directive
  /-- The record whose block has no line yet. -/
  new : String → α
  first_head : first.toList.head? = some 'o'
  isWord_first : IsWord first
  isWord_second : IsWord second
  /-- No header is that of an address object. -/
  ne_object : "object" ≠ first ∨ "network" ≠ second
  stored_start : ∀ flavor, stored (Reading.start flavor).kept = []
  stored_store : ∀ (b : Block) (r : Reading),
    stored (r.amend (Reading.store b)).kept = stored r.kept ++ (built? b).toList
  built?_builder? : ∀ b : Block, b.builder?.bind built? = built? b
  built?_take : ∀ (b : Block) (l : Line), built? (b.take l) = (built? b).map (line · l l.words)
  built?_directive : ∀ name, (directive name).builder?.bind built? = some (new name)
  enables_directive : ∀ (flavor : Flavor) name, flavor.enables (directive name) = true
  readWords_header : ∀ l name, Directive.readWords l [first, second, name] = directive name
  /-- Only headers open blocks of this kind. -/
  words_eq : ∀ {d : Directive} {ws : List String} {a : α}, d.IsReadFrom ws →
    d.builder?.bind built? = some a → ∃ name rest, ws = first :: second :: name :: rest

variable {α : Type} (k : RecordKind α)

/-- What the reading knows of the records of a kind. -/
def Reading.records (r : Reading) : Records α := ⟨k.stored r.kept, r.block.bind k.built?⟩

namespace RecordKind

/-! ## One line -/

theorem records_eq (r : Reading) : r.records k = ⟨k.stored r.kept, r.builder?.bind k.built?⟩ := by
  have hopened : r.block.bind k.built? = r.builder?.bind k.built? := by
    rw [Reading.builder?]
    cases r.block with
    | none => rfl
    | some b => exact (k.built?_builder? b).symm
  rw [Reading.records, hopened]

theorem stored_closeBlock (r : Reading) :
    k.stored r.closeBlock.kept = k.stored r.kept ++ (r.block.bind k.built?).toList := by
  rw [Reading.closeBlock]
  cases r.block with
  | none => exact (List.append_nil _).symm
  | some b => exact k.stored_store b r

/-- A header has no exclamation mark. -/
theorem beginsWith_first : beginsWith "!" k.first = false := by
  rw [Bool.eq_false_iff]
  intro hbegins
  obtain ⟨rest, hlist⟩ := beginsWith_iff.1 hbegins
  exact absurd (hlist ▸ k.first_head) (by simp)

section Step

variable {k} {r : Reading} {before : List α}

/-- **The block of a record stores the record** when it closes; any other block stores none. -/
theorem records_closeBlock {opened : Option α} (h : r.records k = ⟨before, opened⟩) :
    r.closeBlock.records k = ⟨before ++ opened.toList, none⟩ := by
  have hstored : k.stored r.kept = before := congrArg Records.stored h
  have hopened : r.block.bind k.built? = opened := congrArg Records.opened h
  rw [Reading.records, Reading.block_closeBlock, k.stored_closeBlock, hopened, hstored]
  rfl

/-- Where none is open, closing the block changes nothing. -/
theorem records_closeBlock_none (h : r.records k = ⟨before, none⟩) :
    r.closeBlock.records k = ⟨before, none⟩ := by
  have hclose := records_closeBlock h
  rwa [Option.toList_none, List.append_nil] at hclose

/-- A line that is no header of the kind changes nothing where no record is open. -/
theorem records_step_of_not_isHeader {raw : String} (hraw : ¬ IsHeader k.first k.second raw)
    (h : r.records k = ⟨before, none⟩) : (r.step raw).records k = ⟨before, none⟩ := by
  have hclosed := records_closeBlock_none h
  have hmoves := Reading.moves_step r raw
  generalize r.step raw = r' at hmoves ⊢
  cases hmoves with
  | stay => exact h
  | close => exact hclosed
  | @blockLine b hblock =>
    obtain ⟨hkept, hbuilder⟩ := Reading.kept_blockLine hblock (Line.ofText raw)
    have hb : k.built? b = none := by
      have hopened : r.block.bind k.built? = none := congrArg Records.opened h
      rwa [hblock, Option.bind_some] at hopened
    have hnone : (b.builder?.map (Block.take (Line.ofText raw))).bind k.built? = none := by
      rw [← k.built?_builder? b] at hb
      cases hbuild : b.builder? with
      | none => rfl
      | some b' =>
        rw [hbuild, Option.bind_some] at hb
        rw [Option.map_some, Option.bind_some, k.built?_take, hb, Option.map_none]
    rw [records_eq, hkept, hbuilder, hnone, ← h]
    exact congrArg (Records.mk _) (congrArg Records.opened h).symm
  | @apply d hindented _ hread _ =>
    obtain ⟨hkept, hbuilder⟩ := Reading.kept_apply (Reading.block_closeBlock r) d
    have hnone : d.builder?.bind k.built? = none := by
      cases hbuilt : d.builder?.bind k.built? with
      | none => rfl
      | some a =>
        obtain ⟨name, rest, hwords⟩ := k.words_eq hread hbuilt
        exact absurd ⟨hindented, name, rest, hwords⟩ hraw
    rw [records_eq, hkept, hbuilder, hnone, ← hclosed]
    exact congrArg (Records.mk _) (congrArg Records.opened hclosed).symm

/-- The header of a record opens its block. -/
theorem records_step_header {name : String} (hname : IsWord name) (h : r.records k = ⟨before, none⟩) :
    (r.step (k.first ++ " " ++ k.second ++ " " ++ name)).records k
      = ⟨before, some (k.new name)⟩ := by
  have heq : k.first ++ " " ++ k.second ++ " " ++ name = unwords [k.first, k.second, name] := by
    apply String.toList_inj.1
    simp [unwords, String.intercalate_cons_cons]
  have hws : ∀ w ∈ [k.first, k.second, name], IsWord w := by
    simp [k.isWord_first, k.isWord_second, hname]
  have hwords : (Line.ofText (unwords [k.first, k.second, name])).words
      = [k.first, k.second, name] := words_unwords_of_isWord hws
  have hread : Directive.read (Line.ofText (unwords [k.first, k.second, name]))
      = k.directive name := by
    rw [Directive.read, hwords, List.head?_cons, Option.any_some, k.beginsWith_first,
      if_neg Bool.false_ne_true, k.readWords_header]
  have hbuilt := k.built?_directive name
  have hopens {d : Directive} (hd : d.builder? = none) : k.directive name ≠ d := fun hname => by
    rw [hname, hd] at hbuilt
    cases hbuilt
  obtain ⟨hkept, hbuilder⟩ :=
    Reading.kept_apply (Reading.block_closeBlock r) (k.directive name)
  have hstored : k.stored r.closeBlock.kept = before :=
    congrArg Records.stored (records_closeBlock_none h)
  rw [heq, Reading.step_of_read r (isIndented_unwords k.isWord_first _) hread (hopens rfl)
    (hopens rfl), k.enables_directive, if_pos rfl, records_eq, hkept, hbuilder, hbuilt, hstored]

/-- A line below the header of a record that begins with a keyword. -/
theorem records_step_below {a : α} (h : r.records k = ⟨before, some a⟩) {keyword : String}
    (hkeyword : IsWord keyword) (hbang : beginsWith "!" keyword = false) (text : String) :
    (r.step (" " ++ keyword ++ " " ++ text)).records k
      = ⟨before, some (k.line a (Line.ofText (" " ++ keyword ++ " " ++ text))
          (keyword :: words text))⟩ := by
  have hwords := words_below hkeyword text
  have hl : (Line.ofText (" " ++ keyword ++ " " ++ text)).words = keyword :: words text := hwords
  have hstored : k.stored r.kept = before := congrArg Records.stored h
  obtain ⟨b, hblock, hb⟩ := Option.bind_eq_some_iff.1 (congrArg Records.opened h)
  obtain ⟨b', hbuild, hb'⟩ := Option.bind_eq_some_iff.1 ((k.built?_builder? b).trans hb)
  obtain ⟨hkept, hbuilder⟩ :=
    Reading.kept_blockLine hblock (Line.ofText (" " ++ keyword ++ " " ++ text))
  rw [Reading.step_of_isIndented hblock (isIndented_below keyword text) (by rw [hwords]; rfl) hbang,
    records_eq, hkept, hbuilder, hbuild, Option.map_some, Option.bind_some, k.built?_take, hb', hl,
    hstored]
  rfl

end Step

/-! ## Lines of an open block -/

/-- The lines make one open record into another, whatever is stored. -/
def Builds (a : α) (ls : List String) (a' : α) : Prop :=
  ∀ (r : Reading) (before : List α), r.records k = ⟨before, some a⟩ →
    (r.run ls).records k = ⟨before, some a'⟩

variable {k}

theorem builds_nil (a : α) : k.Builds a [] a := fun _ _ h => h

theorem Builds.append {a a' a'' : α} {ls ms : List String} (h : k.Builds a ls a')
    (h' : k.Builds a' ms a'') : k.Builds a (ls ++ ms) a'' := fun r before hr => by
  rw [Reading.run_append]
  exact h' _ _ (h r before hr)

/-- One line that begins with a keyword. -/
theorem builds_below (a : α) {keyword : String} (hkeyword : IsWord keyword)
    (hbang : beginsWith "!" keyword = false) (text : String) :
    k.Builds a [" " ++ keyword ++ " " ++ text]
      (k.line a (Line.ofText (" " ++ keyword ++ " " ++ text)) (keyword :: words text)) :=
  fun r before h => by
    rw [Reading.run_cons, Reading.run_nil]
    exact records_step_below h hkeyword hbang text

/-- A description is read back without the blanks at its ends. -/
theorem builds_descriptionLines (a : α) (describe : String → α)
    (h : ∀ l ws, k.line a l ("description" :: ws) = describe (l.after 1))
    (description : Option String) :
    k.Builds a (descriptionLines description) ((description.map fun d => describe (trim d)).getD a) := by
  cases description with
  | none => exact builds_nil a
  | some d =>
    have hline : descriptionLines (some d) = [" " ++ "description" ++ " " ++ d] := by
      rw [← descriptionLine_eq]
      rfl
    have hbuilds := builds_below (k := k) a (by decide : IsWord "description") (by decide) d
    rw [h, after_descriptionLine, ← hline] at hbuilds
    exact hbuilds

/-! ## What lines add -/

variable (k) in
/-- The lines add records behind those that are stored, whatever is read before, and leave none
open. -/
def Adds (ls : List String) (as : List α) : Prop :=
  ∀ (r : Reading) (before : List α), r.records k = ⟨before, none⟩ →
    (r.run ls).records k = ⟨before ++ as, none⟩

theorem Adds.append {ls ms : List String} {as bs : List α} (h : k.Adds ls as)
    (h' : k.Adds ms bs) : k.Adds (ls ++ ms) (as ++ bs) := fun r before hr => by
  rw [Reading.run_append, ← List.append_assoc]
  exact h' _ _ (h r before hr)

theorem adds_nil {ls : List String} (hls : ∀ l ∈ ls, ¬ IsHeader k.first k.second l) :
    k.Adds ls [] := by
  intro r before h
  rw [List.append_nil]
  induction ls generalizing r with
  | nil => exact h
  | cons l ls ih =>
    obtain ⟨hl, hls⟩ := List.forall_mem_cons.1 hls
    rw [Reading.run_cons]
    exact ih hls _ (records_step_of_not_isHeader hl h)

theorem adds_flatMap {β : Type} {f : β → List String} {g : β → List α} {bs : List β}
    (h : ∀ b ∈ bs, k.Adds (f b) (g b)) : k.Adds (bs.flatMap f) (bs.flatMap g) := by
  induction bs with
  | nil => exact adds_nil (List.forall_mem_nil _)
  | cons b bs ih =>
    obtain ⟨hb, hbs⟩ := List.forall_mem_cons.1 h
    exact hb.append (ih hbs)

/-- **A block adds the record** that its lines build. -/
theorem adds_block {name : String} (hname : IsWord name) {ls : List String} {a : α}
    (h : k.Builds (k.new name) ls a) :
    k.Adds (block ((k.first ++ " " ++ k.second ++ " " ++ name) :: ls)) [a] := fun r before hr => by
  have hbang : (words "!").head?.any (beginsWith "!") = true := by decide
  have hclose := records_closeBlock (h _ _ (records_step_header hname hr))
  rw [← Reading.step_bang _ hbang] at hclose
  rw [block, Reading.run_append, Reading.run_cons, Reading.run_cons, Reading.run_nil]
  exact hclose

/-- The records of lines that are written are those that the lines add. -/
theorem stored_unlines (flavor : Flavor) {ls : List String} (h : ∀ l ∈ ls, OneLine l) {as : List α}
    (hadds : k.Adds ls as) :
    k.stored ((Reading.start flavor).run (lines (unlines ls))).closeBlock.kept = as := by
  have hstart : (Reading.start flavor).records k = ⟨[], none⟩ :=
    congrArg (Records.mk · none) (k.stored_start flavor)
  have hclose := records_closeBlock (hadds _ _ hstart)
  rw [Reading.run_lines_unlines _ h]
  exact (congrArg Records.stored hclose).trans (List.append_nil as)

end RecordKind

/-! ## The whole text -/

theorem isApart_profileLines {p : SecurityProfile} (hp : p.OneLine) (hkind : p.kind ∈ profileKinds) :
    ∀ l ∈ profileLines p, IsApart l := by
  have hheader : IsApart s!"{p.kind} {p.name}" := by
    have hclass : IsApart ("class-map" ++ (" " ++ p.name)) :=
      IsApart.append (by decide) (by simp +decide [hp.name])
    have hpolicy : IsApart ("policy-map" ++ (" " ++ p.name)) :=
      IsApart.append (by decide) (by simp +decide [hp.name])
    simp only [String.append_assoc, toString_text]
    simp only [profileKinds, List.mem_cons, List.not_mem_nil, or_false] at hkind
    rcases hkind with hkind | hkind
    · rwa [hkind]
    · rwa [hkind]
  exact forall_mem_block (by decide) (List.forall_mem_cons.2 ⟨hheader,
    List.forall_mem_map.2 fun l hl => IsApart.append (by decide) (hp.lines l hl)⟩)

/-- What only one of the two products is told. -/
def ownLines (c : Config) : Flavor → List String
  | .asa => cryptoLines c ++ c.aaaServers.flatMap (serverLines c)
  | .ftd => managedElsewhereLines c

/-- The line holds no line feed and opens nothing of the kind. -/
def RecordKind.IsAside (raw : String) : Prop := OneLine raw ∧ ¬ IsHeader k.first k.second raw

section Whole

variable {c : Config} (hc : c.OneLine) (hkinds : ∀ p ∈ c.securityProfiles, p.kind ∈ profileKinds)
include hc hkinds

/-- **What stands around the groups and the services** of a written text opens neither. -/
theorem exists_writeLines_eq (flavor : Flavor) (origin : Dialect) :
    ∃ before after, writeLines flavor origin c
        = before ++ (c.addressGroups.flatMap (groupLines c)
          ++ (c.services.flatMap serviceLines ++ after))
      ∧ (∀ l ∈ before, k.IsAside l) ∧ ∀ l ∈ after, k.IsAside l := by
  have hapart {ls : List String} (h : ∀ l ∈ ls, IsApart l) : ∀ l ∈ ls, k.IsAside l :=
    fun l hl => ⟨(h l hl).1, not_isHeader_of_first k.first_head (h l hl).2⟩
  have hidle {ls : List String} (h : ∀ l ∈ ls, IsIdle l) : ∀ l ∈ ls, k.IsAside l :=
    hapart fun l hl => (h l hl).isApart
  have hobjects : ∀ l ∈ c.addressObjects.flatMap objectLines, k.IsAside l :=
    List.forall_mem_flatMap.2 fun o ho l hl =>
      ⟨(isQuiet_objectLines (hc.addressObjects o ho) l hl).1,
        not_isHeader_objectLines k.first_head k.ne_object o l hl⟩
  have hnat : ∀ l ∈ c.nat.flatMap (natLines c), k.IsAside l :=
    List.forall_mem_flatMap.2 fun r hr l hl =>
      ⟨(isQuiet_natLines hc (hc.nat r hr) l hl).1,
        not_isHeader_natLines k.first_head k.ne_object c r l hl⟩
  have husers := hidle (forall_mem_part (by decide)
    (List.forall_mem_map.2 fun u hu => isIdle_userLine (hc.users u hu)))
  have hprofiles := hapart (List.forall_mem_flatMap.2 fun p hp =>
    isApart_profileLines (hc.securityProfiles p hp) (hkinds p hp))
  refine ⟨headerLines flavor origin ++ identityLines flavor c
      ++ c.interfaces.flatMap (interfaceLines c) ++ c.addressObjects.flatMap objectLines,
    accessLines c origin ++ part (c.routes.map (routeLine c)) ++ c.nat.flatMap (natLines c)
      ++ ownLines c flavor ++ part (c.users.map userLine) ++ managementLines c
      ++ c.securityProfiles.flatMap profileLines ++ unmappedLines c, ?_, ?_, ?_⟩
  · cases flavor <;> simp only [writeLines, ownLines, List.append_assoc]
  · simp only [List.forall_mem_append]
    exact ⟨⟨⟨hidle (isIdle_headerLines flavor origin), hidle (isIdle_identityLines hc flavor)⟩,
      hidle (List.forall_mem_flatMap.2 fun i hi => isIdle_interfaceLines c (hc.interfaces i hi))⟩,
      hobjects⟩
  · have hown : ∀ l ∈ ownLines c flavor, k.IsAside l := by
      cases flavor with
      | asa => exact hapart (List.forall_mem_append.2 ⟨isApart_cryptoLines hc,
          List.forall_mem_flatMap.2 fun s hs => isApart_serverLines hc (hc.aaaServers s hs)⟩)
      | ftd => exact hidle (isIdle_managedElsewhereLines hc)
    simp only [List.forall_mem_append]
    exact ⟨⟨⟨⟨⟨⟨⟨hapart (isApart_accessLines hc origin), hidle (isIdle_routeLines hc)⟩, hnat⟩,
      hown⟩, husers⟩, hidle (isIdle_managementLines hc)⟩, hprofiles⟩,
      hidle (isIdle_unmappedLines hc)⟩

include k in
/-- No line of a written text holds a line feed. -/
theorem oneLine_of_mem_writeLines (flavor : Flavor) (origin : Dialect) :
    ∀ l ∈ writeLines flavor origin c, OneLine l := by
  obtain ⟨before, after, heq, hbefore, hafter⟩ := exists_writeLines_eq k hc hkinds flavor origin
  rw [heq]
  simp only [List.forall_mem_append]
  exact ⟨fun l hl => (hbefore l hl).1,
    List.forall_mem_flatMap.2 fun g hg l hl => (isQuiet_groupLines c (hc.addressGroups g hg) l hl).1,
    List.forall_mem_flatMap.2 fun s hs l hl => (isQuiet_serviceLines (hc.services s hs) l hl).1,
    fun l hl => (hafter l hl).1⟩

/-- **The records of a written text** are those that its groups and its services add, whatever else
the configuration holds. -/
theorem stored_write (flavor : Flavor) (origin : Dialect) {gs ss : List α}
    (hgroups : k.Adds (c.addressGroups.flatMap (groupLines c)) gs)
    (hservices : k.Adds (c.services.flatMap serviceLines) ss) :
    k.stored ((Reading.start flavor).run (lines (write flavor origin c))).closeBlock.kept
      = gs ++ ss := by
  obtain ⟨before, after, heq, hbefore, hafter⟩ := exists_writeLines_eq k hc hkinds flavor origin
  have hadds := (RecordKind.adds_nil fun l hl => (hbefore l hl).2).append
    (hgroups.append (hservices.append (RecordKind.adds_nil fun l hl => (hafter l hl).2)))
  rw [← heq, List.nil_append, List.append_nil] at hadds
  exact RecordKind.stored_unlines flavor (oneLine_of_mem_writeLines k hc hkinds flavor origin) hadds

end Whole

end FirewallConfig.Cisco
