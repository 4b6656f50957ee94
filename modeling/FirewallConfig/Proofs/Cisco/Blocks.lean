import FirewallConfig.Proofs.Cisco.Groups
import FirewallConfig.Proofs.Cisco.Objects
import FirewallConfig.Proofs.Cisco.Services

/-!
# Proofs/Cisco/Blocks — one record for each header

A header is a line that stands alone and begins with the words of a block.  The lines below it belong
to its block, up to a line that ends it (`endsBlock`): one with an exclamation mark, or a directive,
even one that the product does not have.  A line that ends no block changes the open record and
nothing else (`view_step_below`); one that does stores the record and opens that of its own header
(`view_step_end`).  So a text is read as one record for each header, which its own lines build, and
interfaces and address objects of one name are the last of them (`records_read`).
-/

namespace FirewallConfig

namespace Cisco

open Text

/-! ## The end of a block -/

/-- The line ends the block above it: it begins with an exclamation mark, or it stands alone and is a
directive, even one that the product does not have. -/
def endsBlock (raw : String) : Bool :=
  (words raw).head?.any (beginsWith "!")
    || !isIndented raw && Directive.read (Line.ofText raw) != .other

/-- The lines below a header, up to the one that ends its block.  Blank lines do not count. -/
def linesBelow (ls : List String) : List Line :=
  ((ls.takeWhile fun raw => !endsBlock raw).map Line.ofText).filter fun l => !l.text.isEmpty

theorem linesBelow_cons_of_endsBlock {raw : String} (h : endsBlock raw = true) (ls : List String) :
    linesBelow (raw :: ls) = [] := by
  simp [linesBelow, h]

theorem linesBelow_cons_of_not_endsBlock {raw : String} (h : endsBlock raw = false)
    (ls : List String) : linesBelow (raw :: ls)
      = (if (Line.ofText raw).text.isEmpty then [] else [Line.ofText raw]) ++ linesBelow ls := by
  cases hempty : (Line.ofText raw).text.isEmpty <;> simp [linesBelow, h, hempty]

namespace Reading

variable {r : Reading} {raw : String}

theorem flavor_step (r : Reading) (raw : String) : (r.step raw).flavor = r.flavor := by
  have hmoves := r.moves_step raw
  generalize r.step raw = s at hmoves
  cases hmoves with
  | stay => rfl
  | close => exact r.flavor_closeBlock
  | blockLine hblock => exact congrArg Kept.flavor (kept_blockLine hblock _).1
  | apply =>
    exact (congrArg Kept.flavor (kept_apply r.block_closeBlock _).1).trans r.flavor_closeBlock

/-- **A line that ends no block belongs to the open one**, unless it is blank. -/
theorem step_below {b : Block} (hblock : r.block = some b) (h : endsBlock raw = false) :
    r.step raw = if (Line.ofText raw).text.isEmpty then r else r.blockLine b (Line.ofText raw) := by
  obtain ⟨hbang, hline⟩ := Bool.or_eq_false_iff.1 h
  have hread : Directive.read (Line.ofText raw) ≠ .bang := Directive.read_ne_bang hbang
  have hbelow : ((Line.ofText raw).indented || Directive.read (Line.ofText raw) == .other) = true := by
    cases hindented : isIndented raw with
    | true => exact Bool.or_eq_true_iff.2 (.inl hindented)
    | false =>
      rw [hindented, Bool.not_false, Bool.true_and, bne_eq_false_iff_eq] at hline
      exact Bool.or_eq_true_iff.2 (.inr (beq_iff_eq.2 hline))
  rw [step]
  refine if_congr Iff.rfl rfl ?_
  split
  · next heq => exact absurd heq hread
  · rw [lineStep, hblock]
    exact if_pos hbelow

/-- Where no block is open, a line that ends none says nothing that is kept. -/
theorem step_idle (hblock : r.block = none) (h : endsBlock raw = false) :
    r.step raw = r ∨ r.step raw = r.openBlock .skip := by
  obtain ⟨hbang, hline⟩ := Bool.or_eq_false_iff.1 h
  have hread : Directive.read (Line.ofText raw) ≠ .bang := Directive.read_ne_bang hbang
  rw [step]
  split
  · exact .inl rfl
  · split
    · next heq => exact absurd heq hread
    · rw [lineStep, hblock]
      cases hindented : (Line.ofText raw).indented with
      | true => exact .inl rfl
      | false =>
        have hraw : isIndented raw = false := hindented
        rw [hraw, Bool.not_false, Bool.true_and, bne_eq_false_iff_eq] at hline
        refine .inr ?_
        rw [hline]
        cases r.flavor <;> rfl

/-- **A line that ends the block above it** has an exclamation mark, or it is a directive once the
block is closed. -/
theorem step_end (r : Reading) (h : endsBlock raw = true) :
    (words raw).head?.any (beginsWith "!") = true ∧ r.step raw = r.closeBlock
      ∨ (words raw).head?.any (beginsWith "!") = false ∧ isIndented raw = false
        ∧ r.step raw = r.closeBlock.apply (if r.flavor.enables (Directive.read (Line.ofText raw))
            then Directive.read (Line.ofText raw) else .other) := by
  cases hbang : (words raw).head?.any (beginsWith "!") with
  | true => exact .inl ⟨rfl, r.step_bang hbang⟩
  | false =>
    rw [endsBlock, hbang, Bool.false_or, Bool.and_eq_true, Bool.not_eq_true', bne_iff_ne] at h
    exact .inr ⟨rfl, h.1, r.step_of_read h.1 rfl (Directive.read_ne_bang hbang) h.2⟩

end Reading

/-! ## Kinds of records -/

/-- Records of one kind, each built by the lines of a block. -/
structure BlockKind (α β : Type) where
  /-- What a header of the kind says, if the words are those of one. -/
  header? : List String → Option α
  /-- The product has the kind. -/
  isIn : Flavor → Bool
  /-- The record that a header begins. -/
  new : α → β
  /-- The record with one more line. -/
  line : β → Line → β
  /-- What the header of a record says. -/
  key : β → α
  /-- The records that are stored. -/
  stored : Kept → List β
  /-- The records with one more. -/
  put : List β → β → List β
  /-- The record that a block builds, if it is of the kind. -/
  built? : Block → Option β
  /-- What a header is read as. -/
  directive : α → Directive
  key_new : ∀ a, key (new a) = a := by
    intro a
    rfl
  key_line : ∀ x l, key (line x l) = key x
  stored_start : ∀ flavor, stored (Reading.start flavor).kept = [] := by
    intro flavor
    rfl
  stored_store : ∀ (b : Block) (r : Reading), stored (r.amend (Reading.store b)).kept
      = (built? b).toList.foldl put (stored r.kept) := by
    intro b r
    cases b <;> rfl
  built?_builder? : ∀ b : Block, b.builder?.bind built? = built? b := by
    intro b
    cases b <;> rfl
  built?_take : ∀ (b : Block) (l : Line), built? (b.take l) = (built? b).map (line · l) := by
    intro b l
    cases b <;> rfl
  built?_directive : ∀ a, (directive a).builder?.bind built? = some (new a) := by
    intro a
    rfl
  enables_directive : ∀ (flavor : Flavor) a, flavor.enables (directive a) = isIn flavor := by
    intro flavor a
    cases flavor <;> rfl
  /-- A header has no exclamation mark, and is read as one. -/
  readWords_header : ∀ ws a (l : Line), header? ws = some a →
      ws.head?.any (beginsWith "!") = false ∧ Directive.readWords l ws = directive a := by
    intro ws a l h
    split at h <;> cases h
    all_goals exact ⟨rfl, rfl⟩
  /-- Only headers open blocks of the kind. -/
  isSome_header? : ∀ {l ws d x}, Directive.Reads l ws d → d.builder?.bind built? = some x →
    (header? ws).isSome = true

namespace BlockKind

variable {α β : Type} (k : BlockKind α β)

/-- What a line says as a header: it stands alone, and the product has the kind. -/
def headerOf? (flavor : Flavor) (raw : String) : Option α :=
  if isIndented raw || !k.isIn flavor then none else k.header? (words raw)

/-- The record of a header and the lines below it. -/
def build (a : α) (below : List Line) : β := below.foldl k.line (k.new a)

/-- The records of lines: for each header, that of its own block. -/
def records (flavor : Flavor) : List String → List β
  | [] => []
  | raw :: ls =>
    match k.headerOf? flavor raw with
    | some a => k.build a (linesBelow ls) :: records flavor ls
    | none => records flavor ls

theorem records_cons (flavor : Flavor) (raw : String) (ls : List String) :
    k.records flavor (raw :: ls)
      = ((k.headerOf? flavor raw).map fun a => k.build a (linesBelow ls)).toList
        ++ k.records flavor ls := by
  rw [records]
  cases k.headerOf? flavor raw <;> rfl

theorem key_foldl_line (x : β) (below : List Line) : k.key (below.foldl k.line x) = k.key x := by
  induction below generalizing x with
  | nil => rfl
  | cons l below ih => exact (ih _).trans (k.key_line x l)

/-- **There is one record for each header**, in order. -/
theorem map_key_records (flavor : Flavor) (ls : List String) :
    (k.records flavor ls).map k.key = ls.filterMap (k.headerOf? flavor) := by
  induction ls with
  | nil => rfl
  | cons raw ls ih =>
    rw [records_cons, List.map_append, ih, List.filterMap_cons]
    cases k.headerOf? flavor raw with
    | none => rfl
    | some a =>
      have hkey : k.key (k.build a (linesBelow ls)) = a :=
        (k.key_foldl_line _ _).trans (k.key_new a)
      simp [hkey]

/-! ## One line -/

/-- What the reading knows of the records of a kind. -/
def view (r : Reading) : Records β := ⟨k.stored r.kept, r.builder?.bind k.built?⟩

/-- **Closing a block stores its record.** -/
theorem view_closeBlock (r : Reading) :
    k.view r.closeBlock = ⟨(k.view r).opened.toList.foldl k.put (k.view r).stored, none⟩ := by
  have hnone : r.closeBlock.builder? = none := Reading.builder?_of_block_none r.block_closeBlock
  rw [view, view, hnone]
  refine congrArg (Records.mk · none) ?_
  cases hblock : r.block with
  | none =>
    rw [Reading.closeBlock_of_block_none hblock, Reading.builder?_of_block_none hblock]
    rfl
  | some b =>
    rw [Reading.builder?_of_block hblock, k.built?_builder?, Reading.closeBlock, hblock]
    exact k.stored_store b r

theorem bind_map_take (b : Block) (l : Line) :
    (b.builder?.map (Block.take l)).bind k.built? = (k.built? b).map (k.line · l) := by
  rw [← k.built?_builder? b]
  cases b.builder? with
  | none => rfl
  | some b' => exact k.built?_take b' l

/-- A line that ends no block changes the record whose block is open, unless it is blank. -/
theorem view_step_below (r : Reading) {raw : String} (h : endsBlock raw = false) :
    k.view (r.step raw) = ⟨(k.view r).stored, (k.view r).opened.map fun x =>
      if (Line.ofText raw).text.isEmpty then x else k.line x (Line.ofText raw)⟩ := by
  cases hblock : r.block with
  | none =>
    have hview : k.view r = ⟨k.stored r.kept, none⟩ := by
      rw [view, Reading.builder?_of_block_none hblock]
      rfl
    rcases Reading.step_idle hblock h with hstep | hstep <;> rw [hstep, hview] <;> rfl
  | some b =>
    have hview : k.view r = ⟨k.stored r.kept, k.built? b⟩ := by
      rw [view, Reading.builder?_of_block hblock, k.built?_builder?]
    rw [Reading.step_below hblock h, hview]
    split
    · rw [hview, Option.map_id']
    · obtain ⟨hkept, hbuilder⟩ := Reading.kept_blockLine hblock (Line.ofText raw)
      rw [view, hkept, hbuilder, k.bind_map_take]

/-- What a header says is what its line is read as, if the product has the kind. -/
theorem built?_read (flavor : Flavor) {raw : String} (hraw : isIndented raw = false)
    (hbang : (words raw).head?.any (beginsWith "!") = false) :
    (if flavor.enables (Directive.read (Line.ofText raw)) then Directive.read (Line.ofText raw)
      else .other).builder?.bind k.built? = (k.headerOf? flavor raw).map k.new := by
  have hread : Directive.read (Line.ofText raw) = Directive.readWords (Line.ofText raw) (words raw) :=
    if_neg (by rw [show (Line.ofText raw).words = words raw from rfl, hbang]; exact Bool.false_ne_true)
  rw [headerOf?, hraw, Bool.false_or, hread]
  cases hheader : k.header? (words raw) with
  | some a =>
    rw [(k.readWords_header _ _ _ hheader).2, k.enables_directive]
    cases k.isIn flavor with
    | true => exact k.built?_directive a
    | false => rfl
  | none =>
    have hnone : (Directive.readWords (Line.ofText raw) (words raw)).builder?.bind k.built? = none := by
      refine Option.eq_none_iff_forall_ne_some.2 fun x hx => ?_
      have hsome := k.isSome_header? (Directive.reads_readWords _ _) hx
      rw [hheader] at hsome
      cases hsome
    rw [ite_self, Option.map_none]
    split
    · exact hnone
    · rfl

/-- A line with an exclamation mark is no header. -/
theorem headerOf?_of_bang (flavor : Flavor) {raw : String}
    (h : (words raw).head?.any (beginsWith "!") = true) : k.headerOf? flavor raw = none := by
  rw [headerOf?]
  split
  · rfl
  · refine Option.eq_none_iff_forall_ne_some.2 fun a ha => ?_
    have hnot := (k.readWords_header _ _ (Line.ofText raw) ha).1
    rw [h] at hnot
    cases hnot

/-- **A line that ends a block stores its record**, and opens that of its own header. -/
theorem view_step_end (r : Reading) {raw : String} (h : endsBlock raw = true) :
    k.view (r.step raw)
      = ⟨(k.view r).opened.toList.foldl k.put (k.view r).stored,
        (k.headerOf? r.flavor raw).map k.new⟩ := by
  rcases r.step_end h with ⟨hbang, hstep⟩ | ⟨hbang, hraw, hstep⟩
  · rw [hstep, k.view_closeBlock, k.headerOf?_of_bang r.flavor hbang]
    rfl
  · have hstored : k.stored r.closeBlock.kept
        = (k.view r).opened.toList.foldl k.put (k.view r).stored :=
      congrArg Records.stored (k.view_closeBlock r)
    obtain ⟨hkept, hbuilder⟩ := Reading.kept_apply r.block_closeBlock
      (if r.flavor.enables (Directive.read (Line.ofText raw)) then Directive.read (Line.ofText raw)
        else .other)
    rw [hstep, view, hkept, hbuilder, hstored, k.built?_read r.flavor hraw hbang]

/-! ## A whole text -/

/-- A line that ends no block is no header. -/
theorem headerOf?_eq_none {raw : String} (h : endsBlock raw = false) (flavor : Flavor) :
    k.headerOf? flavor raw = none := by
  obtain ⟨hbang, hline⟩ := Bool.or_eq_false_iff.1 h
  cases hraw : isIndented raw with
  | true => simp [headerOf?, hraw]
  | false =>
    rw [hraw, Bool.not_false, Bool.true_and, bne_eq_false_iff_eq] at hline
    have hnone := k.built?_read flavor hraw hbang
    rw [hline, ite_self] at hnone
    exact Option.map_eq_none_iff.1 hnone.symm

/-- **What lines leave stored**: what was stored before, the record that was open with the lines that
belong to it, and one record for each header. -/
theorem stored_run (r : Reading) (ls : List String) :
    k.stored (r.run ls).closeBlock.kept
      = (((k.view r).opened.map fun x => (linesBelow ls).foldl k.line x).toList
          ++ k.records r.flavor ls).foldl k.put (k.view r).stored := by
  induction ls generalizing r with
  | nil =>
    have hclose := congrArg Records.stored (k.view_closeBlock r)
    rw [Reading.run_nil, records, List.append_nil]
    exact hclose.trans (by rw [linesBelow]; simp)
  | cons raw ls ih =>
    rw [Reading.run_cons, ih, Reading.flavor_step]
    cases h : endsBlock raw with
    | true =>
      rw [k.view_step_end r h, linesBelow_cons_of_endsBlock h, records_cons, Option.map_map]
      simp only [List.foldl_append, List.foldl_nil, Option.map_id']
      rfl
    | false =>
      rw [k.view_step_below r h, linesBelow_cons_of_not_endsBlock h, records_cons,
        k.headerOf?_eq_none h, Option.map_map]
      cases (Line.ofText raw).text.isEmpty <;> rfl

end BlockKind

/-! ## The kinds -/

theorem name_interfaceLine (i : Interface) (l : Line) (ws : List String) :
    (interfaceLine i l ws).name = i.name := by
  unfold interfaceLine
  repeat' split
  all_goals rfl

theorem name_objectLine (o : AddressObject) (l : Line) (ws : List String) :
    (objectLine o l ws).name = o.name := by
  unfold objectLine
  split <;> rfl

theorem name_serviceLine (s : ServiceObject) (l : Line) (ws : List String) :
    (serviceLine s l ws).name = s.name := by
  unfold serviceLine
  split <;> rfl

theorem name_groupLine (g : AddressGroup) (l : Line) (ws : List String) :
    (groupLine g l ws).name = g.name := by
  unfold groupLine
  repeat' split
  all_goals rfl

theorem priority_ikeLine (p : IkePolicy) (ws : List String) :
    (ikeLine p ws).priority = p.priority := by
  unfold ikeLine
  split <;> rfl

namespace BlockKind

/-- Interfaces, of which each is there once. -/
def interface : BlockKind String Interface where
  header?
    | "interface" :: name :: _ => some name
    | _ => none
  isIn _ := true
  new name := { name }
  line i l := interfaceLine i l l.words
  key := (·.name)
  stored := Kept.interfaces
  put is i := putBy (·.name) i is
  built?
    | .interface i => some i
    | _ => none
  directive := .interface
  key_line i l := name_interfaceLine i l l.words
  isSome_header? hreads h := by
    cases hreads with
    | interface => rfl
    | _ => cases h

/-- Address objects, of which each is there once. -/
def addressObject : BlockKind String AddressObject where
  header?
    | "object" :: "network" :: name :: _ => some name
    | _ => none
  isIn _ := true
  new name := { name }
  line o l := objectLine o l l.words
  key := (·.name)
  stored := Kept.addressObjects
  put os o := putBy (·.name) o os
  built? := Block.object?
  directive := .objectNetwork
  key_line o l := name_objectLine o l l.words
  isSome_header? hreads h := by
    cases hreads with
    | objectNetwork => rfl
    | _ => cases h

/-- A kind of records that both products have, and that are stored behind the others. -/
def ofRecordKind {α : Type} (k : RecordKind α) (key : α → String)
    (key_new : ∀ name, key (k.new name) = name)
    (key_line : ∀ x (l : Line), key (k.line x l l.words) = key x)
    (readWords : ∀ l name rest,
      Directive.readWords l (k.first :: k.second :: name :: rest) = k.directive name) :
    BlockKind String α where
  header?
    | first :: second :: name :: _ =>
      if first = k.first ∧ second = k.second then some name else none
    | _ => none
  isIn _ := true
  new := k.new
  line x l := k.line x l l.words
  key := key
  stored := k.stored
  put xs x := xs ++ [x]
  built? := k.built?
  directive := k.directive
  key_new := key_new
  key_line := key_line
  stored_start := k.stored_start
  stored_store b r := by
    rw [k.stored_store]
    cases k.built? b with
    | none => exact List.append_nil _
    | some x => rfl
  built?_builder? := k.built?_builder?
  built?_take := k.built?_take
  built?_directive := k.built?_directive
  enables_directive := k.enables_directive
  readWords_header ws a l h := by
    split at h
    · next first second name rest =>
      obtain ⟨⟨rfl, rfl⟩, ⟨⟩⟩ := Option.ite_none_right_eq_some.1 h
      exact ⟨k.beginsWith_first, readWords l _ _⟩
    · cases h
  isSome_header? hreads h := by
    obtain ⟨name, rest, rfl⟩ := k.words_eq hreads.isReadFrom h
    exact congrArg Option.isSome (if_pos ⟨rfl, rfl⟩)

/-- Services. -/
def service : BlockKind String ServiceObject :=
  ofRecordKind serviceKind (·.name) (fun _ => rfl) (fun s l => name_serviceLine s l l.words)
    fun _ _ _ => rfl

/-- Address groups. -/
def addressGroup : BlockKind String AddressGroup :=
  ofRecordKind groupKind (·.name) (fun _ => rfl) (fun g l => name_groupLine g l l.words)
    fun _ _ _ => rfl

/-- The priority of the policy that a header begins. -/
def ikeHeader? : List String → Option String
  | "crypto" :: "isakmp" :: "policy" :: priority :: _
  | "crypto" :: "ikev1" :: "policy" :: priority :: _
  | "crypto" :: "ikev2" :: "policy" :: priority :: _ => some priority
  | _ => none

theorem readWords_of_ikeHeader? (l : Line) {ws : List String} {priority : String}
    (h : ikeHeader? ws = some priority) : ws.head?.any (beginsWith "!") = false
      ∧ Directive.readWords l ws = .ikePolicy priority := by
  unfold ikeHeader? at h
  split at h <;> cases h
  all_goals exact ⟨rfl, rfl⟩

theorem isSome_ikeHeader? {version : String} (h : version ∈ ["isakmp", "ikev1", "ikev2"])
    (priority : String) (rest : List String) :
    (ikeHeader? ("crypto" :: version :: "policy" :: priority :: rest)).isSome = true := by
  simp only [List.mem_cons, List.not_mem_nil, or_false] at h
  rcases h with rfl | rfl | rfl <;> rfl

/-- Policies for the key exchange, which only one of the products has. -/
def ikePolicy : BlockKind String IkePolicy where
  header? := ikeHeader?
  isIn
    | .asa => true
    | .ftd => false
  new priority := { priority }
  line p l := ikeLine p l.words
  key := (·.priority)
  stored := Kept.ikePolicies
  put ps p := ps ++ [p]
  built?
    | .ikePolicy p => some p
    | _ => none
  directive := .ikePolicy
  key_line p l := priority_ikeLine p l.words
  readWords_header _ _ l h := readWords_of_ikeHeader? l h
  isSome_header? hreads h := by
    cases hreads with
    | ikePolicy hversion => exact isSome_ikeHeader? hversion _ _
    | _ => cases h

/-- Class maps and policy maps, which only one of the products has. -/
def profile : BlockKind (String × String) SecurityProfile where
  header?
    | "class-map" :: operands => some ("class-map", profileName operands)
    | "policy-map" :: operands => some ("policy-map", profileName operands)
    | _ => none
  isIn
    | .asa => false
    | .ftd => true
  new := fun (kind, name) => { kind, name }
  line p l := { p with lines := p.lines ++ [l.text] }
  key p := (p.kind, p.name)
  stored := Kept.securityProfiles
  put ps p := ps ++ [p]
  built?
    | .profile p => some p
    | _ => none
  directive := fun (kind, name) => .profile kind name
  key_line _ _ := rfl
  isSome_header? hreads h := by
    cases hreads with
    | classMap => rfl
    | policyMap => rfl
    | _ => cases h

/-! ## The records of a text -/

section Text

variable {α β : Type} (k : BlockKind α β) (flavor : Flavor) (ls : List String)

/-- There is one record for each header, in order. -/
def IsListed (xs : List β) : Prop :=
  xs = k.records flavor ls ∧ xs.map k.key = ls.filterMap (k.headerOf? flavor)

/-- There is one record for each name of a header, in the order in which the names come first.  It is
that of the last header of the name. -/
def IsReplaced [BEq α] (xs : List β) : Prop :=
  xs.map k.key = (ls.filterMap (k.headerOf? flavor)).eraseDups
    ∧ ∀ a, xs.find? (fun x => k.key x == a)
      = (k.records flavor ls).reverse.find? (fun x => k.key x == a)

variable {flavor ls}

/-- The records that a text leaves stored are put in, one for each header. -/
theorem stored_read (flavor : Flavor) (ls : List String) :
    k.stored ((Reading.start flavor).run ls).closeBlock.kept
      = (k.records flavor ls).foldl k.put [] := by
  have hstart : k.view (Reading.start flavor) = ⟨[], none⟩ :=
    congrArg (Records.mk · none) (k.stored_start flavor)
  rw [stored_run, hstart]
  rfl

theorem isListed_of_put (hput : k.put = fun xs x => xs ++ [x]) :
    k.IsListed flavor ls (k.stored ((Reading.start flavor).run ls).closeBlock.kept) := by
  have hstored : k.stored ((Reading.start flavor).run ls).closeBlock.kept
      = k.records flavor ls := by
    rw [stored_read, hput, List.foldl_append_eq_append, ← List.flatMap_def, List.flatMap_singleton',
      List.nil_append]
  exact ⟨hstored, by rw [hstored, map_key_records]⟩

theorem isReplaced_of_put [BEq α] [LawfulBEq α] (hput : k.put = fun xs x => putBy k.key x xs) :
    k.IsReplaced flavor ls (k.stored ((Reading.start flavor).run ls).closeBlock.kept) := by
  rw [stored_read, hput]
  constructor
  · rw [map_foldl_putBy, map_key_records, List.map_nil, foldl_putKey_eq_eraseDups]
  · intro a
    rw [find?_foldl_putBy, List.find?_nil, Option.or_none]

end Text

end BlockKind

/-- **Every header of a text yields one record**, which the lines below it build, up to the one that
ends its block: services, address groups, policies for the key exchange and profiles in order, and
interfaces and address objects under their names, of which the last one counts. -/
theorem records_read (flavor : Flavor) (text : String) :
    let c := read flavor text
    BlockKind.interface.IsReplaced flavor (lines text) c.interfaces
      ∧ BlockKind.addressObject.IsReplaced flavor (lines text) c.addressObjects
      ∧ BlockKind.service.IsListed flavor (lines text) c.services
      ∧ BlockKind.addressGroup.IsListed flavor (lines text) c.addressGroups
      ∧ BlockKind.ikePolicy.IsListed flavor (lines text) c.vpn.ikePolicies
      ∧ BlockKind.profile.IsListed flavor (lines text) c.securityProfiles :=
  ⟨BlockKind.interface.isReplaced_of_put rfl, BlockKind.addressObject.isReplaced_of_put rfl,
    BlockKind.service.isListed_of_put rfl, BlockKind.addressGroup.isListed_of_put rfl,
    BlockKind.ikePolicy.isListed_of_put rfl, BlockKind.profile.isListed_of_put rfl⟩

/-- A directive that the product does not have ends the block, and the line below it is no line of
the interface. -/
example : BlockKind.interface.records .ftd
    ["interface Gi0/1", " nameif inside", "crypto map m 1", " nameif outside", "interface Gi0/1"]
      = [{ name := "Gi0/1", nickname := some "inside" }, { name := "Gi0/1" }] := by decide +kernel

end Cisco

end FirewallConfig
