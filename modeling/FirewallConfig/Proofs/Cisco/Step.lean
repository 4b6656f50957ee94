import FirewallConfig.Proofs.Cisco.Access

/-!
# Proofs/Cisco/Step — what one line does to a reading

A line does one of four things (`moves_step`): it changes nothing, it closes the block, it belongs to
the block, or it is a directive once the block is closed.

Records that are built line by line are stored when their block closes.  So the lists they are stored
in are changed there and nowhere else: a line of a block changes the block (`kept_blockLine`), and a
directive opens one at most (`kept_apply`).
-/

namespace FirewallConfig.Cisco

open Text

/-! ## Headers -/

/-- The kinds of profiles. -/
def profileKinds : List String := ["class-map", "policy-map"]

/-- The words are those of a directive, for the headers of objects, services, groups and
profiles. -/
def Directive.IsReadFrom (ws : List String) : Directive → Prop
  | .bang => False
  | .objectNetwork name => ∃ rest, ws = "object" :: "network" :: name :: rest
  | .objectService name => ∃ rest, ws = "object" :: "service" :: name :: rest
  | .objectGroupNetwork name => ∃ rest, ws = "object-group" :: "network" :: name :: rest
  | .profile kind _ => kind ∈ profileKinds
  | _ => True

theorem Directive.Reads.isReadFrom {l : Line} {ws : List String} {d : Directive}
    (h : Directive.Reads l ws d) : d.IsReadFrom ws := by
  cases h with
  | objectNetwork | objectService | objectGroupNetwork => exact ⟨_, rfl⟩
  | classMap => exact List.mem_cons_self
  | policyMap => exact List.mem_cons_of_mem _ List.mem_cons_self
  | _ => exact trivial

theorem Directive.isReadFrom_readWords (l : Line) (ws : List String) :
    (Directive.readWords l ws).IsReadFrom ws := (Directive.reads_readWords l ws).isReadFrom

/-- **What a header says stands in its words.** -/
theorem Directive.isReadFrom_read {l : Line} (hbang : Directive.read l ≠ .bang) :
    (Directive.read l).IsReadFrom l.words := by
  rw [Directive.read] at hbang ⊢
  split
  · next h => exact absurd (if_pos h) hbang
  · exact Directive.isReadFrom_readWords l l.words

theorem Directive.read_ne_bang {l : Line} (h : l.words.head?.any (beginsWith "!") = false) :
    Directive.read l ≠ .bang := fun hread => by
  have hreadFrom := Directive.isReadFrom_readWords l l.words
  rw [Directive.read, h, if_neg Bool.false_ne_true] at hread
  rw [hread] at hreadFrom
  exact hreadFrom

/-! ## The four things -/

namespace Reading

/-- The second reading is what a line makes of the first one. -/
inductive Moves (r : Reading) (l : Line) : Reading → Prop
  | stay : Moves r l r
  | close : Moves r l r.closeBlock
  | blockLine {b : Block} (hblock : r.block = some b) : Moves r l (r.blockLine b l)
  | apply {d : Directive} (hindented : l.indented = false) (hd : d = .other ∨ d = Directive.read l)
    (hread : d.IsReadFrom l.words) (henables : r.flavor.enables d = true) :
    Moves r l (r.closeBlock.apply d)

theorem block_closeBlock (r : Reading) : r.closeBlock.block = none := by
  unfold closeBlock
  split
  · rfl
  · next h => exact h

theorem flavor_closeBlock (r : Reading) : r.closeBlock.flavor = r.flavor := by
  unfold closeBlock
  split <;> rfl

/-- **A line does one of four things.** -/
theorem moves_step (r : Reading) (raw : String) : r.Moves (Line.ofText raw) (r.step raw) := by
  rw [step]
  generalize Line.ofText raw = l
  split
  · exact .stay
  · split
    · exact .close
    · next hbang =>
      have happly (hindented : l.indented = false) : r.Moves l
          (r.closeBlock.apply (if r.flavor.enables (Directive.read l) then Directive.read l
            else .other)) := by
        split
        · next henables =>
          exact .apply hindented (.inr rfl) (Directive.isReadFrom_read hbang) henables
        · exact .apply hindented (.inl rfl) trivial (by cases r.flavor <;> rfl)
      rw [lineStep]
      split
      · next b hblock =>
        split
        · exact .blockLine hblock
        · next hnot => exact happly (by simpa using hnot : l.indented = false ∧ _).1
      · next hblock =>
        split
        · exact .stay
        · next hnot =>
          have hmoves := happly (Bool.eq_false_iff.2 hnot)
          rwa [closeBlock_of_block_none hblock] at hmoves

/-! ## Lines of one kind -/

theorem step_bang (r : Reading) {raw : String}
    (h : (words raw).head?.any (beginsWith "!") = true) : r.step raw = r.closeBlock := by
  have hwords : (Line.ofText raw).words.head?.any (beginsWith "!") = true := h
  have hempty : (Line.ofText raw).text.isEmpty = false := by
    cases hblank : (Line.ofText raw).text.isEmpty with
    | false => rfl
    | true =>
      rw [words_of_isEmpty_trim hblank] at h
      cases h
  rw [step, hempty, Directive.read, if_pos hwords]
  rfl

/-- An indented line that is not a bang belongs to the open block. -/
theorem step_of_isIndented {r : Reading} {b : Block} (hblock : r.block = some b) {raw : String}
    (hraw : isIndented raw = true) {word : String} (hword : (words raw).head? = some word)
    (hbang : beginsWith "!" word = false) :
    r.step raw = r.blockLine b (Line.ofText raw) := by
  have hindented : (Line.ofText raw).indented = true := hraw
  have hhead : (Line.ofText raw).words.head? = some word := hword
  have hempty : (Line.ofText raw).text.isEmpty = false := by
    cases hblank : (Line.ofText raw).text.isEmpty with
    | false => rfl
    | true =>
      rw [words_of_isEmpty_trim hblank] at hword
      cases hword
  have hread : Directive.read (Line.ofText raw) ≠ .bang :=
    Directive.read_ne_bang (by rw [hhead]; exact hbang)
  rw [step, hempty, if_neg Bool.false_ne_true]
  split
  · next h => exact absurd h hread
  · rw [lineStep, hblock, hindented]
    rfl

end Reading

/-! ## What blocks build -/

/-- What changes where a block closes only: the lists of the records that blocks build.  The product
never changes. -/
structure Kept where
  flavor : Flavor
  interfaces : List Interface
  addressObjects : List AddressObject
  addressGroups : List AddressGroup
  services : List ServiceObject
  ikePolicies : List IkePolicy
  securityProfiles : List SecurityProfile

/-- The block, if what it builds is stored in one of the lists. -/
def Block.builder? : Block → Option Block
  | .interface i => some (.interface i)
  | .object o => some (.object o)
  | .service s => some (.service s)
  | .group g => some (.group g)
  | .ikePolicy p => some (.ikePolicy p)
  | .profile p => some (.profile p)
  | .cryptoMap .. | .aaaServer _ | .groupPolicy _ | .tunnelGroup _ | .skip => none

/-- The block with one more line. -/
def Block.take (l : Line) : Block → Block
  | .interface i => .interface (interfaceLine i l l.words)
  | .object o => .object (objectLine o l l.words)
  | .service s => .service (serviceLine s l l.words)
  | .group g => .group (groupLine g l l.words)
  | .ikePolicy p => .ikePolicy (ikeLine p l.words)
  | .profile p => .profile { p with lines := p.lines ++ [l.text] }
  | b => b

/-- The block that a directive opens, if what it builds is stored in one of the lists. -/
def Directive.builder? : Directive → Option Block
  | .interface name => some (.interface { name })
  | .objectNetwork name => some (.object { name })
  | .objectService name => some (.service { name })
  | .objectGroupNetwork name => some (.group { name })
  | .ikePolicy priority => some (.ikePolicy { priority })
  | .profile kind name => some (.profile { name, kind })
  | _ => none

namespace Reading

/-- The product, and the lists of the records that blocks build. -/
def kept (r : Reading) : Kept where
  flavor := r.flavor
  interfaces := r.config.interfaces
  addressObjects := r.config.addressObjects
  addressGroups := r.config.addressGroups
  services := r.config.services
  ikePolicies := r.config.vpn.ikePolicies
  securityProfiles := r.config.securityProfiles

/-- The open block, if what it builds is stored in one of the lists. -/
def builder? (r : Reading) : Option Block := r.block.bind Block.builder?

theorem builder?_of_block {r : Reading} {b : Block} (hblock : r.block = some b) :
    r.builder? = b.builder? := by
  rw [builder?, hblock]
  rfl

theorem builder?_of_block_none {r : Reading} (hblock : r.block = none) : r.builder? = none := by
  rw [builder?, hblock]
  rfl

/-- **A line of a block changes the block, and stores nothing.** -/
theorem kept_blockLine {r : Reading} {b : Block} (hblock : r.block = some b) (l : Line) :
    (r.blockLine b l).kept = r.kept
      ∧ (r.blockLine b l).builder? = b.builder?.map (Block.take l) := by
  have hbuilder := builder?_of_block hblock
  cases b with
  | object o =>
    unfold blockLine
    dsimp only
    split
    · next operands heq =>
      have hline : objectLine o l ("nat" :: operands) = o := rfl
      refine ⟨rfl, hbuilder.trans ?_⟩
      rw [Block.builder?, Option.map_some, Block.take, heq, hline]
    · exact ⟨rfl, rfl⟩
  | cryptoMap | aaaServer | groupPolicy | tunnelGroup | skip => exact ⟨rfl, hbuilder⟩
  | _ => exact ⟨rfl, rfl⟩

/-- **A directive opens the block that it names, and stores nothing.** -/
theorem kept_apply {r : Reading} (hblock : r.block = none) (d : Directive) :
    (r.apply d).kept = r.kept ∧ (r.apply d).builder? = d.builder? := by
  have hnone : r.builder? = none := builder?_of_block_none hblock
  cases d with
  | interface | objectNetwork | objectService | objectGroupNetwork | ikePolicy | profile | other =>
    exact ⟨rfl, rfl⟩
  | accessList acl line => cases line <;> exact ⟨rfl, hnone⟩
  | cryptoMap map line =>
    rw [apply]
    unfold applyCryptoMap
    split
    case h_2 | h_3 => exact ⟨rfl, rfl⟩
    all_goals exact ⟨rfl, hnone⟩
  | aaaServer name operands =>
    rw [apply]
    unfold applyServer
    split
    case h_2 | h_3 => exact ⟨rfl, rfl⟩
    all_goals exact ⟨rfl, hnone⟩
  | groupPolicy name kind =>
    rw [apply]
    unfold applyGroupPolicy
    split
    · exact ⟨rfl, rfl⟩
    · exact ⟨rfl, hnone⟩
  | tunnelGroup name operands =>
    rw [apply]
    unfold applyTunnelGroup
    split
    case h_2 | h_3 => exact ⟨rfl, rfl⟩
    all_goals exact ⟨rfl, hnone⟩
  | _ => exact ⟨rfl, hnone⟩

end Reading

end FirewallConfig.Cisco
