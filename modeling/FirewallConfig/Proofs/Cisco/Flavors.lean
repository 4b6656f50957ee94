import FirewallConfig.Proofs.Cisco.Blocks
import FirewallConfig.Proofs.Cisco.Profiles

/-!
# Proofs/Cisco/Flavors — what only one of the products has

One reading serves two products.  A directive that the product does not have opens a block that is
skipped, so nothing of what only the other one has gets into a configuration: neither a line of it nor
the block of another record is about it (`Reading.IsPlain`, kept by every line).  The lines of a block
that is skipped change nothing at all (`run_skip`), so they may as well not be there (`separated_read`).
-/

namespace FirewallConfig.Cisco

open Text

/-! ## Rules that translate addresses -/

theorem natKind?_ne_pool {keyword : String} {kind : NatKind} (h : natKind? keyword = some kind) :
    kind ≠ .pool := by
  unfold natKind? at h
  split at h <;> cases h <;> nofun

theorem kind_of_readTwice {rule : NatRule} {ws : List String} {read : NatRule}
    (h : readNatOperands.readTwice rule ws = some read) : read.kind ≠ .pool := by
  unfold readNatOperands.readTwice at h
  split at h
  · obtain ⟨kind, hkind, rfl⟩ := Option.map_eq_some_iff.1 h
    exact natKind?_ne_pool hkind
  · cases h

theorem kind_of_readLegacy {rule : NatRule} {ws : List String} {read : NatRule}
    (h : readNatOperands.readLegacy rule ws = some read) : read.kind = rule.kind := by
  unfold readNatOperands.readLegacy at h
  split at h
  · cases h
    rfl
  · split at h
    · cases h
      rfl
    · cases h
  · cases h

theorem kind_of_readNatOperands {rule : NatRule} (hrule : rule.kind ≠ .pool)
    {object : Option String} {ws : List String} {read : NatRule}
    (h : readNatOperands rule object ws = some read) : read.kind ≠ .pool := by
  unfold readNatOperands at h
  split at h
  · obtain ⟨kind, hkind, rfl⟩ := Option.map_eq_some_iff.1 h
    exact natKind?_ne_pool hkind
  · cases h
  · split at h
    · next htwice =>
      cases h
      exact kind_of_readTwice htwice
    · rwa [kind_of_readLegacy h]

/-- **A line with `nat` gives no pool.** -/
theorem kind_of_readNat {object : Option String} {ws : List String} {rule : NatRule}
    (h : readNat object ws = some rule) : rule.kind ≠ .pool := by
  unfold readNat at h
  split at h
  · cases h
  · split at h
    · cases h
    · have hdynamic : NatKind.dynamic ≠ .pool := by decide
      exact kind_of_readNatOperands hdynamic h

/-- The rule that a directive gives is no pool, unless it gives one in either product. -/
theorem kind_of_read_nat {l : Line} {given : Option NatRule} (h : Directive.read l = .nat given) :
    ∀ rule ∈ given.toList, rule.kind ≠ .pool := by
  intro rule hrule
  rw [Directive.read] at h
  split at h
  · cases h
  · have hreads := Directive.reads_readWords l l.words
    rw [h] at hreads
    generalize l.words = ws at hreads
    cases hreads with
    | nat => exact kind_of_readNat (Option.mem_toList.1 hrule)

/-! ## What one product has not -/

/-- Nothing in the configuration is of a kind that only one of the products has. -/
structure HasNoAsa (c : Config) : Prop where
  vpn : c.vpn = {}
  aaaServers : c.aaaServers = []
  enablePassword : c.device.enablePassword = none
  password : c.device.password = none
  nat : ∀ rule ∈ c.nat, rule.kind ≠ .pool

/-- The product can open the block. -/
def Flavor.opens : Flavor → Block → Bool
  | .asa, .profile _ => false
  | .ftd, .ikePolicy _ | .ftd, .cryptoMap .. | .ftd, .aaaServer _ | .ftd, .groupPolicy _
  | .ftd, .tunnelGroup _ => false
  | _, _ => true

namespace Reading

/-- What has been read, and the open block, are of kinds that both products have, or only the second
one. -/
structure IsPlain (r : Reading) : Prop where
  flavor : r.flavor = .ftd
  config : HasNoAsa r.config
  opened : ∀ b ∈ r.block, Flavor.ftd.opens b = true

namespace IsPlain

variable {r : Reading} (hr : r.IsPlain)
include hr

theorem closeBlock : r.closeBlock.IsPlain := by
  refine ⟨r.flavor_closeBlock.trans hr.flavor, ?_, ?_⟩
  · obtain ⟨-, hconfig, hopened⟩ := hr
    unfold Reading.closeBlock
    split
    · next b hblock =>
      have hopens := hopened b hblock
      cases b with
      | ikePolicy => cases hopens
      | _ => exact { hconfig with }
    · exact hconfig
  · rw [block_closeBlock]
    exact forall_mem_none

theorem addNat {given : Option NatRule} (hgiven : ∀ rule ∈ given.toList, rule.kind ≠ .pool) :
    (r.addNat given).IsPlain :=
  ⟨hr.flavor, { hr.config with nat := List.forall_mem_append.2 ⟨hr.config.nat, hgiven⟩ }, hr.opened⟩

theorem openBlock {b : Block} (hb : Flavor.ftd.opens b = true) : (r.openBlock b).IsPlain :=
  ⟨hr.flavor, hr.config, forall_mem_some hb⟩

theorem blockLine {b : Block} (hblock : r.block = some b) (l : Line) :
    (r.blockLine b l).IsPlain := by
  have hopens := hr.opened b hblock
  cases b with
  | object o =>
    unfold Reading.blockLine
    dsimp only
    split
    · exact hr.addNat fun rule hrule => kind_of_readNat (Option.mem_toList.1 hrule)
    · exact hr.openBlock rfl
  | interface | service | group | profile => exact hr.openBlock rfl
  | skip => exact hr
  | ikePolicy | cryptoMap | aaaServer | groupPolicy | tunnelGroup => cases hopens

theorem apply {l : Line} {d : Directive} (hd : d = .other ∨ d = Directive.read l)
    (henables : Flavor.ftd.enables d = true) : (r.apply d).IsPlain := by
  cases d with
  | interface | objectNetwork | objectService | objectGroupNetwork | profile | other =>
    exact hr.openBlock rfl
  | nat given =>
    rcases hd with hd | hd
    · cases hd
    · exact hr.addNat (kind_of_read_nat hd.symm)
  | accessList acl line => cases line <;> exact ⟨hr.flavor, { hr.config with }, hr.opened⟩
  | ikePolicy | transformSet | cryptoMap | aaaServer | groupPolicy | tunnelGroup | enablePassword
  | password | pool | staticNat => cases henables
  | _ => exact ⟨hr.flavor, { hr.config with }, hr.opened⟩

theorem step (raw : String) : (r.step raw).IsPlain := by
  have hmoves := moves_step r raw
  generalize r.step raw = r' at hmoves ⊢
  cases hmoves with
  | stay => exact hr
  | close => exact hr.closeBlock
  | blockLine hblock => exact hr.blockLine hblock _
  | apply _ hd _ henables => exact hr.closeBlock.apply hd (hr.flavor ▸ henables)

theorem run (ls : List String) : (r.run ls).IsPlain :=
  run_invariant (fun _ raw hr => hr.step raw) hr ls

end IsPlain

end Reading

/-- **What only one of the products has is not read for the other.** -/
theorem hasNoAsa_read (text : String) : HasNoAsa (read .ftd text) := by
  have hstart : (Reading.start .ftd).IsPlain :=
    ⟨rfl, ⟨rfl, rfl, rfl, rfl, List.forall_mem_nil _⟩, forall_mem_none⟩
  obtain ⟨-, hconfig, -⟩ := (hstart.run (lines text)).closeBlock
  refine { hconfig with vpn := ?_ }
  rw [read, Reading.finish]
  dsimp only
  rw [hconfig.vpn]
  rfl

/-! ## Blocks that are skipped -/

/-- The line stands alone, and is a directive that the product does not have. -/
def IsForeignHeader (flavor : Flavor) (raw : String) : Prop :=
  isIndented raw = false ∧ flavor.enables (Directive.read (Line.ofText raw)) = false

instance (flavor : Flavor) (raw : String) : Decidable (IsForeignHeader flavor raw) :=
  inferInstanceAs (Decidable (_ ∧ _))

namespace Reading

theorem flavor_run (r : Reading) (ls : List String) : (r.run ls).flavor = r.flavor :=
  run_invariant (P := fun s => s.flavor = r.flavor) (fun s raw hs => (s.flavor_step raw).trans hs)
    rfl ls

/-- **A directive that the product does not have opens a block that is skipped.** -/
theorem block_step_foreign {r : Reading} {raw : String} (h : IsForeignHeader r.flavor raw) :
    (r.step raw).block = some .skip := by
  obtain ⟨hraw, henables⟩ := h
  have hne {d : Directive} (hd : r.flavor.enables d = true) : Directive.read (Line.ofText raw) ≠ d :=
    fun heq => by rw [heq, hd] at henables; cases henables
  have hbang : r.flavor.enables .bang = true := by cases r.flavor <;> rfl
  have hother : r.flavor.enables .other = true := by cases r.flavor <;> rfl
  rw [step_of_read r hraw rfl (hne hbang) (hne hother), henables]
  rfl

/-- The lines of a block that is skipped change nothing. -/
theorem run_skip {r : Reading} (hblock : r.block = some .skip) {ls : List String}
    (h : ∀ raw ∈ ls, endsBlock raw = false) : r.run ls = r := by
  induction ls with
  | nil => rfl
  | cons raw ls ih =>
    obtain ⟨hraw, hls⟩ := List.forall_mem_cons.1 h
    have hstep : r.step raw = r := by
      rw [step_below hblock hraw]
      exact ite_self r
    rw [run_cons, hstep, ih hls]

end Reading

/-- Below a header that the product does not have, the lines of its block may be left out. -/
theorem read_eq_of_isForeignHeader {flavor : Flavor} {text text' header : String}
    {before body after : List String} (hheader : IsForeignHeader flavor header)
    (hbody : ∀ raw ∈ body, endsBlock raw = false)
    (htext : lines text = before ++ header :: (body ++ after))
    (htext' : lines text' = before ++ header :: after) : read flavor text = read flavor text' := by
  have hflavor : ((Reading.start flavor).run before).flavor = flavor := Reading.flavor_run _ _
  have hblock := Reading.block_step_foreign (r := (Reading.start flavor).run before)
    (hflavor.symm ▸ hheader)
  rw [read, read, htext, htext', Reading.run_append, Reading.run_append, Reading.run_cons,
    Reading.run_cons, Reading.run_append, Reading.run_skip hblock hbody]

/-- **The two products are kept apart.**  Of a text for one of them, nothing is read about tunnels,
servers, passwords of the device or pools of addresses, and of a text for the other no profile.  For
either, the lines below the header of a directive that it does not have, up to the line that ends the
block, may be left out. -/
theorem separated_read :
    (∀ text : String, HasNoAsa (read .ftd text))
      ∧ (∀ text : String, (read .asa text).securityProfiles = [])
      ∧ ∀ (flavor : Flavor) (text text' header : String) (before body after : List String),
        IsForeignHeader flavor header → (∀ raw ∈ body, endsBlock raw = false) →
          lines text = before ++ header :: (body ++ after) →
          lines text' = before ++ header :: after → read flavor text = read flavor text' :=
  ⟨hasNoAsa_read, securityProfiles_read_asa,
    fun _ _ _ _ _ _ _ hheader hbody htext htext' =>
      read_eq_of_isForeignHeader hheader hbody htext htext'⟩

/-- An object, the header of a tunnel group in its block, and lines below it that look like others. -/
def foreignBlockLines : List String :=
  ["object network web", " host 10.0.0.1", "tunnel-group 192.0.2.1 ipsec-attributes",
   " host 10.0.0.2", "nameif inside", "!", "hostname fw"]

/-- They are no lines of the object. -/
theorem separated_read_foreignBlockLines :
    IsForeignHeader .ftd "tunnel-group 192.0.2.1 ipsec-attributes"
      ∧ (∀ raw ∈ [" host 10.0.0.2", "nameif inside"], endsBlock raw = false)
      ∧ read .ftd (unlines foreignBlockLines)
        = read .ftd (unlines ["object network web", " host 10.0.0.1",
          "tunnel-group 192.0.2.1 ipsec-attributes", "!", "hostname fw"]) := by
  have hheader : IsForeignHeader .ftd "tunnel-group 192.0.2.1 ipsec-attributes" := by decide +kernel
  have hbody : ∀ raw ∈ [" host 10.0.0.2", "nameif inside"], endsBlock raw = false := by
    decide +kernel
  refine ⟨hheader, hbody, separated_read.2.2 .ftd _ _ _ ["object network web", " host 10.0.0.1"] _
    ["!", "hostname fw"] hheader hbody ?_ ?_⟩
  · rw [lines_unlines_map (by decide +kernel)]
    decide +kernel
  · rw [lines_unlines_map (by decide +kernel)]
    decide +kernel

end FirewallConfig.Cisco
