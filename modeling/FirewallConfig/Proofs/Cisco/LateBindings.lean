import FirewallConfig.Proofs.Cisco.CryptoMaps
import FirewallConfig.Proofs.Cisco.Standing

/-!
# Proofs/Cisco/LateBindings — what is joined once a text has ended

A rule is told where its traffic comes from by a binding of its access list, and a tunnel is told its
interface by a line about its crypto map and its key by the group that its peer names.  None of them
says so where it is read: its lines leave it open (`sourceZone_of_mem_policies`, `IsOpenEnded`), the
bindings are kept aside in order (`mapInterfaces_run`), and both are joined at the end.  So it does not
matter where the lines stand, but for which of two bindings comes first (`joined_read`).
-/

namespace FirewallConfig

namespace Cisco

open Text

/-! ## Rules -/

theorem sourceZone_of_readEntryOperands {action : Action} {protocol : String}
    {named ws : List String} {rule : Policy}
    (h : readEntryOperands action protocol named ws = some rule) : rule.sourceZone = none := by
  rw [readEntryOperands] at h
  split at h
  · cases h
  · split at h
    · cases h
    · cases h
      rfl

theorem sourceZone_of_readEntry {ws : List String} {rule : Policy} (h : readEntry ws = some rule) :
    rule.sourceZone = none := by
  unfold readEntry at h
  split at h
  · cases h
  · split at h
    · split at h
      · exact sourceZone_of_readEntryOperands h
      · exact sourceZone_of_readEntryOperands h
      · exact sourceZone_of_readEntryOperands h
      · cases h
    · cases h

/-- An entry of an access list says nothing of interfaces. -/
theorem sourceZone_of_mem_policies {text : String} {p : Policy} (h : p ∈ (accessOf text).policies) :
    p.sourceZone = none := by
  rcases Access.mem_policies_foldl h with hnil | ⟨raw, -, acl, entry, hread, id, description, rfl⟩
  · exact absurd hnil List.not_mem_nil
  · show entry.sourceZone = none
    obtain ⟨ws, -, hentry | ⟨action, hentry⟩⟩ := exists_readEntry_of_read hread
    · exact sourceZone_of_readEntry hentry
    · obtain ⟨operand, -, rfl⟩ := Option.map_eq_some_iff.1 hentry
      rfl

/-- The interface that a list is bound to first, of the bindings for traffic coming in. -/
def inboundInterface? (bindings : List AccessBinding) (acl : Option String) : Option String :=
  (bindings.find? fun b => b.direction == "in" && acl == some b.acl).map (·.interface)

/-- **A rule of a text has the interface that its list is bound to first.** -/
theorem sourceZone_of_mem_read {flavor : Flavor} {text : String} {p : Policy}
    (hp : p ∈ (read flavor text).policies) :
    p.sourceZone = inboundInterface? (read flavor text).accessBindings p.name := by
  rw [accessBindings_read]
  rw [policies_read] at hp
  obtain ⟨q, hq, rfl⟩ := List.mem_map.1 hp
  rw [Reading.joinPolicy, sourceZone_of_mem_policies hq, Option.none_or]
  rfl

/-! ## Crypto maps -/

/-- The crypto map and the interface that words bind it to. -/
def boundMap? : List String → Option (String × String)
  | "crypto" :: "map" :: map :: "interface" :: interface :: _ => some (map, interface)
  | _ => none

/-- The crypto map that a line binds, and its interface.  The line stands alone. -/
def mapBinding? (raw : String) : Option (String × String) :=
  if isIndented raw then none else boundMap? (words raw)

/-- The crypto map that a directive binds, and its interface. -/
def Directive.mapBinding? : Directive → Option (String × String)
  | .cryptoMap map (.bind served) => some (map, served)
  | _ => none

theorem mapBinding?_readWords (l : Line) (ws : List String) :
    (Directive.readWords l ws).mapBinding? = boundMap? ws := by
  unfold boundMap?
  split
  · rfl
  · next hnot =>
    have hreads := Directive.reads_readWords l ws
    generalize Directive.readWords l ws = d at hreads ⊢
    cases hreads with
    | cryptoMap map operand rest =>
      unfold readCryptoMap
      split
      · exact absurd rfl (hnot map _ _)
      · split <;> rfl
    | _ => rfl

namespace Reading

theorem mapInterfaces_closeBlock (r : Reading) : r.closeBlock.mapInterfaces = r.mapInterfaces := by
  unfold closeBlock
  split <;> rfl

theorem mapInterfaces_blockLine (r : Reading) (b : Block) (l : Line) :
    (r.blockLine b l).mapInterfaces = r.mapInterfaces := by
  cases b with
  | object o =>
    unfold blockLine
    dsimp only
    split <;> rfl
  | _ => rfl

theorem mapInterfaces_apply (r : Reading) (d : Directive) :
    (r.apply d).mapInterfaces = r.mapInterfaces ++ d.mapBinding?.toList := by
  have hnone {s : Reading} (h : s.mapInterfaces = r.mapInterfaces) :
      s.mapInterfaces = r.mapInterfaces ++ [] := h.trans (List.append_nil _).symm
  cases d with
  | accessList acl line => cases line <;> exact hnone rfl
  | cryptoMap map line =>
    rw [apply]
    cases line with
    | bind interface => rfl
    | entry sequence setting =>
      refine hnone ?_
      unfold applyCryptoMap
      split <;> first | rfl | contradiction
    | unreadable => exact hnone rfl
  | aaaServer name operands =>
    rw [apply]
    unfold applyServer
    split <;> exact hnone rfl
  | groupPolicy name kind =>
    rw [apply]
    unfold applyGroupPolicy
    split <;> exact hnone rfl
  | tunnelGroup name operands =>
    rw [apply]
    unfold applyTunnelGroup
    split <;> exact hnone rfl
  | _ => exact hnone rfl

end Reading

/-- The interfaces of crypto maps, which the lines that bind them say. -/
def mapBindingKind : StandingKind (String × String) where
  kept := Reading.mapInterfaces
  ofWords? := boundMap?
  ofDirective? := Directive.mapBinding?
  ofDirective?_readWords := mapBinding?_readWords
  ofDirective?_other := rfl
  kept_closeBlock := Reading.mapInterfaces_closeBlock
  kept_blockLine := Reading.mapInterfaces_blockLine
  kept_apply := Reading.mapInterfaces_apply

theorem Reading.mapInterfaces_run {r : Reading} (hflavor : r.flavor = .asa) (ls : List String) :
    (r.run ls).mapInterfaces = r.mapInterfaces ++ ls.filterMap mapBinding? := by
  refine mapBindingKind.kept_run (fun d hd => ?_) ls
  cases d with
  | cryptoMap => rw [hflavor]; rfl
  | _ => cases hd

/-! ## Tunnels -/

/-- Nothing has been joined to the tunnel yet. -/
def IsOpenEnded (t : Tunnel) : Prop := t.interface = none ∧ t.preSharedKey = none

/-- A setting of a crypto map says nothing of what is joined at the end. -/
theorem isOpenEnded_tunnelLine (t : Tunnel) (setting : List String) (h : IsOpenEnded t) :
    IsOpenEnded (tunnelLine t setting) := by
  unfold tunnelLine
  split <;> exact h

theorem isOpenEnded_run (flavor : Flavor) (ls : List String) :
    ∀ t ∈ ((Reading.start flavor).run ls).config.vpn.tunnels, IsOpenEnded t :=
  Reading.forall_mem_tunnels_run (fun _ _ => ⟨rfl, rfl⟩) isOpenEnded_tunnelLine
    (List.forall_mem_nil _) ls

/-- The interface that a crypto map is bound to last. -/
def servedInterface? (ls : List String) (map : String) : Option String :=
  ((ls.filterMap mapBinding?).filter (·.1 == map)).getLast?.map Prod.snd

/-- The key of the group that a peer names. -/
def groupKey? (groups : List TunnelGroup) (peer : Option String) : Option String :=
  (peer.bind fun name => groups.find? (·.name == name)).bind (·.preSharedKey)

/-- The last of those that fit is the first one from behind. -/
theorem getLast?_filter {α : Type} (p : α → Bool) (as : List α) :
    (as.filter p).getLast? = as.reverse.find? p := by
  rw [← List.head?_reverse, ← List.filter_reverse, List.head?_filter]

theorem joined_of_mem_tunnels {text : String} {t : Tunnel} (ht : t ∈ (read .asa text).vpn.tunnels) :
    t.interface = servedInterface? (lines text) t.name
      ∧ t.preSharedKey = groupKey? (read .asa text).vpn.tunnelGroups t.peer := by
  obtain ⟨u, hu, rfl⟩ := List.mem_map.1 ht
  rw [(Reading.vpn_closeBlock _).2] at hu
  obtain ⟨hinterface, hkey⟩ := isOpenEnded_run .asa (lines text) u hu
  have hmaps : ((Reading.start .asa).run (lines text)).mapInterfaces
      = (lines text).filterMap mapBinding? := Reading.mapInterfaces_run rfl _
  rw [Reading.joinTunnel, hmaps, hinterface, hkey, Option.or_none, Option.none_or, servedInterface?,
    getLast?_filter]
  exact ⟨rfl, rfl⟩

/-- The last line that binds the map counts. -/
example : servedInterface? ["crypto map M interface dmz", "crypto map M interface outside"] "M"
    = some "outside" := by decide +kernel

/-- **What is joined at the end does not depend on where the lines stand.**  A rule has the interface
that its list is bound to first, for traffic coming in.  A tunnel has the interface that its map is
bound to last, and the key of the group that its peer names. -/
theorem joined_read :
    (∀ (flavor : Flavor) (text : String), ∀ p ∈ (read flavor text).policies,
        p.sourceZone = inboundInterface? (read flavor text).accessBindings p.name)
      ∧ ∀ text : String, ∀ t ∈ (read .asa text).vpn.tunnels,
        t.interface = servedInterface? (lines text) t.name
          ∧ t.preSharedKey = groupKey? (read .asa text).vpn.tunnelGroups t.peer :=
  ⟨fun _ _ _ hp => sourceZone_of_mem_read hp, fun _ _ ht => joined_of_mem_tunnels ht⟩

/-- An access list with a binding before its entry and one behind it, and a tunnel with the lines about
its map and its group around it. -/
def scatteredLines : List String :=
  ["access-group A in interface outside", "crypto map M interface dmz",
   "tunnel-group 192.0.2.2 ipsec-attributes", " pre-shared-key secret",
   "access-list A extended permit ip any any", "crypto map M 10 set peer 192.0.2.1",
   "crypto map M 10 set peer 192.0.2.2", "access-group A in interface inside",
   "crypto map M interface outside"]

/-- The first binding of the list counts, the last one of the map, and the last peer. -/
theorem joined_read_scatteredLines :
    let c := read .asa (unlines scatteredLines)
    (∃ p ∈ c.policies, p.sourceZone = some "outside")
      ∧ ∃ t ∈ c.vpn.tunnels, t.interface = some "outside" ∧ t.preSharedKey = some "secret" := by
  intro c
  obtain ⟨hrules, htunnels⟩ := joined_read
  have hone : ∀ l ∈ scatteredLines, OneLine l := by decide +kernel
  have hread : (c.policies.map (·.name), c.accessBindings,
      c.vpn.tunnels.map fun t => (t.name, t.peer), c.vpn.tunnelGroups)
      = ([some "A"], [⟨"A", "in", "outside"⟩, ⟨"A", "in", "inside"⟩], [("M", some "192.0.2.2")],
        [{ name := "192.0.2.2", preSharedKey := some "secret" }]) := by
    dsimp only [c]
    rw [read, Reading.run_lines_unlines _ hone]
    decide +kernel
  have hlines : servedInterface? (lines (unlines scatteredLines)) "M" = some "outside" := by
    rw [lines_unlines_map hone]
    decide +kernel
  simp only [Prod.mk.injEq] at hread
  obtain ⟨hnames, hbindings, hpeers, hgroups⟩ := hread
  constructor
  · obtain ⟨p, hp, hname⟩ := List.mem_map.1 (hnames ▸ List.mem_singleton_self _)
    refine ⟨p, hp, ?_⟩
    rw [hrules .asa _ p hp, hname, hbindings]
    rfl
  · obtain ⟨t, ht, hpeer⟩ := List.mem_map.1 (hpeers ▸ List.mem_singleton_self _)
    obtain ⟨hname, hpeer⟩ := Prod.mk.inj hpeer
    obtain ⟨hinterface, hkey⟩ := htunnels _ t ht
    rw [hname, hlines] at hinterface
    rw [hpeer, hgroups] at hkey
    exact ⟨t, ht, hinterface, hkey⟩

end Cisco

end FirewallConfig
