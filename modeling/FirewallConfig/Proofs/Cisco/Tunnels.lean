import FirewallConfig.Proofs.Cisco.Lines

/-!
# Proofs/Cisco/Tunnels — the lines about tunnels and servers

What one of the products writes about tunnels and servers holds no line feed, and no directive of
objects or groups begins any of its lines (`isApart_cryptoLines`, `isApart_serverLines`).  The sets
that tunnels name are followed through `selectSets`, which adds those that are not declared.
-/

namespace FirewallConfig.Cisco

open Text

/-! ## Transform sets -/

theorem oneLine_transformOfProposal {name : String} (h : OneLine name) :
    (transformOfProposal name).OneLine := by
  unfold transformOfProposal
  generalize (Text.cut '-' name).getD (name, "") = algorithms
  obtain ⟨encryption, hash⟩ := algorithms
  have hprotocol : OneLine "esp" := by decide
  refine { name := h, protocol := hprotocol, encryption := ?_, hash := ?_ }
  · dsimp only
    split <;> decide
  · dsimp only
    split <;> decide

section SelectSets

variable {sets : List TransformSet} (hsets : ∀ s ∈ sets, s.OneLine)
include hsets

theorem oneLine_chosenSet {proposal : String} (h : OneLine proposal) :
    OneLine (chosenSet sets proposal) := by
  unfold chosenSet
  split
  · next name names hwords => exact h.of_mem_words (by rw [hwords]; exact List.mem_cons_self)
  · exact (hsets _ List.mem_cons_self).name
  · decide

theorem oneLine_selectSet {t : Tunnel} (ht : t.OneLine) :
    OneLine (selectSet sets t).1 ∧ ∀ s ∈ (selectSet sets t).2, s.OneLine := by
  have hproposal : OneLine (t.proposal.getD "") := oneLine_getD ht.proposal (by decide)
  unfold selectSet
  dsimp only
  generalize t.proposal.getD "" = proposal at hproposal
  have hname := oneLine_chosenSet hsets hproposal
  split
  · exact ⟨hproposal, hsets⟩
  · refine ⟨hname, ?_⟩
    dsimp only
    split
    · exact hsets
    · exact List.forall_mem_append.2
        ⟨hsets, List.forall_mem_singleton.2 (oneLine_transformOfProposal hname)⟩

/-- **What tunnels name, and the sets that are written for it**, hold no line feed. -/
theorem oneLine_selectSets {ts : List Tunnel} (hts : ∀ t ∈ ts, t.OneLine) :
    (∀ p ∈ (selectSets sets ts).1, p.1.OneLine ∧ OneLine p.2)
      ∧ ∀ s ∈ (selectSets sets ts).2, s.OneLine := by
  induction ts generalizing sets with
  | nil => exact ⟨List.forall_mem_nil _, hsets⟩
  | cons t ts ih =>
    obtain ⟨ht, hts⟩ := List.forall_mem_cons.1 hts
    obtain ⟨hname, hsets⟩ := oneLine_selectSet hsets ht
    obtain ⟨hselected, hall⟩ := ih hsets hts
    exact ⟨List.forall_mem_cons.2 ⟨⟨ht, hname⟩, hselected⟩, hall⟩

end SelectSets

theorem isApart_transformSetLine {s : TransformSet} (hs : s.OneLine) :
    IsApart (transformSetLine s) := by
  have hencryption : OneLine s!"{s.protocol}-{s.encryption}" := by
    simp +decide [hs.protocol, hs.encryption]
  have hhash : OneLine s!"{s.protocol}-{s.hash}-hmac" := by simp +decide [hs.protocol, hs.hash]
  unfold transformSetLine
  generalize s!"{s.protocol}-{s.encryption}" = encryption at hencryption
  generalize s!"{s.protocol}-{s.hash}-hmac" = hash at hhash
  simp only [String.append_assoc, toString_text]
  exact IsApart.append (by decide) (by simp +decide [hs.name, hencryption, hhash])

/-! ## Policies, groups and maps -/

theorem isApart_ikePolicyLines {p : IkePolicy} (hp : p.OneLine) :
    ∀ l ∈ ikePolicyLines p, IsApart l := by
  have hline {s t : String} (hs : IsApart s ∧ s ≠ "") (ht : OneLine t) : IsApart (s ++ t) :=
    IsApart.append hs ht
  refine forall_mem_block (by decide) ?_
  simp only [List.forall_mem_cons]
  exact ⟨hline (by decide) hp.priority, hline (by decide) hp.authentication,
    hline (by decide) hp.encryption, hline (by decide) hp.hash, hline (by decide) hp.group,
    hline (by decide) hp.lifetime, List.forall_mem_nil _⟩

theorem isApart_groupPolicyLines {g : GroupPolicy} (hg : g.OneLine) :
    ∀ l ∈ groupPolicyLines g, IsApart l := by
  have hkind : OneLine (g.kind.getD "internal") := oneLine_getD hg.kind (by decide)
  have hsetting (command : String) (hcommand : IsApart command ∧ command ≠ "")
      {text : Option String} (htext : ∀ s ∈ text, OneLine s) :
      ∀ l ∈ text.toList.map (command ++ ·), IsApart l :=
    List.forall_mem_map.2 fun s hs => IsApart.append hcommand (htext s (Option.mem_toList.1 hs))
  have hattributes := List.forall_mem_append.2
    ⟨hsetting " vpn-tunnel-protocol " (by decide) hg.vpnProtocols,
      hsetting " dns-server value " (by decide) hg.dnsServer⟩
  unfold groupPolicyLines
  generalize g.kind.getD "internal" = kind at hkind
  dsimp only
  refine List.forall_mem_cons.2 ⟨?_, ?_⟩
  · simp only [String.append_assoc, toString_text]
    exact IsApart.append (by decide) (by simp +decide [hg.name, hkind])
  · split
    · exact List.forall_mem_nil _
    · refine List.forall_mem_cons.2 ⟨?_, hattributes⟩
      simp only [String.append_assoc, toString_text]
      exact IsApart.append (by decide) (by simp +decide [hg.name])

theorem isApart_keyLines {group key : String} (hgroup : OneLine group) (hkey : OneLine key) :
    ∀ l ∈ keyLines group key, IsApart l := by
  rw [keyLines]
  split
  · exact List.forall_mem_singleton.2
      (isIdle_notConverted (by simp +decide [hgroup])).isApart
  · refine List.forall_mem_cons.2 ⟨?_, List.forall_mem_singleton.2 (IsApart.append (by decide) hkey)⟩
    simp only [String.append_assoc, toString_text]
    exact IsApart.append (by decide) (by simp +decide [hgroup])

theorem isApart_tunnelGroupLines {g : TunnelGroup} (hg : g.OneLine) :
    ∀ l ∈ tunnelGroupLines g, IsApart l := by
  have hkind : OneLine (g.kind.getD "ipsec-l2l") := oneLine_getD hg.kind (by decide)
  have hname (attributes : String) (h : OneLine attributes) :
      IsApart ("tunnel-group " ++ (g.name ++ attributes)) :=
    IsApart.append (by decide) (oneLine_append.2 ⟨hg.name, h⟩)
  unfold tunnelGroupLines
  generalize g.kind.getD "ipsec-l2l" = kind at hkind
  dsimp only
  refine List.forall_mem_append.2 ⟨List.forall_mem_cons.2 ⟨?_,
    List.forall_mem_flatMap.2 fun policy hpolicy => ?_⟩,
    List.forall_mem_flatMap.2 fun key hkey =>
      isApart_keyLines hg.name (hg.preSharedKey key (Option.mem_toList.1 hkey))⟩
  · simp only [String.append_assoc, toString_text]
    exact hname _ (by simp +decide [hkind])
  · have hpolicy := hg.defaultGroupPolicy policy (Option.mem_toList.1 hpolicy)
    refine List.forall_mem_cons.2
      ⟨?_, List.forall_mem_singleton.2 (IsApart.append (by decide) hpolicy)⟩
    simp only [String.append_assoc, toString_text]
    exact hname _ (by decide)

/-! ## Tunnels -/

section Config

variable {c : Config} (hc : c.OneLine)
include hc

omit hc in
theorem oneLine_mapEntry {t : Tunnel} (ht : t.OneLine) (position : Nat) :
    OneLine (mapEntry t position).1 := by
  rw [mapEntry]
  split
  · exact ht.name
  · exact (by decide : OneLine defaultMap)

theorem oneLine_tunnelAcl {t : Tunnel} (ht : t.OneLine) :
    (∀ l ∈ (tunnelAcl c t).1, IsApart l) ∧ ∀ s ∈ (tunnelAcl c t).2, OneLine s := by
  have hacl : OneLine s!"{t.name}_cryptomap" := by simp +decide [ht.name]
  unfold tunnelAcl
  split
  · next acl h => exact ⟨List.forall_mem_nil _, forall_mem_some (ht.acl acl h)⟩
  · dsimp only
    generalize s!"{t.name}_cryptomap" = acl at hacl
    split
    · exact ⟨List.forall_mem_nil _, forall_mem_none⟩
    · next selectors _ hselectors =>
      refine ⟨List.forall_mem_map.2 fun s hs => ?_, forall_mem_some hacl⟩
      have hs := hc.vpn.selectors s (List.mem_filter.1 hs).1
      have hsource := oneLine_addressOperand c (oneLine_getD hs.source (by decide : OneLine ""))
      have hdestination :=
        oneLine_addressOperand c (oneLine_getD hs.destination (by decide : OneLine ""))
      simp only [String.append_assoc, toString_text]
      exact IsApart.append (by decide) (by simp +decide [hacl, hsource, hdestination])

theorem isApart_tunnelLines {t : Tunnel} (ht : t.OneLine) {sets : String} (hsets : OneLine sets)
    (position : Nat) : ∀ l ∈ tunnelLines c position t sets, IsApart l := by
  have hmap := oneLine_mapEntry ht position
  obtain ⟨hlines, hacl⟩ := oneLine_tunnelAcl hc ht
  unfold tunnelLines
  generalize mapEntry t position = entry at hmap
  generalize tunnelAcl c t = acls at hlines hacl
  obtain ⟨map, sequence⟩ := entry
  obtain ⟨aclLines, acl⟩ := acls
  dsimp only at hmap hlines hacl ⊢
  have hentry {setting : String} (h : OneLine setting) :
      IsApart s!"crypto map {map} {sequence} {setting}" := by
    simp only [String.append_assoc, toString_text]
    exact IsApart.append (by decide) (by simp +decide [hmap, h])
  refine List.forall_mem_append.2 ⟨List.forall_mem_append.2 ⟨List.forall_mem_append.2
    ⟨List.forall_mem_append.2 ⟨List.forall_mem_map.2 fun s hs => ?_, hlines⟩,
      List.forall_mem_map.2 fun s hs => ?_⟩,
      List.forall_mem_map.2 fun s hs => ?_⟩, List.forall_mem_singleton.2 ?_⟩
  · exact IsApart.append (by decide) (ht.description s (Option.mem_toList.1 hs))
  · exact hentry (by simp +decide [hacl s (Option.mem_toList.1 hs)])
  · exact hentry (by simp +decide [ht.peer s (Option.mem_toList.1 hs)])
  · exact hentry (by simp +decide [hsets])

theorem isApart_mapBindingLines : ∀ l ∈ mapBindingLines (mapBindings c), IsApart l := by
  have hbindings : ∀ b ∈ mapBindings c, OneLine b.1 ∧ OneLine b.2 := fun b hb => by
    obtain ⟨⟨t, position⟩, ht, rfl⟩ := List.mem_map.1 (List.mem_eraseDups.1 hb)
    have ht := hc.vpn.tunnels t (List.fst_mem_of_mem_zipIdx ht)
    exact ⟨oneLine_mapEntry ht position, oneLine_nameifOr hc (by decide) ht.interface⟩
  unfold mapBindingLines
  refine List.forall_mem_append.2
    ⟨List.forall_mem_map.2 fun b hb => ?_, List.forall_mem_map.2 fun s hs => ?_⟩
  · simp only [String.append_assoc, toString_text]
    exact IsApart.append (by decide) (by simp +decide [hbindings b hb])
  · obtain ⟨b, hb, rfl⟩ := List.mem_map.1 (List.mem_eraseDups.1 hs)
    exact IsApart.append (by decide) (hbindings b hb).2

theorem oneLine_writtenIkePolicies : ∀ p ∈ writtenIkePolicies c.vpn, p.OneLine := by
  rw [writtenIkePolicies]
  split
  · exact List.forall_mem_singleton.2 { priority := by decide }
  · exact hc.vpn.ikePolicies

theorem oneLine_writtenTunnelGroups : ∀ g ∈ writtenTunnelGroups c.vpn, g.OneLine := by
  refine List.forall_mem_append.2
    ⟨hc.vpn.tunnelGroups, List.forall_mem_filterMap.2 fun t ht g hg => ?_⟩
  obtain ⟨peer, hpeer, rfl⟩ := Option.map_eq_some_iff.1 hg
  have ht := hc.vpn.tunnels t ht
  exact { name := ht.peer peer (Option.filter_eq_some_iff.1 hpeer).1, preSharedKey := ht.preSharedKey }

omit hc in
/-- The part about tunnels, where there is anything about them. -/
theorem cryptoLines_eq (h : c.vpn.isEmpty = false) : cryptoLines c
    = block ((writtenIkePolicies c.vpn).flatMap ikePolicyLines
      ++ (selectSets c.vpn.transformSets c.vpn.tunnels).2.map transformSetLine
      ++ ((selectSets c.vpn.transformSets c.vpn.tunnels).1.zipIdx.flatMap
        fun ((t, sets), position) => tunnelLines c position t sets)
      ++ mapBindingLines (mapBindings c)
      ++ c.vpn.groupPolicies.flatMap groupPolicyLines
      ++ (writtenTunnelGroups c.vpn).flatMap tunnelGroupLines) := by
  rw [cryptoLines, h]
  rfl

omit hc in
/-- What holds of the lines of each thing holds of the whole part. -/
theorem forall_mem_cryptoLines {P : String → Prop} (hbang : P "!")
    (hpolicies : ∀ p ∈ writtenIkePolicies c.vpn, ∀ l ∈ ikePolicyLines p, P l)
    (hsets : ∀ s ∈ (selectSets c.vpn.transformSets c.vpn.tunnels).2, P (transformSetLine s))
    (htunnels : ∀ p ∈ (selectSets c.vpn.transformSets c.vpn.tunnels).1,
      ∀ position, ∀ l ∈ tunnelLines c position p.1 p.2, P l)
    (hbindings : ∀ l ∈ mapBindingLines (mapBindings c), P l)
    (hgroupPolicies : ∀ g ∈ c.vpn.groupPolicies, ∀ l ∈ groupPolicyLines g, P l)
    (hgroups : ∀ g ∈ writtenTunnelGroups c.vpn, ∀ l ∈ tunnelGroupLines g, P l) :
    ∀ l ∈ cryptoLines c, P l := by
  cases hempty : c.vpn.isEmpty with
  | true =>
    rw [cryptoLines, if_pos hempty]
    exact List.forall_mem_nil _
  | false =>
    rw [cryptoLines_eq hempty]
    refine forall_mem_block hbang ?_
    simp only [List.forall_mem_append, List.forall_mem_flatMap, List.forall_mem_map]
    exact ⟨⟨⟨⟨⟨hpolicies, hsets⟩,
      fun p hp => htunnels p.1 (List.fst_mem_of_mem_zipIdx hp) p.2⟩, hbindings⟩, hgroupPolicies⟩,
      hgroups⟩

/-- **The lines about tunnels** hold no line feed, and are about no object or group. -/
theorem isApart_cryptoLines : ∀ l ∈ cryptoLines c, IsApart l := by
  obtain ⟨hselected, hsets⟩ := oneLine_selectSets hc.vpn.transformSets hc.vpn.tunnels
  refine forall_mem_cryptoLines (by decide)
    (fun p hp => isApart_ikePolicyLines (oneLine_writtenIkePolicies hc p hp))
    (fun s hs => isApart_transformSetLine (hsets s hs)) (fun p hp position => ?_)
    (isApart_mapBindingLines hc) (fun g hg => isApart_groupPolicyLines (hc.vpn.groupPolicies g hg))
    fun g hg => isApart_tunnelGroupLines (oneLine_writtenTunnelGroups hc g hg)
  obtain ⟨ht, hnames⟩ := hselected p hp
  exact isApart_tunnelLines hc ht hnames position

/-! ## Servers -/

theorem isApart_serverLines {s : AaaServer} (hs : s.OneLine) : ∀ l ∈ serverLines c s, IsApart l := by
  have hinterface : OneLine (nameifOr c managementInterface s.interface) :=
    oneLine_nameifOr hc (by decide) hs.interface
  unfold serverLines
  generalize nameifOr c managementInterface s.interface = interface at hinterface
  refine forall_mem_block (by decide)
    (List.forall_mem_cons.2 ⟨?_, List.forall_mem_flatMap.2 fun host hhost => ?_⟩)
  · simp only [String.append_assoc, toString_text]
    exact IsApart.append (by decide) (by simp +decide [hs.name, hs.protocol])
  · have hhost := hs.host host (Option.mem_toList.1 hhost)
    refine List.forall_mem_append.2 ⟨List.forall_mem_cons.2
      ⟨?_, List.forall_mem_singleton.2 (IsApart.append (by decide) hs.port)⟩,
      List.forall_mem_map.2 fun dn hdn =>
        IsApart.append (by decide) (hs.baseDn dn (Option.mem_toList.1 hdn))⟩
    simp only [String.append_assoc, toString_text]
    exact IsApart.append (by decide) (by simp +decide [hs.name, hinterface, hhost])

end Config

end FirewallConfig.Cisco
