import FirewallConfig.Proofs.Cisco.CryptoMaps
import FirewallConfig.Proofs.Cisco.OneLine
import FirewallConfig.Proofs.Cisco.RuleNames
import FirewallConfig.Proofs.FortiOs.Rules
import FirewallConfig.Proofs.PanOs.OneLine

/-!
# Proofs/FortiOs/Phases — how the two phases of the tunnels in a text hang together

A second phase belongs to the first phase that it names.  Main statement: which of the two
directions of this holds in what is written of a text (`phases_written_iff`).  Tunnels of crypto
maps are told apart by their labels, but a tunnel is taken to have a second phase also where one
stands under its bare name; and a selector is written whether or not its tunnel is.
-/

namespace FirewallConfig

namespace FortiOs

/-- The names of the first phases in a text. -/
def phaseOnes (text : String) : List String :=
  (entriesAt "vpn ipsec phase1-interface" (readForest text)).map (·.name)

/-- The names of the first phases that the second phases in a text belong to. -/
def phaseOnesNamed (text : String) : List (Option String) :=
  (entriesAt "vpn ipsec phase2-interface" (readForest text)).map
    fun e => valueOf e.settings "phase1name"

/-- Every second phase names a first phase that stands in the text. -/
def PhaseTwosResolve (text : String) : Prop :=
  ∀ named ∈ phaseOnesNamed text, ∃ name ∈ phaseOnes text, named = some name

/-- Every first phase is named by a second phase. -/
def PhaseOnesAreNamed (text : String) : Prop :=
  ∀ name ∈ phaseOnes text, some name ∈ phaseOnesNamed text

/-! ## The second phases that are added -/

section AddMissing

variable (c : Config)

/-- A second phase that was there stays, also while others are added. -/
theorem mem_addMissing_of_mem {phases : List PhaseTwo} {p : PhaseTwo} (hp : p ∈ phases)
    (ts : List Tunnel) : p ∈ addMissing c phases ts := by
  induction ts generalizing phases with
  | nil => exact hp
  | cons t ts ih =>
    rw [addMissing]
    split
    · exact ih hp
    · exact ih (List.mem_append_left _ hp)

/-- A second phase was there, or it is one of the tunnels. -/
theorem mem_addMissing {phases : List PhaseTwo} {ts : List Tunnel} {p : PhaseTwo}
    (hp : p ∈ addMissing c phases ts) : p ∈ phases ∨ ∃ t ∈ ts, p = .ofTunnel c t := by
  induction ts generalizing phases with
  | nil => exact .inl hp
  | cons t ts ih =>
    rw [addMissing] at hp
    rcases ih hp with hp | ⟨s, hs, rfl⟩
    · split at hp
      · exact .inl hp
      · exact (List.mem_append.1 hp).imp_right fun hp =>
          ⟨t, List.mem_cons_self, List.mem_singleton.1 hp⟩
    · exact .inr ⟨s, List.mem_cons_of_mem _ hs, rfl⟩

theorem isSelected_iff {phases : List PhaseTwo} {t : Tunnel} : isSelected phases t = true
    ↔ ∃ p ∈ phases, p.phaseOne = t.label ∨ p.phaseOne = t.name := by
  simp [isSelected]

/-- **Where tunnels are called by their names alone, each has a second phase.** -/
theorem exists_mem_addMissing {ts : List Tunnel} (hlabels : ∀ t ∈ ts, t.label = t.name)
    (phases : List PhaseTwo) {t : Tunnel} (ht : t ∈ ts) :
    ∃ p ∈ addMissing c phases ts, p.phaseOne = t.label := by
  induction ts generalizing phases with
  | nil => cases ht
  | cons s ts ih =>
    obtain ⟨hs, hts⟩ := List.forall_mem_cons.1 hlabels
    rw [addMissing]
    rcases List.mem_cons.1 ht with rfl | ht
    · split
      · next hselected =>
        obtain ⟨p, hp, hname⟩ := isSelected_iff.1 hselected
        rw [← hs, or_self] at hname
        exact ⟨p, mem_addMissing_of_mem c hp ts, hname⟩
      · exact ⟨.ofTunnel c t, mem_addMissing_of_mem c (List.mem_append_right _
          (List.mem_singleton_self _)) ts, rfl⟩
    · exact ih hts _ ht

/-- **Tunnels with labels of their own all have second phases just if none is called like the label
of one before it**, or like the first phase of a second phase that was there. -/
theorem forall_exists_mem_addMissing_iff {ts : List Tunnel} (hlabels : (ts.map Tunnel.label).Nodup)
    {phases : List PhaseTwo} (hfresh : ∀ p ∈ phases, ∀ t ∈ ts, p.phaseOne ≠ t.label) :
    (∀ t ∈ ts, ∃ p ∈ addMissing c phases ts, p.phaseOne = t.label)
      ↔ (∀ p ∈ phases, ∀ t ∈ ts, p.phaseOne ≠ t.name)
        ∧ ts.Pairwise fun s t => s.label ≠ t.name := by
  induction ts generalizing phases with
  | nil => simp
  | cons t ts ih =>
    obtain ⟨ht, hts⟩ := List.nodup_cons.1 hlabels
    have hne : ∀ s ∈ ts, t.label ≠ s.label := fun s hs heq =>
      ht (heq ▸ List.mem_map_of_mem hs)
    rw [addMissing]
    cases hselected : isSelected phases t with
    | true =>
      -- the second phase that selects the tunnel is not its own, and it gets none
      obtain ⟨p, hp, hlabel | hname⟩ := isSelected_iff.1 hselected
      · exact absurd hlabel (hfresh p hp t List.mem_cons_self)
      refine iff_of_false (fun hall => ?_)
        fun hright => hright.1 p hp t List.mem_cons_self hname
      obtain ⟨q, hq, hq'⟩ := hall t List.mem_cons_self
      rcases mem_addMissing c hq with hq | ⟨s, hs, rfl⟩
      · exact hfresh q hq t List.mem_cons_self hq'
      · exact hne s hs hq'.symm
    | false =>
      have hfree : ∀ p ∈ phases, p.phaseOne ≠ t.name := fun p hp heq => by
        rw [isSelected_iff.2 ⟨p, hp, .inr heq⟩] at hselected
        cases hselected
      have hown : ∃ p ∈ addMissing c (phases ++ [.ofTunnel c t]) ts, p.phaseOne = t.label :=
        ⟨.ofTunnel c t, mem_addMissing_of_mem c (List.mem_append_right _
          (List.mem_singleton_self _)) ts, rfl⟩
      have hstill : ∀ p ∈ phases ++ [.ofTunnel c t], ∀ s ∈ ts, p.phaseOne ≠ s.label :=
        List.forall_mem_append.2 ⟨fun p hp s hs => hfresh p hp s (List.mem_cons_of_mem _ hs),
          List.forall_mem_singleton.2 hne⟩
      have hrest := ih hts hstill
      rw [if_neg Bool.false_ne_true, List.forall_mem_cons, hrest, List.forall_mem_append,
        List.forall_mem_singleton, List.pairwise_cons]
      constructor
      · rintro ⟨-, ⟨hold, hnew⟩, hpairs⟩
        exact ⟨fun p hp => List.forall_mem_cons.2 ⟨hfree p hp, hold p hp⟩, hnew, hpairs⟩
      · rintro ⟨hold, hnew, hpairs⟩
        exact ⟨hown, ⟨fun p hp => (List.forall_mem_cons.1 (hold p hp)).2, hnew⟩, hpairs⟩

end AddMissing

/-! ## The phases in a written text -/

section Written

variable (origin : Dialect) {c : Config} (hc : c.OneLine)
include hc

theorem phaseOnes_write :
    phaseOnes (write origin c) = c.vpn.peeredTunnels.map fun (t, _) => t.label := by
  have hentries : entriesAt "vpn ipsec phase1-interface" ((document c).map Section.readBack)
      = (c.vpn.peeredTunnels.map fun (t, peer) => phaseOneEntry c t peer).map Entry.readBack := by
    rw [entriesAt_listings (by decide) (by decide)]
    simp [listings]
  rw [phaseOnes, readForest_write hc, hentries, List.map_map, List.map_map]
  rfl

theorem phaseOnesNamed_write :
    phaseOnesNamed (write origin c) = (phaseTwos c).map fun p => some p.phaseOne := by
  have hentries : entriesAt "vpn ipsec phase2-interface" ((document c).map Section.readBack)
      = ((phaseTwos c).map phaseTwoEntry).map Entry.readBack := by
    rw [entriesAt_listings (by decide) (by decide)]
    simp [listings]
  have hvalue (p : PhaseTwo) :
      valueOf (phaseTwoEntry p).readBack.settings "phase1name" = some p.phaseOne := by
    have hkeys : ((phaseTwoEntry p).readBack.settings.map Setting.key).Nodup := by
      show ["phase1name", "proposal", "src-subnet", "dst-subnet"].Nodup
      decide
    have hmem : (⟨"phase1name", [p.phaseOne]⟩ : Setting String)
        ∈ (phaseTwoEntry p).readBack.settings := by
      rw [← readBack_quotedSetting]
      exact List.mem_cons_self
    rw [valueOf, valuesOf_eq hkeys hmem]
    rfl
  rw [phaseOnesNamed, readForest_write hc, hentries, List.map_map, List.map_map]
  simp only [Function.comp_def, hvalue]

theorem phaseTwosResolve_write_iff : PhaseTwosResolve (write origin c)
    ↔ ∀ p ∈ phaseTwos c, ∃ t ∈ c.vpn.peeredTunnels.map Prod.fst, p.phaseOne = t.label := by
  rw [PhaseTwosResolve, phaseOnes_write origin hc, phaseOnesNamed_write origin hc,
    List.forall_mem_map]
  refine forall₂_congr fun p _ => ?_
  simp [eq_comm]

theorem phaseOnesAreNamed_write_iff : PhaseOnesAreNamed (write origin c)
    ↔ ∀ t ∈ c.vpn.peeredTunnels.map Prod.fst, ∃ p ∈ phaseTwos c, p.phaseOne = t.label := by
  rw [PhaseOnesAreNamed, phaseOnes_write origin hc, phaseOnesNamed_write origin hc,
    List.forall_mem_map, List.forall_mem_map]
  refine forall₂_congr fun t _ => ?_
  simp

end Written

/-- The tunnels of a text whose peer is known. -/
theorem map_fst_peeredTunnels (v : Vpn) :
    v.peeredTunnels.map Prod.fst = v.tunnels.filter (·.peer.isSome) := by
  rw [Vpn.peeredTunnels]
  induction v.tunnels with
  | nil => rfl
  | cons t ts ih => cases hpeer : t.peer <;> simp [hpeer, ih]

/-- The labels of numbered tunnels differ. -/
theorem nodup_label_of_isNumbered {v : Vpn} (hv : v.IsNumbered) :
    ((v.peeredTunnels.map Prod.fst).map Tunnel.label).Nodup := by
  have hlabel : ∀ {s t : Tunnel}, s ∈ v.tunnels → t ∈ v.tunnels → s.key ≠ t.key →
      s.label ≠ t.label := by
    intro s t hs ht hne heq
    obtain ⟨i, hi⟩ := Option.isSome_iff_exists.1 (hv.sequence s hs)
    obtain ⟨j, hj⟩ := Option.isSome_iff_exists.1 (hv.sequence t ht)
    have hs : s.label = s!"{s.name}-{i.toNat}" := by rw [Tunnel.label, hi]; rfl
    have ht : t.label = s!"{t.name}-{j.toNat}" := by rw [Tunnel.label, hj]; rfl
    rw [hs, ht] at heq
    obtain ⟨hname, hnumber⟩ := numbered_inj heq
    refine hne (Prod.ext hname ?_)
    rw [Tunnel.key, Tunnel.key, hi, hj, UInt32.toNat_inj.1 hnumber]
  have hall : (v.tunnels.map Tunnel.label).Nodup :=
    List.pairwise_map.2 ((List.pairwise_map.1 hv.nodup).imp_of_mem fun hs ht h => hlabel hs ht h)
  rw [map_fst_peeredTunnels]
  exact hall.sublist (List.filter_sublist.map _)

/-- No tunnel of a document has a sequence number. -/
theorem sequence_of_mem_tunnels_read {text : String} {t : Tunnel}
    (ht : t ∈ (PanOs.read text).vpn.tunnels) : t.sequence = none := by
  have hput : ∀ (ts : List Tunnel) (b : PanOs.Block) (name : String),
      (∀ t ∈ ts, t.sequence = none) → ∀ t ∈ PanOs.tunnelsPart.put ts b name, t.sequence = none :=
    fun ts b name hts => forall_mem_concat hts rfl
  exact PanOs.tunnelsPart.keeps_run hput (r := {}) (List.forall_mem_nil _) (Text.lines text) t ht

/-- **What the phases of a written text refer to.**  Of a text of crypto maps, every second phase
names a first phase, and every first phase is named just if no tunnel is called like the label of an
earlier one.  Of a document, every first phase is named, and every second phase names one just if
each selector belongs to a tunnel whose peer is known. -/
theorem phases_written_iff (text : String) :
    (PhaseTwosResolve (write .ciscoAsa (Cisco.read .asa text))
        ∧ (PhaseOnesAreNamed (write .ciscoAsa (Cisco.read .asa text))
          ↔ ((Cisco.read .asa text).vpn.tunnels.filter (·.peer.isSome)).Pairwise
            fun s t => s.label ≠ t.name))
      ∧ PhaseOnesAreNamed (write .paloAlto (PanOs.read text))
        ∧ (PhaseTwosResolve (write .paloAlto (PanOs.read text))
          ↔ ∀ s ∈ (PanOs.read text).vpn.selectors,
            ∃ t ∈ (PanOs.read text).vpn.tunnels.filter (·.peer.isSome), s.tunnel = t.name) := by
  have hasa := Cisco.oneLine_read .asa text
  have hpan := PanOs.oneLine_read text
  have hnumbered := Cisco.isNumbered_read .asa text
  have hlabels : ∀ t ∈ (PanOs.read text).vpn.peeredTunnels.map Prod.fst, t.label = t.name := by
    intro t ht
    rw [map_fst_peeredTunnels] at ht
    rw [Tunnel.label, sequence_of_mem_tunnels_read (List.mem_filter.1 ht).1]
  refine ⟨⟨?_, ?_⟩, ?_, ?_⟩
  · refine (phaseTwosResolve_write_iff _ hasa).2 fun p hp => ?_
    rw [phaseTwos, hnumbered.selectors] at hp
    obtain ⟨t, ht, rfl⟩ := (mem_addMissing _ hp).resolve_left List.not_mem_nil
    exact ⟨t, ht, rfl⟩
  · rw [phaseOnesAreNamed_write_iff _ hasa, phaseTwos, hnumbered.selectors, List.map_nil,
      forall_exists_mem_addMissing_iff _ (nodup_label_of_isNumbered hnumbered)
        (List.forall_mem_nil _), map_fst_peeredTunnels]
    exact and_iff_right (List.forall_mem_nil _)
  · exact (phaseOnesAreNamed_write_iff _ hpan).2 fun t ht => exists_mem_addMissing _ hlabels _ ht
  · rw [phaseTwosResolve_write_iff _ hpan, ← map_fst_peeredTunnels]
    constructor
    · intro hall s hs
      obtain ⟨t, ht, hname⟩ :=
        hall (.ofSelector s) (mem_addMissing_of_mem _ (List.mem_map_of_mem hs) _)
      exact ⟨t, ht, hname.trans (hlabels t ht)⟩
    · intro hall p hp
      rcases mem_addMissing _ hp with hp | ⟨t, ht, rfl⟩
      · obtain ⟨s, hs, rfl⟩ := List.mem_map.1 hp
        obtain ⟨t, ht, hname⟩ := hall s hs
        exact ⟨t, ht, hname.trans (hlabels t ht).symm⟩
      · exact ⟨t, ht, rfl⟩

/-- Two crypto maps, one called like the label of an entry of the other. -/
def labelText : String :=
  Text.unlines ["crypto map m 1 set peer 192.0.2.1", "crypto map m-1 2 set peer 192.0.2.2"]

/-- A tunnel whose gateway has a name for a peer. -/
def namedPeerText : String :=
  Text.unlines
    ["<gateway>", "<entry name=\"g\">", "<peer-address>", "<fqdn>vpn.example.com</fqdn>",
     "</peer-address>", "</entry>", "</gateway>", "<ipsec>", "<entry name=\"t\">", "<ike-gateway>",
     "<entry name=\"g\"/>", "</ike-gateway>", "</entry>", "</ipsec>"]

/-- **A first phase without a second one, and a second phase without a first one.** -/
theorem not_linked_labelText_namedPeerText :
    ¬ PhaseOnesAreNamed (write .ciscoAsa (Cisco.read .asa labelText))
      ∧ ¬ PhaseTwosResolve (write .paloAlto (PanOs.read namedPeerText)) := by
  have hasa : (Cisco.read .asa labelText).vpn
      = { tunnels :=
            [{ name := "m", sequence := some 1, peer := some "192.0.2.1" },
             { name := "m-1", sequence := some 2, peer := some "192.0.2.2" }] } := by
    rw [Cisco.read, labelText, Cisco.Reading.run_lines_unlines _ (by decide +kernel)]
    decide +kernel
  have hpan : ((PanOs.read namedPeerText).vpn.tunnels,
      (PanOs.read namedPeerText).vpn.selectors.map (·.tunnel)) = ([{ name := "g" }], ["g"]) := by
    rw [PanOs.read, namedPeerText, PanOs.Reading.run_lines_unlines _ (by decide +kernel)]
    decide +kernel
  obtain ⟨htunnels, hselectors⟩ := Prod.mk.inj hpan
  constructor
  · intro hnamed
    have hphases := (phaseOnesAreNamed_write_iff _ (Cisco.oneLine_read .asa labelText)).1 hnamed
    rw [map_fst_peeredTunnels, phaseTwos, hasa] at hphases
    revert hphases
    decide +kernel
  · intro hresolve
    have hphases := (phaseTwosResolve_write_iff _ (PanOs.oneLine_read namedPeerText)).1 hresolve
    obtain ⟨s, hs, hname⟩ : ∃ s ∈ (PanOs.read namedPeerText).vpn.selectors, s.tunnel = "g" :=
      List.mem_map.1 (hselectors ▸ List.mem_singleton_self "g")
    obtain ⟨t, ht, -⟩ :=
      hphases (.ofSelector s) (mem_addMissing_of_mem _ (List.mem_map_of_mem hs) _)
    rw [map_fst_peeredTunnels, htunnels] at ht
    cases ht

end FortiOs

end FirewallConfig
