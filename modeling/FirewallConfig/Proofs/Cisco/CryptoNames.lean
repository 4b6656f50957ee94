import FirewallConfig.Proofs.Cisco.Blocks
import FirewallConfig.Proofs.Cisco.CryptoMaps
import FirewallConfig.Proofs.Config.ZoneBased
import FirewallConfig.Proofs.FortiOs.Phases

/-!
# Proofs/Cisco/CryptoNames — what tunnels are written under

A tunnel is written as an entry of a crypto map, under the name of the map and a number.  In a text
with crypto maps these are read from its words, and no two entries have both in common; of the other
dialects the tunnels are numbered by their places in one map.  So tunnels are written apart, and what
they are written under is read as words (`Dialect.isOrderly_read`).
-/

namespace FirewallConfig

namespace Cisco

open Text

/-- The map and the number that each tunnel is written under, in order. -/
def entryKeys (v : Vpn) : List (String × Nat) :=
  v.tunnels.zipIdx.map fun (t, position) => mapEntry t position

/-- The names of what tunnels need are words, and no two tunnels are written under the same. -/
structure IsOrderly (v : Vpn) : Prop where
  sets : ∀ s ∈ v.transformSets, IsWord s.name
  policies : ∀ p ∈ v.ikePolicies, IsWord p.priority
  maps : ∀ t ∈ v.tunnels, t.sequence.isSome = true → IsWord t.name
  keys : (entryKeys v).Nodup

/-! ## The words of a text -/

/-- The name that the directive gives is a word. -/
def Directive.NamesWord : Directive → Prop
  | .ikePolicy priority => IsWord priority
  | .transformSet set => ∀ s ∈ set, IsWord s.name
  | .cryptoMap map _ => IsWord map
  | _ => True

/-- The name that lines of the block are for is a word. -/
def Block.NamesWord : Block → Prop
  | .ikePolicy p => IsWord p.priority
  | .cryptoMap map _ => IsWord map
  | _ => True

theorem isWord_name_readTransformSet {ws : List String} (hws : ∀ w ∈ ws, IsWord w)
    {s : TransformSet} (h : readTransformSet ws = some s) : IsWord s.name := by
  unfold readTransformSet at h
  split at h
  · cases h
  · cases h
    exact hws _ List.mem_cons_self
  · cases h
    exact hws _ List.mem_cons_self
  · cases h
    exact hws _ List.mem_cons_self

theorem Directive.Reads.namesWord {l : Line} {ws : List String} {d : Directive}
    (h : Directive.Reads l ws d) (hws : ∀ w ∈ ws, IsWord w) : d.NamesWord := by
  cases h with
  | ikePolicy | cryptoMap => exact hws _ (by simp)
  | @transformSet word operands rest hrest =>
    have hsub : word :: operands ⊆ rest := hrest ▸ List.dropWhile_subset _
    have hoperands : ∀ w ∈ operands, IsWord w := fun w hw =>
      hws w (List.mem_cons_of_mem _ (List.mem_cons_of_mem _ (hsub (List.mem_cons_of_mem _ hw))))
    exact fun s hs => isWord_name_readTransformSet hoperands hs
  | _ => exact trivial

theorem Directive.namesWord_read (raw : String) : (Directive.read (Line.ofText raw)).NamesWord := by
  rw [Directive.read]
  split
  · exact trivial
  · exact (Directive.reads_readWords _ _).namesWord fun w hw => isWord_of_mem_words hw

namespace Reading

/-- The names that have been read about tunnels are words. -/
structure NamesWords (r : Reading) : Prop where
  sets : ∀ s ∈ r.config.vpn.transformSets, IsWord s.name
  policies : ∀ p ∈ r.config.vpn.ikePolicies, IsWord p.priority
  maps : ∀ t ∈ r.config.vpn.tunnels, IsWord t.name
  block : ∀ b ∈ r.block, b.NamesWord

namespace NamesWords

variable {r : Reading} (hr : r.NamesWords)
include hr

/-- Nothing about tunnels changes but the block. -/
theorem of_eq {s : Reading} (hsets : s.config.vpn.transformSets = r.config.vpn.transformSets)
    (hpolicies : s.config.vpn.ikePolicies = r.config.vpn.ikePolicies)
    (htunnels : s.config.vpn.tunnels = r.config.vpn.tunnels)
    (hblock : ∀ b ∈ s.block, b.NamesWord) : s.NamesWords :=
  ⟨hsets ▸ hr.sets, hpolicies ▸ hr.policies, htunnels ▸ hr.maps, hblock⟩

theorem closeBlock : r.closeBlock.NamesWords := by
  unfold Reading.closeBlock
  split
  · next b hblock =>
    have hb : b.NamesWord := hr.block b hblock
    cases b with
    | ikePolicy p => exact ⟨hr.sets, forall_mem_concat hr.policies hb, hr.maps, forall_mem_none⟩
    | _ => exact hr.of_eq rfl rfl rfl forall_mem_none
  · exact hr

theorem setTunnel {map : String} (hmap : IsWord map) (sequence : UInt32) (setting : List String) :
    (r.setTunnel map sequence setting).NamesWords := by
  have hname (t : Tunnel) (ht : IsWord t.name) : IsWord (tunnelLine t setting).name := by
    have hsame : (tunnelLine t setting).name = t.name :=
      congrArg Prod.fst (key_tunnelLine t setting)
    rwa [hsame]
  have hmaps : ∀ t ∈ (r.setTunnel map sequence setting).config.vpn.tunnels, IsWord t.name :=
    forall_mem_amendFirst (hname _ hmap) hname hr.maps
  exact ⟨hr.sets, hr.policies, hmaps, hr.block⟩

theorem blockLine {b : Block} (hblock : r.block = some b) (l : Line) :
    (r.blockLine b l).NamesWords := by
  have hb : b.NamesWord := hr.block b hblock
  cases b with
  | object o =>
    unfold Reading.blockLine
    dsimp only
    split
    · exact hr.of_eq rfl rfl rfl hr.block
    · exact hr.of_eq rfl rfl rfl (forall_mem_some trivial)
  | ikePolicy p =>
    have hpriority : IsWord (ikeLine p l.words).priority := by rwa [priority_ikeLine]
    exact hr.of_eq rfl rfl rfl (forall_mem_some hpriority)
  | cryptoMap map sequence => exact hr.setTunnel hb sequence l.words
  | aaaServer | groupPolicy | tunnelGroup | skip => exact hr.of_eq rfl rfl rfl hr.block
  | _ => exact hr.of_eq rfl rfl rfl (forall_mem_some trivial)

theorem applyCryptoMap {map : String} (hmap : IsWord map) (line : CryptoMapLine) :
    (r.applyCryptoMap map line).NamesWords := by
  have hopen (sequence : UInt32) :
      ((r.setTunnel map sequence []).openBlock (.cryptoMap map sequence)).NamesWords :=
    (hr.setTunnel hmap sequence []).of_eq rfl rfl rfl (forall_mem_some hmap)
  unfold Reading.applyCryptoMap
  split
  · exact hr.of_eq rfl rfl rfl hr.block
  · exact hopen _
  · exact hopen _
  · exact hr.setTunnel hmap _ _
  · exact hr

theorem apply {d : Directive} (hd : d.NamesWord) : (r.apply d).NamesWords := by
  have hblock {b : Block} (hb : b.NamesWord) : ∀ b' ∈ some b, b'.NamesWord := forall_mem_some hb
  cases d with
  | interface | objectNetwork | objectService | objectGroupNetwork | profile | other =>
    exact hr.of_eq rfl rfl rfl (hblock trivial)
  | ikePolicy priority => exact hr.of_eq rfl rfl rfl (hblock (b := .ikePolicy { priority }) hd)
  | transformSet set => exact ⟨forall_mem_append_toList hr.sets hd, hr.policies, hr.maps, hr.block⟩
  | cryptoMap map line => exact hr.applyCryptoMap hd line
  | accessList acl line => cases line <;> exact hr.of_eq rfl rfl rfl hr.block
  | aaaServer name operands =>
    rw [Reading.apply]
    unfold applyServer
    split <;> first | exact hr.of_eq rfl rfl rfl hr.block | exact hr.of_eq rfl rfl rfl (hblock trivial)
  | groupPolicy name kind =>
    rw [Reading.apply]
    unfold applyGroupPolicy
    split
    · exact hr.of_eq rfl rfl rfl (hblock trivial)
    · exact hr.of_eq rfl rfl rfl hr.block
  | tunnelGroup name operands =>
    rw [Reading.apply]
    unfold applyTunnelGroup
    split <;> first | exact hr.of_eq rfl rfl rfl hr.block | exact hr.of_eq rfl rfl rfl (hblock trivial)
  | _ => exact hr.of_eq rfl rfl rfl hr.block

/-- **A line names things about tunnels by words.** -/
theorem step (raw : String) : (r.step raw).NamesWords := by
  have hmoves := r.moves_step raw
  generalize r.step raw = s at hmoves
  cases hmoves with
  | stay => exact hr
  | close => exact hr.closeBlock
  | blockLine hblock => exact hr.blockLine hblock _
  | apply _ hd =>
    rcases hd with rfl | rfl
    · exact hr.closeBlock.apply trivial
    · exact hr.closeBlock.apply (Directive.namesWord_read raw)

end NamesWords

theorem namesWords_run {r : Reading} (hr : r.NamesWords) (ls : List String) :
    (r.run ls).NamesWords :=
  run_invariant (P := NamesWords) (fun _ raw hr => hr.step raw) hr ls

end Reading

/-! ## Tunnels are written apart -/

/-- Tunnels with numbers of their own are written under these. -/
theorem nodup_entryKeys_of_isNumbered {v : Vpn} (hv : v.IsNumbered) : (entryKeys v).Nodup := by
  have hkey {t : Tunnel} (ht : t ∈ v.tunnels) (position : Nat) :
      mapEntry t position = (t.name, (t.sequence.getD 0).toNat) := by
    obtain ⟨sequence, hsequence⟩ := Option.isSome_iff_exists.1 (hv.sequence t ht)
    rw [mapEntry, hsequence]
    rfl
  have hkeys : entryKeys v = v.tunnels.map fun t => (t.name, (t.sequence.getD 0).toNat) := by
    rw [entryKeys, ← List.zipIdx_map_fst 0 v.tunnels, List.map_map, List.zipIdx_map_fst]
    exact List.map_congr_left fun p hp => hkey (List.fst_mem_of_mem_zipIdx hp) p.2
  rw [hkeys]
  refine List.pairwise_map.2 ((List.pairwise_map.1 hv.nodup).imp_of_mem fun {s t} hs ht hne heq => ?_)
  obtain ⟨i, hi⟩ := Option.isSome_iff_exists.1 (hv.sequence s hs)
  obtain ⟨j, hj⟩ := Option.isSome_iff_exists.1 (hv.sequence t ht)
  obtain ⟨hname, hnumber⟩ := Prod.mk.inj heq
  rw [hi, hj, Option.getD_some, Option.getD_some] at hnumber
  have hsequence : s.sequence = t.sequence := by rw [hi, hj, UInt32.toNat_inj.1 hnumber]
  exact hne (Prod.ext hname hsequence)

/-- Tunnels without numbers are written under their places. -/
theorem nodup_entryKeys_of_forall {v : Vpn} (hv : ∀ t ∈ v.tunnels, t.sequence = none) :
    (entryKeys v).Nodup := by
  have hkey : ∀ p ∈ v.tunnels.zipIdx, mapEntry p.1 p.2 = (defaultMap, 10 * (p.2 + 1)) := by
    intro p hp
    rw [mapEntry, hv p.1 (List.fst_mem_of_mem_zipIdx hp)]
  have hkeys : entryKeys v
      = (v.tunnels.zipIdx.map Prod.snd).map fun position => (defaultMap, 10 * (position + 1)) := by
    rw [entryKeys, List.map_map]
    exact List.map_congr_left hkey
  rw [hkeys, List.zipIdx_map_snd]
  refine List.pairwise_map.2 (List.Pairwise.imp (fun hlt heq => ?_) (List.pairwise_lt_range' 1))
  have hnumber := (Prod.mk.inj heq).2
  omega

theorem isOrderly_of_forall {v : Vpn} (hsets : v.transformSets = []) (hpolicies : v.ikePolicies = [])
    (htunnels : ∀ t ∈ v.tunnels, t.sequence = none) : IsOrderly v where
  sets := hsets ▸ List.forall_mem_nil _
  policies := hpolicies ▸ List.forall_mem_nil _
  maps t ht h := by
    rw [htunnels t ht] at h
    cases h
  keys := nodup_entryKeys_of_forall htunnels

theorem isOrderly_read (flavor : Flavor) (text : String) : IsOrderly (read flavor text).vpn := by
  have hstart : (Reading.start flavor).NamesWords :=
    ⟨List.forall_mem_nil _, List.forall_mem_nil _, List.forall_mem_nil _, forall_mem_none⟩
  have hrun := (Reading.namesWords_run hstart (lines text)).closeBlock
  have hkeys := nodup_entryKeys_of_isNumbered (isNumbered_read flavor text)
  rw [read, Reading.finish] at hkeys ⊢
  exact ⟨hrun.sets, hrun.policies, List.forall_mem_map.2 fun t ht _ => hrun.maps t ht, hkeys⟩

end Cisco

theorem FortiOs.isOrderly_read (text : String) : Cisco.IsOrderly (FortiOs.read text).vpn := by
  rw [read, ofForest, foldl_putAddressObject_eq, foldl_putInterface_eq]
  refine Cisco.isOrderly_of_forall rfl rfl (List.forall_mem_filterMap.2 fun e _ t ht => ?_)
  obtain ⟨peer, -, rfl⟩ := Option.map_eq_some_iff.1 ht
  rfl

theorem PanOs.isOrderly_read (text : String) : Cisco.IsOrderly (PanOs.read text).vpn := by
  have hentry (c : Config) (b : Block) (name : String) (a : Area)
      (hc : c.vpn.transformSets = [] ∧ c.vpn.ikePolicies = []) :
      (addEntry c b name a).vpn.transformSets = [] ∧ (addEntry c b name a).vpn.ikePolicies = [] := by
    cases a with
    | interfaces =>
      rw [addEntry, foldl_putInterface_eq]
      exact hc
    | addresses =>
      rw [addEntry, foldl_putAddressObject_eq]
      exact hc
    | _ => exact hc
  have hsetting (c : Config) (line : String)
      (hc : c.vpn.transformSets = [] ∧ c.vpn.ikePolicies = []) :
      (Reading.settingLine c line).vpn.transformSets = []
        ∧ (Reading.settingLine c line).vpn.ikePolicies = [] := by
    rw [Reading.settingLine]
    split <;> exact hc
  obtain ⟨hsets, hpolicies⟩ :=
    Reading.config_run hentry hsetting (r := {}) ⟨rfl, rfl⟩ (Text.lines text)
  exact Cisco.isOrderly_of_forall hsets hpolicies fun t ht => FortiOs.sequence_of_mem_tunnels_read ht

theorem Dialect.isOrderly_read (origin : Dialect) (text : String) :
    Cisco.IsOrderly (origin.read text).vpn := by
  cases origin with
  | ciscoAsa => exact Cisco.isOrderly_read .asa text
  | ciscoFtd => exact Cisco.isOrderly_read .ftd text
  | fortiGate => exact FortiOs.isOrderly_read text
  | paloAlto => exact PanOs.isOrderly_read text

end FirewallConfig
