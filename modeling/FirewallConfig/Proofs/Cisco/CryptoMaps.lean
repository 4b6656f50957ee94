import FirewallConfig.Proofs.Cisco.Step
import FirewallConfig.Proofs.Keyed

/-!
# Proofs/Cisco/CryptoMaps — the tunnels of a text are the entries of its crypto maps

A line leaves the tunnels as they are, or gives a setting to the entry of a crypto map
(`movesTunnels_step`).  So every tunnel that is read has a sequence number, no two have both name
and number in common, and there are no selectors besides (`isNumbered_read`).
-/

namespace FirewallConfig

/-- What tells a tunnel from the others. -/
def Tunnel.key (t : Tunnel) : String × Option UInt32 := (t.name, t.sequence)

/-- The tunnels have sequence numbers, no two are the same, and there are no selectors besides. -/
structure Vpn.IsNumbered (v : Vpn) : Prop where
  selectors : v.selectors = []
  sequence : ∀ t ∈ v.tunnels, t.sequence.isSome = true
  nodup : (v.tunnels.map Tunnel.key).Nodup

namespace Cisco

theorem key_tunnelLine (t : Tunnel) (setting : List String) :
    (tunnelLine t setting).key = t.key := by
  unfold tunnelLine
  split <;> rfl

/-- A setting for the entry of a crypto map keeps what tells the tunnels apart, or adds one. -/
theorem key_amendTunnel (map : String) (sequence : UInt32) (setting : List String) (v : Vpn) :
    (v.amendTunnel map (some sequence) (tunnelLine · setting)).tunnels.map Tunnel.key
      = putKey (map, some sequence) (v.tunnels.map Tunnel.key) := by
  have hfresh : Tunnel.key { name := map, sequence := some sequence } = (map, some sequence) := rfl
  have hkey (t : Tunnel) : (t.name == map && t.sequence == some sequence)
      = (t.key == Tunnel.key { name := map, sequence := some sequence }) := rfl
  rw [← hfresh, ← map_amendFirst Tunnel.key _ (f := (tunnelLine · setting))
    fun t ht => (key_tunnelLine t setting).trans ht]
  simp only [Vpn.amendTunnel, hkey]

/-- The tunnels stay as they are, or the entry of a crypto map is given a setting. -/
inductive MovesTunnels (v w : Vpn) : Prop
  | stay (hselectors : w.selectors = v.selectors) (htunnels : w.tunnels = v.tunnels)
  | set (hselectors : w.selectors = v.selectors) (map : String) (sequence : UInt32)
      (setting : List String)
      (htunnels : w.tunnels
        = (v.amendTunnel map (some sequence) (tunnelLine · setting)).tunnels)

theorem MovesTunnels.of_eq {u v w : Vpn} (h : MovesTunnels v w)
    (hselectors : v.selectors = u.selectors) (htunnels : v.tunnels = u.tunnels) :
    MovesTunnels u w := by
  cases h with
  | stay hw ht => exact .stay (hw.trans hselectors) (ht.trans htunnels)
  | set hw map sequence setting ht =>
    refine .set (hw.trans hselectors) map sequence setting (ht.trans ?_)
    rw [Vpn.amendTunnel, Vpn.amendTunnel, htunnels]

/-- What every new entry has, and every setting keeps, all tunnels have. -/
theorem MovesTunnels.forall_mem {P : Tunnel → Prop} {v w : Vpn} (h : MovesTunnels v w)
    (hnew : ∀ map sequence, P { name := map, sequence := some sequence })
    (hset : ∀ t setting, P t → P (tunnelLine t setting)) (hv : ∀ t ∈ v.tunnels, P t) :
    ∀ t ∈ w.tunnels, P t := by
  cases h with
  | stay _ htunnels => rwa [htunnels]
  | set _ map sequence setting htunnels =>
    rw [htunnels]
    exact forall_mem_amendFirst (hset _ _ (hnew map sequence)) (fun t ht => hset t _ ht) hv

/-- A setting for the entry of a crypto map adds it where it is new. -/
theorem MovesTunnels.isNumbered {v w : Vpn} (h : MovesTunnels v w) (hv : v.IsNumbered) :
    w.IsNumbered := by
  have hset (t : Tunnel) (setting : List String) (ht : t.sequence.isSome = true) :
      (tunnelLine t setting).sequence.isSome = true := by
    have hsame : (tunnelLine t setting).sequence = t.sequence :=
      congrArg Prod.snd (key_tunnelLine t setting)
    rwa [hsame]
  have hsequence := h.forall_mem (fun _ _ => rfl) hset hv.sequence
  cases h with
  | stay hselectors htunnels =>
    exact ⟨hselectors.trans hv.selectors, hsequence, htunnels ▸ hv.nodup⟩
  | set hselectors map sequence setting htunnels =>
    refine ⟨hselectors.trans hv.selectors, hsequence, ?_⟩
    rw [htunnels]
    exact key_amendTunnel map sequence setting v ▸ nodup_putKey _ hv.nodup

namespace Reading

/-- Storing what a block has built changes no tunnel. -/
theorem vpn_closeBlock (r : Reading) :
    r.closeBlock.config.vpn.selectors = r.config.vpn.selectors
      ∧ r.closeBlock.config.vpn.tunnels = r.config.vpn.tunnels := by
  unfold closeBlock
  split
  · next b _ => cases b <;> exact ⟨rfl, rfl⟩
  · exact ⟨rfl, rfl⟩

theorem movesTunnels_blockLine (r : Reading) (b : Block) (l : Line) :
    MovesTunnels r.config.vpn (r.blockLine b l).config.vpn := by
  cases b with
  | object o =>
    unfold blockLine
    dsimp only
    split <;> exact .stay rfl rfl
  | cryptoMap map sequence => exact .set rfl map sequence l.words rfl
  | _ => exact .stay rfl rfl

theorem movesTunnels_apply (r : Reading) (d : Directive) :
    MovesTunnels r.config.vpn (r.apply d).config.vpn := by
  cases d with
  | accessList acl line => cases line <;> exact .stay rfl rfl
  | cryptoMap map line =>
    rw [apply]
    unfold applyCryptoMap
    split
    · exact .stay rfl rfl
    · next sequence => exact .set rfl map sequence [] rfl
    · next sequence _ => exact .set rfl map sequence [] rfl
    · next sequence setting _ _ => exact .set rfl map sequence setting rfl
    · exact .stay rfl rfl
  | aaaServer name operands =>
    rw [apply]
    unfold applyServer
    split <;> exact .stay rfl rfl
  | groupPolicy name kind =>
    rw [apply]
    unfold applyGroupPolicy
    split <;> exact .stay rfl rfl
  | tunnelGroup name operands =>
    rw [apply]
    unfold applyTunnelGroup
    split <;> exact .stay rfl rfl
  | _ => exact .stay rfl rfl

/-- **A line gives at most one setting to the entry of a crypto map.** -/
theorem movesTunnels_step (r : Reading) (raw : String) :
    MovesTunnels r.config.vpn (r.step raw).config.vpn := by
  obtain ⟨hselectors, htunnels⟩ := vpn_closeBlock r
  have hmoves := r.moves_step raw
  generalize r.step raw = s at hmoves
  cases hmoves with
  | stay => exact .stay rfl rfl
  | close => exact .stay hselectors htunnels
  | blockLine => exact movesTunnels_blockLine r _ _
  | apply => exact (movesTunnels_apply r.closeBlock _).of_eq hselectors htunnels

theorem forall_mem_tunnels_run {P : Tunnel → Prop} {r : Reading}
    (hnew : ∀ map sequence, P { name := map, sequence := some sequence })
    (hset : ∀ t setting, P t → P (tunnelLine t setting)) (hr : ∀ t ∈ r.config.vpn.tunnels, P t)
    (ls : List String) : ∀ t ∈ (r.run ls).config.vpn.tunnels, P t :=
  run_invariant (P := fun r => ∀ t ∈ r.config.vpn.tunnels, P t)
    (fun r raw hr => (r.movesTunnels_step raw).forall_mem hnew hset hr) hr ls

theorem isNumbered_run {r : Reading} (hr : r.config.vpn.IsNumbered) (ls : List String) :
    (r.run ls).config.vpn.IsNumbered :=
  run_invariant (P := fun r => r.config.vpn.IsNumbered)
    (fun r raw hr => (r.movesTunnels_step raw).isNumbered hr) hr ls

end Reading

/-- **Every tunnel of a text has a sequence number**, and no two have name and number in common. -/
theorem isNumbered_read (flavor : Flavor) (text : String) :
    (read flavor text).vpn.IsNumbered := by
  have hrun : ((Reading.start flavor).run (Text.lines text)).closeBlock.config.vpn.IsNumbered := by
    obtain ⟨hselectors, htunnels⟩ :=
      Reading.vpn_closeBlock ((Reading.start flavor).run (Text.lines text))
    have hstart : (Reading.start flavor).config.vpn.IsNumbered :=
      ⟨rfl, List.forall_mem_nil _, List.nodup_nil⟩
    exact (MovesTunnels.stay hselectors htunnels).isNumbered (Reading.isNumbered_run hstart _)
  rw [read, Reading.finish]
  refine ⟨hrun.selectors, List.forall_mem_map.2 fun t ht => hrun.sequence t ht, ?_⟩
  rw [List.map_map]
  exact hrun.nodup

end Cisco

end FirewallConfig
