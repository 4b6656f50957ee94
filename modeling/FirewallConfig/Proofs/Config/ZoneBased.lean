import FirewallConfig.Proofs.Config.Put
import FirewallConfig.Reader

/-!
# Proofs/Config/ZoneBased — configurations whose rules stand between zones

Two of the dialects have no access lists: what is read of them binds none, and its rules restrict
protocols by their services alone.
-/

namespace FirewallConfig

/-- No access list is bound, there are no class maps, and no rule has a protocol apart from its
services. -/
structure Config.IsZoneBased (c : Config) : Prop where
  accessBindings : c.accessBindings = []
  securityProfiles : c.securityProfiles = []
  protocol : ∀ p ∈ c.policies, p.protocol = "ip"

namespace Config.IsZoneBased

variable {c : Config} (hc : c.IsZoneBased)
include hc

theorem foldl_putInterface (is : List Interface) :
    (is.foldl Config.putInterface c).IsZoneBased := by
  rw [foldl_putInterface_eq]
  exact { hc with }

theorem foldl_putAddressObject (os : List AddressObject) :
    (os.foldl Config.putAddressObject c).IsZoneBased := by
  rw [foldl_putAddressObject_eq]
  exact { hc with }

/-- The rules of such a configuration are written as they are. -/
theorem effectivePolicies_eq : c.effectivePolicies = c.policies := by
  rw [Config.effectivePolicies, hc.accessBindings]
  exact if_pos (Bool.or_true _)

end Config.IsZoneBased

theorem FortiOs.isZoneBased_read (text : String) : (FortiOs.read text).IsZoneBased := by
  rw [read, ofForest]
  refine Config.IsZoneBased.foldl_putAddressObject (Config.IsZoneBased.foldl_putInterface ?_ _) _
  refine { accessBindings := rfl, securityProfiles := rfl, protocol := ?_ }
  exact List.forall_mem_map.2 fun e _ => rfl

namespace PanOs

/-! ## What no entry and no setting breaks -/

namespace Reading

variable {P : Config → Prop} (hentry : ∀ c b name a, P c → P (addEntry c b name a))
  (hsetting : ∀ c line, P c → P (settingLine c line)) {r : Reading} (hr : P r.config)
include hentry hr

theorem config_takeEntry (ls : List String) : P (r.takeEntry ls).config := by
  rw [takeEntry]
  split
  · exact hentry _ _ _ _ hr
  · exact hr

include hsetting

theorem config_idleLine (line : String) : P (r.idleLine line).config := by
  rw [idleLine]
  split
  · exact hr
  · exact hsetting _ _ hr
  · split
    · exact hr
    · split
      · exact hr
      · split
        · exact config_takeEntry hentry hr _
        · exact hr

theorem config_step (raw : String) : P (r.step raw).config := by
  rw [step]
  split
  · exact config_idleLine hentry hsetting hr _
  · dsimp only
    split
    · exact config_takeEntry hentry hr _
    · exact hr

/-- **What no entry and no setting breaks holds of all that is read**, before the interfaces are joined
with their zones. -/
theorem config_run (ls : List String) : P (r.run ls).config := by
  induction ls generalizing r with
  | nil => exact hr
  | cons l ls ih => exact ih (config_step hentry hsetting hr l)

end Reading

theorem isZoneBased_addEntry (c : Config) (b : Block) (name : String) (a : Area)
    (hc : c.IsZoneBased) : (addEntry c b name a).IsZoneBased := by
  cases a with
  | interfaces =>
    exact Config.IsZoneBased.foldl_putInterface (c := c.putInterface _) { hc with } _
  | addresses => exact hc.foldl_putAddressObject _
  | security =>
    exact { hc with
      protocol := List.forall_mem_append.2 ⟨hc.protocol, List.forall_mem_singleton.2 rfl⟩ }
  | _ => exact { hc with }

theorem isZoneBased_settingLine (c : Config) (line : String) (hc : c.IsZoneBased) :
    (Reading.settingLine c line).IsZoneBased := by
  rw [Reading.settingLine]
  split
  · exact { hc with }
  · exact { hc with }
  · exact { hc with }
  · exact hc

theorem isZoneBased_read (text : String) : (read text).IsZoneBased := by
  have hstart : ({} : Reading).config.IsZoneBased := ⟨rfl, rfl, List.forall_mem_nil _⟩
  have hrun := Reading.config_run isZoneBased_addEntry isZoneBased_settingLine hstart
    (Text.lines text)
  exact { hrun with }

end PanOs

/-- **What is read of a dialect without access lists is zone-based.** -/
theorem Dialect.isZoneBased_read {origin : Dialect} (h : origin.isCisco = false) (text : String) :
    (origin.read text).IsZoneBased := by
  cases origin with
  | ciscoAsa | ciscoFtd => cases h
  | fortiGate => exact FortiOs.isZoneBased_read text
  | paloAlto => exact PanOs.isZoneBased_read text

end FirewallConfig
