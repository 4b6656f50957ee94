import FirewallConfig.Proofs.Config.OneLine
import FirewallConfig.Proofs.Keyed

/-!
# Proofs/Config/Put — what is put in changes its own list only

Interfaces and address objects that hold no line feed put none into a configuration.
-/

namespace FirewallConfig

/-- Interfaces that are put in change the interfaces only. -/
theorem foldl_putInterface_eq (is : List Interface) (c : Config) :
    is.foldl Config.putInterface c
      = { c with interfaces := is.foldl (fun is i => putBy (·.name) i is) c.interfaces } := by
  induction is generalizing c with
  | nil => rfl
  | cons i is ih =>
    rw [List.foldl_cons, ih]
    rfl

/-- Address objects that are put in change the address objects only. -/
theorem foldl_putAddressObject_eq (os : List AddressObject) (c : Config) :
    os.foldl Config.putAddressObject c
      = { c with addressObjects := os.foldl (fun os o => putBy (·.name) o os) c.addressObjects } := by
  induction os generalizing c with
  | nil => rfl
  | cons o os ih =>
    rw [List.foldl_cons, ih]
    rfl

theorem policies_foldl_putInterface (is : List Interface) (c : Config) :
    (is.foldl Config.putInterface c).policies = c.policies := by
  rw [foldl_putInterface_eq]

theorem policies_foldl_putAddressObject (os : List AddressObject) (c : Config) :
    (os.foldl Config.putAddressObject c).policies = c.policies := by
  rw [foldl_putAddressObject_eq]

namespace Config.OneLine

variable {c : Config} (hc : c.OneLine)
include hc

theorem putInterface {i : Interface} (hi : i.OneLine) : (c.putInterface i).OneLine :=
  { hc with interfaces := forall_mem_amendFirst hi (fun _ _ => hi) hc.interfaces }

theorem putAddressObject {o : AddressObject} (ho : o.OneLine) : (c.putAddressObject o).OneLine :=
  { hc with addressObjects := forall_mem_amendFirst ho (fun _ _ => ho) hc.addressObjects }

theorem foldl_putInterface {is : List Interface} (his : ∀ i ∈ is, i.OneLine) :
    (is.foldl Config.putInterface c).OneLine := by
  induction is generalizing c with
  | nil => exact hc
  | cons i is ih =>
    obtain ⟨hi, his⟩ := List.forall_mem_cons.1 his
    exact ih (hc.putInterface hi) his

theorem foldl_putAddressObject {os : List AddressObject} (hos : ∀ o ∈ os, o.OneLine) :
    (os.foldl Config.putAddressObject c).OneLine := by
  induction os generalizing c with
  | nil => exact hc
  | cons o os ih =>
    obtain ⟨ho, hos⟩ := List.forall_mem_cons.1 hos
    exact ih (hc.putAddressObject ho) hos

end Config.OneLine

end FirewallConfig
