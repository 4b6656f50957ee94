import FirewallConfig.Config.Interface
import FirewallConfig.Config.Objects
import FirewallConfig.Proofs.Address.Endpoint

/-!
# Proofs/Config/Network — interfaces, routes and addresses that every dialect can write

A route is a line of words in one dialect and a nest of settings in another.  All of them can say it if
its network and its gateway are addresses (`Route.IsConcrete`), and if what stands for an interface is
one word and no address (`IsInterfaceName`).  The same goes for what stands under the name of an
address (`AddressObject.IsConcrete`).
-/

namespace FirewallConfig

/-- The text can stand for an interface in a route: it is one word, and no address. -/
def IsInterfaceName (s : String) : Prop := Text.IsWord s ∧ isIPv4 s = false

instance (s : String) : Decidable (IsInterfaceName s) := inferInstanceAs (Decidable (_ ∧ _))

/-- All that an interface is called by can stand for it in a route. -/
structure Interface.IsCallable (i : Interface) : Prop where
  name : IsInterfaceName i.name
  nickname : ∀ s ∈ i.nickname, IsInterfaceName s := by simp
  zone : ∀ s ∈ i.zone, IsInterfaceName s := by simp

theorem Interface.address?_eq_some_iff {i : Interface} {ip mask : String} :
    i.address? = some (ip, mask) ↔ i.ip = some ip ∧ i.mask = some mask := by
  rw [address?]
  split <;> simp_all

/-- The route leads from addresses to an address. -/
structure Route.IsConcrete (r : Route) : Prop where
  network : isIPv4 r.network = true
  mask : r.mask ∈ Netmask.table
  gateway : ∃ gateway, r.gateway = some gateway ∧ isIPv4 gateway = true
  interface : ∀ s ∈ r.interface, IsInterfaceName s := by simp

/-- Where a route leads: the addresses that it is for, the next device, and how far that is. -/
def Route.path (r : Route) : Network × Option String × Option UInt16 :=
  (⟨r.network, r.mask⟩, r.gateway, r.distance)

/-! ## Addresses -/

namespace AddressObject

/-- What a network is under a name: a mask that leaves one address makes it that address. -/
def ofNetwork (name : String) (n : Network) (description : Option String) : AddressObject :=
  if n.mask == Netmask.single then { name, kind := .host, value := n.address, description }
  else { name, kind := .subnet, value := n.address, mask := some n.mask, description }

theorem name_ofNetwork (name : String) (n : Network) (description : Option String) :
    (ofNetwork name n description).name = name := by
  rw [ofNetwork]
  split <;> rfl

/-- What stands under the name is an address, a network that is no single address, the addresses from
one to another, or any text in the place of a domain. -/
inductive IsConcrete : AddressObject → Prop where
  | host (name : String) {address : String} (description : Option String)
      (haddress : isIPv4 address = true) :
      IsConcrete { name, kind := .host, value := address, description }
  | subnet (name : String) {address mask : String} (description : Option String)
      (haddress : isIPv4 address = true) (hmask : mask ∈ Netmask.table)
      (hsingle : mask ≠ Netmask.single) :
      IsConcrete { name, kind := .subnet, value := address, mask := some mask, description }
  | range (name : String) {first last : String} (description : Option String)
      (hfirst : isIPv4 first = true) (hlast : isIPv4 last = true) :
      IsConcrete { name, kind := .range, value := first ++ "-" ++ last, description }
  | fqdn (name domain : String) (description : Option String) :
      IsConcrete { name, kind := .fqdn, value := domain, description }

theorem ofNetwork_single (name address : String) (description : Option String) :
    ofNetwork name ⟨address, Netmask.single⟩ description
      = { name, kind := .host, value := address, description } := if_pos (beq_self_eq_true _)

theorem ofNetwork_of_ne {name : String} {n : Network} {description : Option String}
    (h : n.mask ≠ Netmask.single) :
    ofNetwork name n description
      = { name, kind := .subnet, value := n.address, mask := some n.mask, description } :=
  if_neg (mt beq_iff_eq.1 h)

/-- **A network under a name can be written by every dialect.** -/
theorem isConcrete_ofNetwork (name : String) {n : Network} (description : Option String)
    (ha : isIPv4 n.address = true) (hm : n.mask ∈ Netmask.table) :
    (ofNetwork name n description).IsConcrete := by
  by_cases hsingle : n.mask = Netmask.single
  · obtain ⟨address, mask⟩ := n
    obtain rfl : mask = Netmask.single := hsingle
    rw [ofNetwork_single]
    exact .host name description ha
  · rw [ofNetwork_of_ne hsingle]
    exact .subnet name description ha hm hsingle

end AddressObject

end FirewallConfig
