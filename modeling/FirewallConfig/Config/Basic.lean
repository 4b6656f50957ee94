import FirewallConfig.Config.Interface
import FirewallConfig.Config.Management
import FirewallConfig.Config.Nat
import FirewallConfig.Config.Objects
import FirewallConfig.Config.Policy
import FirewallConfig.Config.Vpn

/-!
# Config/Basic — a firewall configuration, independent of any dialect

A `Config` is what a reader makes of a text and what a writer makes a text of.  Every list keeps
the order of the text.  Interfaces and address objects are kept by name: putting one whose name is
there already replaces the old one in its place.
-/

namespace FirewallConfig

/-- A firewall configuration. -/
structure Config where
  hostname : Option String := none
  device : Device := {}
  interfaces : List Interface := []
  addressObjects : List AddressObject := []
  addressGroups : List AddressGroup := []
  services : List ServiceObject := []
  policies : List Policy := []
  accessBindings : List AccessBinding := []
  nat : List NatRule := []
  routes : List Route := []
  vpn : Vpn := {}
  users : List User := []
  aaaServers : List AaaServer := []
  management : Management := {}
  securityProfiles : List SecurityProfile := []
  applications : List Application := []
  urlCategories : List UrlCategory := []
  zones : List Zone := []
deriving DecidableEq, Repr

namespace Config

/-! ## Looking up -/

/-- The interface of a name. -/
def interface? (c : Config) (name : String) : Option Interface :=
  c.interfaces.find? (·.name == name)

/-- The interface that has a nickname. -/
def interfaceByNickname? (c : Config) (nickname : String) : Option Interface :=
  c.interfaces.find? (·.nickname == some nickname)

/-- The interface that a reference means: by name, else by nickname, else by the zone it is in. -/
def findInterface? (c : Config) (reference : String) : Option Interface :=
  (c.interface? reference).or <| (c.interfaceByNickname? reference).or <|
    c.interfaces.find? (·.zone == some reference)

/-- The name of the interface that a reference means; a reference to none stays as it is. -/
def deviceName (c : Config) (reference : String) : String :=
  match c.findInterface? reference with
  | some i => i.name
  | none => reference

/-- The first address object of a name. -/
def addressObject? (c : Config) (name : String) : Option AddressObject :=
  c.addressObjects.find? (·.name == name)

/-- The first address group of a name. -/
def addressGroup? (c : Config) (name : String) : Option AddressGroup :=
  c.addressGroups.find? (·.name == name)

/-- The first service of a name. -/
def service? (c : Config) (name : String) : Option ServiceObject :=
  c.services.find? (·.name == name)

/-- The name is that of an address object, an address group or a service. -/
def declares (c : Config) (name : String) : Bool :=
  (c.addressObject? name).isSome || (c.addressGroup? name).isSome || (c.service? name).isSome

/-! ## Putting in -/

/-- Puts an interface in the place of the one that has its name, or at the end. -/
def putInterface (c : Config) (i : Interface) : Config :=
  { c with interfaces := amendFirst (·.name == i.name) i (fun _ => i) c.interfaces }

/-- Puts an address object in the place of the one that has its name, or at the end. -/
def putAddressObject (c : Config) (o : AddressObject) : Config :=
  { c with addressObjects := amendFirst (·.name == o.name) o (fun _ => o) c.addressObjects }

/-! ## What is written -/

/-- The rules that a writer writes.  Where there are none but access lists are bound, each binding
stands for one rule that denies everything. -/
def effectivePolicies (c : Config) : List Policy :=
  if !c.policies.isEmpty || c.accessBindings.isEmpty then c.policies
  else c.accessBindings.map fun b =>
    { name := some b.acl
      sourceZone := if b.interface.isEmpty then none else some b.interface }

/-- The hostname that is written, where `default` stands for a missing or an empty one. -/
def hostnameOr (c : Config) (default : String) : String :=
  match c.hostname with
  | some h => if h.isEmpty then default else h
  | none => default

/-- The addresses of the pool that a dynamic rule is paired with by its id. -/
def pairedPool? (c : Config) (r : NatRule) : Option String :=
  match r.natId with
  | none => none
  | some id =>
    (c.nat.find? fun p => p.kind == .pool && p.natId == some id).bind (·.translated)

/-- Some rule takes its addresses from the pool. -/
def isPoolPaired (c : Config) (pool : NatRule) : Bool :=
  pool.natId.isSome && c.nat.any fun r => r.kind != .pool && r.natId == pool.natId

end Config

end FirewallConfig
