import FirewallConfig.Config.Basic
import FirewallConfig.Proofs.Address.Endpoint
import FirewallConfig.Proofs.Keyed
import FirewallConfig.Proofs.Text.OneLine
import FirewallConfig.Service.Literal

/-!
# Proofs/Config/OneLine — configurations whose texts hold no line feed

A writer puts every text of a configuration into some line, and what it writes can be read back line
by line only if none of them ends that line.  There is one predicate for each kind of record, with a
field for each of its texts; `Config.OneLine` asks it of everything in a configuration.
-/

namespace FirewallConfig

/-! ## Interfaces, zones and routes -/

/-- The texts of an interface hold no line feed. -/
structure Interface.OneLine (i : Interface) : Prop where
  name : Text.OneLine i.name
  ip : ∀ s ∈ i.ip, Text.OneLine s := by first | decide | simp
  mask : ∀ s ∈ i.mask, Text.OneLine s := by first | decide | simp
  nickname : ∀ s ∈ i.nickname, Text.OneLine s := by first | decide | simp
  comment : ∀ s ∈ i.comment, Text.OneLine s := by first | decide | simp
  zone : ∀ s ∈ i.zone, Text.OneLine s := by first | decide | simp

/-- The texts of a zone hold no line feed. -/
structure Zone.OneLine (z : Zone) : Prop where
  name : Text.OneLine z.name
  interfaces : ∀ s ∈ z.interfaces, Text.OneLine s := by first | decide | simp
  description : ∀ s ∈ z.description, Text.OneLine s := by first | decide | simp

/-- The texts of a route hold no line feed. -/
structure Route.OneLine (r : Route) : Prop where
  name : ∀ s ∈ r.name, Text.OneLine s := by first | decide | simp
  network : Text.OneLine r.network
  mask : Text.OneLine r.mask
  gateway : ∀ s ∈ r.gateway, Text.OneLine s := by first | decide | simp
  interface : ∀ s ∈ r.interface, Text.OneLine s := by first | decide | simp
  description : ∀ s ∈ r.description, Text.OneLine s := by first | decide | simp

/-! ## Addresses and services -/

/-- The texts of an address object hold no line feed. -/
structure AddressObject.OneLine (o : AddressObject) : Prop where
  name : Text.OneLine o.name
  value : Text.OneLine o.value
  mask : ∀ s ∈ o.mask, Text.OneLine s := by first | decide | simp
  description : ∀ s ∈ o.description, Text.OneLine s := by first | decide | simp

/-- The texts of an address group hold no line feed. -/
structure AddressGroup.OneLine (g : AddressGroup) : Prop where
  name : Text.OneLine g.name
  members : ∀ s ∈ g.members, Text.OneLine s := by first | decide | simp
  description : ∀ s ∈ g.description, Text.OneLine s := by first | decide | simp

/-- The texts of a service hold no line feed. -/
structure ServiceObject.OneLine (o : ServiceObject) : Prop where
  name : Text.OneLine o.name
  protocol : Text.OneLine o.protocol
  port : ∀ s ∈ o.port, Text.OneLine s := by first | decide | simp
  description : ∀ s ∈ o.description, Text.OneLine s := by first | decide | simp

/-! ## Rules -/

/-- The texts of a rule hold no line feed. -/
structure Policy.OneLine (p : Policy) : Prop where
  name : ∀ s ∈ p.name, Text.OneLine s := by first | decide | simp
  protocol : Text.OneLine p.protocol := by decide
  source : ∀ s ∈ p.source, Text.OneLine s := by first | decide | simp
  destination : ∀ s ∈ p.destination, Text.OneLine s := by first | decide | simp
  service : ∀ s ∈ p.service, Text.OneLine s := by first | decide | simp
  sourceZone : ∀ s ∈ p.sourceZone, Text.OneLine s := by first | decide | simp
  destinationZone : ∀ s ∈ p.destinationZone, Text.OneLine s := by first | decide | simp
  application : ∀ s ∈ p.application, Text.OneLine s := by first | decide | simp
  description : ∀ s ∈ p.description, Text.OneLine s := by first | decide | simp

/-- The texts of a binding hold no line feed. -/
structure AccessBinding.OneLine (b : AccessBinding) : Prop where
  acl : Text.OneLine b.acl
  direction : Text.OneLine b.direction
  interface : Text.OneLine b.interface

/-- The texts of a translation rule hold no line feed. -/
structure NatRule.OneLine (r : NatRule) : Prop where
  name : ∀ s ∈ r.name, Text.OneLine s := by first | decide | simp
  source : ∀ s ∈ r.source, Text.OneLine s := by first | decide | simp
  destination : ∀ s ∈ r.destination, Text.OneLine s := by first | decide | simp
  translated : ∀ s ∈ r.translated, Text.OneLine s := by first | decide | simp
  sourceInterface : ∀ s ∈ r.sourceInterface, Text.OneLine s := by first | decide | simp
  interface : ∀ s ∈ r.interface, Text.OneLine s := by first | decide | simp
  natId : ∀ s ∈ r.natId, Text.OneLine s := by first | decide | simp
  description : ∀ s ∈ r.description, Text.OneLine s := by first | decide | simp

/-- The texts of a class map or a policy map hold no line feed. -/
structure SecurityProfile.OneLine (p : SecurityProfile) : Prop where
  name : Text.OneLine p.name
  kind : Text.OneLine p.kind
  lines : ∀ s ∈ p.lines, Text.OneLine s := by first | decide | simp

/-- The texts of an application hold no line feed. -/
structure Application.OneLine (a : Application) : Prop where
  name : Text.OneLine a.name
  category : ∀ s ∈ a.category, Text.OneLine s := by first | decide | simp
  description : ∀ s ∈ a.description, Text.OneLine s := by first | decide | simp

/-- The texts of a category of web addresses hold no line feed. -/
structure UrlCategory.OneLine (u : UrlCategory) : Prop where
  name : Text.OneLine u.name
  urls : ∀ s ∈ u.urls, Text.OneLine s := by first | decide | simp
  description : ∀ s ∈ u.description, Text.OneLine s := by first | decide | simp

/-! ## Tunnels -/

/-- The texts of a tunnel hold no line feed. -/
structure Tunnel.OneLine (t : Tunnel) : Prop where
  name : Text.OneLine t.name
  interface : ∀ s ∈ t.interface, Text.OneLine s := by first | decide | simp
  peer : ∀ s ∈ t.peer, Text.OneLine s := by first | decide | simp
  proposal : ∀ s ∈ t.proposal, Text.OneLine s := by first | decide | simp
  preSharedKey : ∀ s ∈ t.preSharedKey, Text.OneLine s := by first | decide | simp
  acl : ∀ s ∈ t.acl, Text.OneLine s := by first | decide | simp
  description : ∀ s ∈ t.description, Text.OneLine s := by first | decide | simp

/-- The texts of a policy for the first phase hold no line feed. -/
structure IkePolicy.OneLine (p : IkePolicy) : Prop where
  priority : Text.OneLine p.priority
  authentication : Text.OneLine p.authentication := by decide
  encryption : Text.OneLine p.encryption := by decide
  hash : Text.OneLine p.hash := by decide
  group : Text.OneLine p.group := by decide
  lifetime : Text.OneLine p.lifetime := by decide

/-- The texts of a transform set hold no line feed. -/
structure TransformSet.OneLine (t : TransformSet) : Prop where
  name : Text.OneLine t.name
  protocol : Text.OneLine t.protocol := by decide
  encryption : Text.OneLine t.encryption := by decide
  hash : Text.OneLine t.hash := by decide

/-- The texts of a selector hold no line feed. -/
structure Selector.OneLine (s : Selector) : Prop where
  name : Text.OneLine s.name
  tunnel : Text.OneLine s.tunnel
  proposal : ∀ t ∈ s.proposal, Text.OneLine t := by first | decide | simp
  source : ∀ t ∈ s.source, Text.OneLine t := by first | decide | simp
  destination : ∀ t ∈ s.destination, Text.OneLine t := by first | decide | simp

/-- The texts of a group policy hold no line feed. -/
structure GroupPolicy.OneLine (p : GroupPolicy) : Prop where
  name : Text.OneLine p.name
  kind : ∀ s ∈ p.kind, Text.OneLine s := by first | decide | simp
  vpnProtocols : ∀ s ∈ p.vpnProtocols, Text.OneLine s := by first | decide | simp
  dnsServer : ∀ s ∈ p.dnsServer, Text.OneLine s := by first | decide | simp

/-- The texts of a tunnel group hold no line feed. -/
structure TunnelGroup.OneLine (g : TunnelGroup) : Prop where
  name : Text.OneLine g.name
  kind : ∀ s ∈ g.kind, Text.OneLine s := by first | decide | simp
  defaultGroupPolicy : ∀ s ∈ g.defaultGroupPolicy, Text.OneLine s := by first | decide | simp
  preSharedKey : ∀ s ∈ g.preSharedKey, Text.OneLine s := by first | decide | simp

/-- The texts of everything about tunnels hold no line feed. -/
structure Vpn.OneLine (v : Vpn) : Prop where
  tunnels : ∀ t ∈ v.tunnels, t.OneLine := by exact List.forall_mem_nil _
  ikePolicies : ∀ p ∈ v.ikePolicies, p.OneLine := by exact List.forall_mem_nil _
  transformSets : ∀ t ∈ v.transformSets, t.OneLine := by exact List.forall_mem_nil _
  selectors : ∀ s ∈ v.selectors, s.OneLine := by exact List.forall_mem_nil _
  groupPolicies : ∀ p ∈ v.groupPolicies, p.OneLine := by exact List.forall_mem_nil _
  tunnelGroups : ∀ g ∈ v.tunnelGroups, g.OneLine := by exact List.forall_mem_nil _

/-! ## Management -/

/-- The texts of a device hold no line feed. -/
structure Device.OneLine (d : Device) : Prop where
  enablePassword : ∀ s ∈ d.enablePassword, Text.OneLine s := by first | decide | simp
  password : ∀ s ∈ d.password, Text.OneLine s := by first | decide | simp
  domain : ∀ s ∈ d.domain, Text.OneLine s := by first | decide | simp
  timezone : ∀ s ∈ d.timezone, Text.OneLine s := by first | decide | simp

/-- The texts of an account hold no line feed. -/
structure User.OneLine (u : User) : Prop where
  username : Text.OneLine u.username
  secret : ∀ s ∈ u.secret, Text.OneLine s := by first | decide | simp
  role : ∀ s ∈ u.role, Text.OneLine s := by first | decide | simp

/-- The texts of a server for accounts hold no line feed. -/
structure AaaServer.OneLine (s : AaaServer) : Prop where
  name : Text.OneLine s.name
  protocol : Text.OneLine s.protocol := by decide
  interface : ∀ t ∈ s.interface, Text.OneLine t := by first | decide | simp
  host : ∀ t ∈ s.host, Text.OneLine t := by first | decide | simp
  port : Text.OneLine s.port := by decide
  baseDn : ∀ t ∈ s.baseDn, Text.OneLine t := by first | decide | simp
  description : ∀ t ∈ s.description, Text.OneLine t := by first | decide | simp

/-- The texts of a log target hold no line feed. -/
structure LogTarget.OneLine (t : LogTarget) : Prop where
  target : Text.OneLine t.target
  level : Text.OneLine t.level := by decide
  host : ∀ s ∈ t.host, Text.OneLine s := by first | decide | simp
  interface : ∀ s ∈ t.interface, Text.OneLine s := by first | decide | simp

/-- The texts of an SNMP community hold no line feed. -/
structure SnmpSetting.OneLine (s : SnmpSetting) : Prop where
  community : Text.OneLine s.community := by decide
  version : Text.OneLine s.version := by decide
  host : ∀ t ∈ s.host, Text.OneLine t := by first | decide | simp
  interface : ∀ t ∈ s.interface, Text.OneLine t := by first | decide | simp

/-- The texts of a line about management access hold no line feed. -/
def AccessSetting.OneLine : AccessSetting → Prop
  | .allow address mask interface =>
    Text.OneLine address ∧ Text.OneLine mask ∧ Text.OneLine interface
  | .option key value => Text.OneLine key ∧ Text.OneLine value

/-- The texts of a line about the clock hold no line feed. -/
structure ClockSetting.OneLine (s : ClockSetting) : Prop where
  key : Text.OneLine s.key
  value : Text.OneLine s.value

/-- The texts of the management plane hold no line feed. -/
structure Management.OneLine (m : Management) : Prop where
  logging : ∀ t ∈ m.logging, t.OneLine := by exact List.forall_mem_nil _
  snmp : ∀ s ∈ m.snmp, s.OneLine := by exact List.forall_mem_nil _
  ssh : ∀ s ∈ m.ssh, s.OneLine := by exact List.forall_mem_nil _
  http : ∀ s ∈ m.http, s.OneLine := by exact List.forall_mem_nil _
  clock : ∀ s ∈ m.clock, s.OneLine := by exact List.forall_mem_nil _

/-! ## The whole -/

/-- No text of the configuration holds a line feed. -/
structure Config.OneLine (c : Config) : Prop where
  hostname : ∀ s ∈ c.hostname, Text.OneLine s := by first | decide | simp
  device : c.device.OneLine := by exact {}
  interfaces : ∀ i ∈ c.interfaces, i.OneLine := by exact List.forall_mem_nil _
  addressObjects : ∀ o ∈ c.addressObjects, o.OneLine := by exact List.forall_mem_nil _
  addressGroups : ∀ g ∈ c.addressGroups, g.OneLine := by exact List.forall_mem_nil _
  services : ∀ o ∈ c.services, o.OneLine := by exact List.forall_mem_nil _
  policies : ∀ p ∈ c.policies, p.OneLine := by exact List.forall_mem_nil _
  accessBindings : ∀ b ∈ c.accessBindings, b.OneLine := by exact List.forall_mem_nil _
  nat : ∀ r ∈ c.nat, r.OneLine := by exact List.forall_mem_nil _
  routes : ∀ r ∈ c.routes, r.OneLine := by exact List.forall_mem_nil _
  vpn : c.vpn.OneLine := by exact {}
  users : ∀ u ∈ c.users, u.OneLine := by exact List.forall_mem_nil _
  aaaServers : ∀ s ∈ c.aaaServers, s.OneLine := by exact List.forall_mem_nil _
  management : c.management.OneLine := by exact {}
  securityProfiles : ∀ p ∈ c.securityProfiles, p.OneLine := by exact List.forall_mem_nil _
  applications : ∀ a ∈ c.applications, a.OneLine := by exact List.forall_mem_nil _
  urlCategories : ∀ u ∈ c.urlCategories, u.OneLine := by exact List.forall_mem_nil _
  zones : ∀ z ∈ c.zones, z.OneLine := by exact List.forall_mem_nil _

/-! ## What is made of it -/

theorem Text.oneLine_anyText : Text.OneLine anyText := by decide

theorem Text.oneLine_getD {text : Option String} (h : ∀ s ∈ text, Text.OneLine s)
    {default : String} (hd : Text.OneLine default) : Text.OneLine (text.getD default) := by
  cases text with
  | none => exact hd
  | some s => exact h s rfl

theorem Text.oneLine_orAny {texts : List String} (h : ∀ s ∈ texts, Text.OneLine s) :
    ∀ s ∈ orAny texts, Text.OneLine s := by
  rw [orAny]
  split
  · intro s hs
    rw [List.mem_singleton.1 hs]
    exact Text.oneLine_anyText
  · exact h

theorem Policy.OneLine.label {p : Policy} (hp : p.OneLine) (position : Nat) :
    Text.OneLine (p.label position) := by
  rw [Policy.label]
  split
  · next hname => exact hp.name _ hname
  · exact Text.oneLine_append.2 ⟨by decide, by simp⟩
  · exact Text.oneLine_append.2 ⟨by decide, by simp⟩

theorem Policy.OneLine.labelAmong {p : Policy} (hp : p.OneLine) (rules : List Policy)
    (position : Nat) : Text.OneLine (p.labelAmong rules position) := by
  rw [Policy.labelAmong]
  split
  · simp only [Text.oneLine_append, Text.toString_text]
    exact ⟨⟨hp.label position, by decide⟩, by simp⟩
  · exact hp.label position

theorem NatRule.OneLine.label {r : NatRule} (hr : r.OneLine) (position : Nat) :
    Text.OneLine (r.label position) := by
  rw [NatRule.label]
  split
  · next name _ hname => exact hr.name _ hname
  · next id _ hid =>
    simp only [Text.oneLine_append, Text.toString_text]
    exact ⟨by decide, hr.natId _ hid⟩
  · exact Text.oneLine_append.2 ⟨by decide, by simp⟩

theorem Tunnel.OneLine.label {t : Tunnel} (ht : t.OneLine) : Text.OneLine t.label := by
  rw [Tunnel.label]
  split
  · simp only [Text.oneLine_append, Text.toString_text]
    exact ⟨⟨ht.name, by decide⟩, by simp⟩
  · exact ht.name

theorem Interface.OneLine.address? {i : Interface} (hi : i.OneLine) {ip mask : String}
    (h : i.address? = some (ip, mask)) : Text.OneLine ip ∧ Text.OneLine mask := by
  rw [Interface.address?] at h
  split at h
  · next hip hmask =>
    cases h
    exact ⟨hi.ip _ hip, hi.mask _ hmask⟩
  · cases h

namespace Config

theorem effectivePolicies_of_ne_nil {c : Config} (h : c.policies ≠ []) :
    c.effectivePolicies = c.policies := by
  rw [effectivePolicies, List.isEmpty_eq_false_iff.2 h]
  rfl

theorem mem_of_findInterface? {c : Config} {reference : String} {i : Interface}
    (h : c.findInterface? reference = some i) : i ∈ c.interfaces := by
  rw [findInterface?, Option.or_eq_some_iff, Option.or_eq_some_iff] at h
  rcases h with h | ⟨-, h | ⟨-, h⟩⟩ <;> exact List.mem_of_find?_eq_some h

end Config

namespace Config.OneLine

variable {c : Config} (hc : c.OneLine)
include hc

/-- The rules that stand for bindings hold no line feed either. -/
theorem effectivePolicies : ∀ p ∈ c.effectivePolicies, p.OneLine := by
  intro p hp
  rw [Config.effectivePolicies] at hp
  split at hp
  · exact hc.policies p hp
  · obtain ⟨b, hb, rfl⟩ := List.mem_map.1 hp
    have hb := hc.accessBindings b hb
    have hip : Text.OneLine "ip" := by decide
    refine { name := ?_, protocol := hip, sourceZone := ?_ }
    · rintro s ⟨⟩
      exact hb.acl
    · intro s hs
      split at hs
      · cases hs
      · cases hs
        exact hb.interface

theorem findInterface? {reference : String} {i : Interface}
    (h : c.findInterface? reference = some i) : i.OneLine :=
  hc.interfaces i (mem_of_findInterface? h)

theorem deviceName {reference : String} (h : Text.OneLine reference) :
    Text.OneLine (c.deviceName reference) := by
  rw [Config.deviceName]
  split
  · next i hi => exact (hc.findInterface? hi).name
  · exact h

theorem peeredTunnels {t : Tunnel} {peer : String} (h : (t, peer) ∈ c.vpn.peeredTunnels) :
    t.OneLine ∧ Text.OneLine peer := by
  obtain ⟨t', ht', h⟩ := List.mem_filterMap.1 h
  obtain ⟨peer', hpeer, heq⟩ := Option.map_eq_some_iff.1 h
  cases heq
  have ht := hc.vpn.tunnels t ht'
  exact ⟨ht, ht.peer peer hpeer⟩

theorem hostnameOr {default : String} (hd : Text.OneLine default) :
    Text.OneLine (c.hostnameOr default) := by
  rw [Config.hostnameOr]
  split
  · next h heq =>
    split
    · exact hd
    · exact hc.hostname h heq
  · exact hd

end Config.OneLine

/-! ## Endpoints and services of rules -/

theorem Netmask.oneLine_single : Text.OneLine Netmask.single := by decide

theorem Netmask.oneLine_of_mem_table {mask : String} (h : mask ∈ Netmask.table) :
    Text.OneLine mask := by
  have hall : ∀ m ∈ Netmask.table, Text.OneLine m := by decide
  exact hall mask h

namespace Network

theorem oneLine_cidr {n : Network} (h : Text.OneLine n.address) : Text.OneLine n.cidr := by
  simp only [cidr, Text.oneLine_append]
  exact ⟨⟨h.trim, by decide⟩, by simp⟩

theorem oneLine_of_ofCidr? {s : String} (hs : Text.OneLine s) {n : Network}
    (h : ofCidr? s = some n) : Text.OneLine n.address ∧ Text.OneLine n.mask := by
  refine ⟨?_, Netmask.oneLine_of_mem_table (mask_mem_table_of_ofCidr? h)⟩
  rw [ofCidr?] at h
  split at h
  · cases h
  · next address tail hcut =>
    split at h
    · cases h
    · cases h
      exact (hs.trim.cut hcut).1

theorem oneLine_of_read? {s : String} (hs : Text.OneLine s) {n : Network} (h : read? s = some n) :
    Text.OneLine n.address ∧ Text.OneLine n.mask := by
  have hwords : ∀ w ∈ Text.words s, Text.OneLine w := fun w hw => hs.of_mem_words hw
  rw [read?] at h
  split at h
  · cases h
  · next address mask rest heq =>
    cases h
    rw [heq] at hwords
    exact ⟨hwords address List.mem_cons_self,
      hwords mask (List.mem_cons_of_mem _ List.mem_cons_self)⟩
  · next word heq =>
    rw [heq] at hwords
    have hword := hwords word List.mem_cons_self
    split at h
    · cases h
    · next address tail hcut =>
      split at h
      · cases h
        exact hword.cut hcut
      · exact oneLine_of_ofCidr? hword h

end Network

/-- The texts of what an endpoint means hold no line feed. -/
def Endpoint.OneLine : Endpoint → Prop
  | .any => True
  | .host address => Text.OneLine address
  | .network n => Text.OneLine n.address ∧ Text.OneLine n.mask
  | .named name => Text.OneLine name

theorem Endpoint.oneLine_classify {s : String} (hs : Text.OneLine s) :
    (Endpoint.classify s).OneLine := by
  rw [Endpoint.classify]
  split
  · exact trivial
  · split
    · next n hn => exact Network.oneLine_of_read? hs.trim (Option.filter_eq_some_iff.1 hn).1
    · split
      · exact hs.trim
      · exact hs.trim

theorem Endpoint.oneLine_normalize {s : String} (hs : Text.OneLine s) :
    Text.OneLine (Endpoint.normalize s) := by
  have hclass := Endpoint.oneLine_classify hs
  rw [Endpoint.normalize]
  cases h : Endpoint.classify s with
  | any => exact Text.oneLine_anyText
  | host address | named name =>
    rw [h] at hclass
    exact hclass
  | network n =>
    rw [h] at hclass
    exact Network.oneLine_cidr hclass.1

/-- The texts of what a service means. -/
def ServiceRef.texts : ServiceRef → List String
  | .any => []
  | .protocol name => [name]
  | .port name ports => [name, ports]
  | .named name => [name]

/-- The texts of what a service means hold no line feed. -/
def ServiceRef.OneLine (r : ServiceRef) : Prop := ∀ s ∈ r.texts, Text.OneLine s

instance (r : ServiceRef) : Decidable r.OneLine :=
  inferInstanceAs (Decidable (∀ s ∈ r.texts, Text.OneLine s))

theorem oneLine_literalName {protocol ports : String} (hprotocol : Text.OneLine protocol)
    (hports : Text.OneLine ports) : Text.OneLine (literalName protocol ports) := by
  simp only [literalName, Text.oneLine_append, Text.toString_text]
  exact ⟨⟨hprotocol, by decide⟩, hports⟩

theorem ServiceRef.oneLine_ofPort? {s : String} (hs : Text.OneLine s) {r : ServiceRef}
    (h : ofPort? s = some r) : r.OneLine := by
  rw [ofPort?] at h
  split at h
  · next name ports hcut =>
    split at h
    · cases h
      obtain ⟨hname, hports⟩ := hs.cut hcut
      intro t ht
      rcases List.mem_cons.1 ht with rfl | ht
      · exact hname
      · rw [List.mem_singleton.1 ht]
        exact hports
    · cases h
  · cases h

theorem ServiceRef.oneLine_classify {s : String} (hs : Text.OneLine s) :
    (ServiceRef.classify s).OneLine := by
  have hsmall := hs.trim.lower
  rw [ServiceRef.classify]
  split
  · exact (by decide : ServiceRef.any.OneLine)
  · split
    · next ref href => exact oneLine_ofPort? hsmall href
    · split
      · exact (by decide : ServiceRef.any.OneLine)
      · split
        · exact List.forall_mem_singleton.2 hsmall
        · exact List.forall_mem_singleton.2 hs.trim

theorem oneLine_wellKnownService {name : String} {r : ServiceRef}
    (h : wellKnownService name = some r) : r.OneLine := by
  rw [wellKnownService] at h
  split at h <;> cases h <;> decide

theorem Config.oneLine_resolveService (c : Config) {s : String} (hs : Text.OneLine s) :
    (c.resolveService s).OneLine := by
  have hclass := ServiceRef.oneLine_classify hs
  rw [Config.resolveService]
  split
  · next name heq =>
    rw [heq] at hclass
    split
    · exact hclass
    · cases hknown : wellKnownService name with
      | none => exact hclass
      | some ref => exact oneLine_wellKnownService hknown
  · exact hclass

/-- The protocol that a service is spelled with, if it is. -/
def ServiceRef.protocol? : ServiceRef → Option String
  | .protocol name | .port name _ => some name
  | .any | .named _ => none

/-- **The protocol of a service that a rule spells out** is one of those that services are spelled
with. -/
theorem mem_protocols_of_resolveService {c : Config} {s protocol : String}
    (h : (c.resolveService s).protocol? = some protocol) : protocol ∈ ServiceRef.protocols := by
  have hknown : ∀ {name : String} {r : ServiceRef}, wellKnownService name = some r →
      r.protocol? = some protocol → protocol ∈ ServiceRef.protocols := by
    intro name r hr hp
    rw [wellKnownService] at hr
    split at hr <;> cases hr <;> cases hp <;> decide
  have hport : ∀ {small : String} {r : ServiceRef}, ServiceRef.ofPort? small = some r →
      r.protocol? = some protocol → protocol ∈ ServiceRef.protocols := by
    intro small r hr hp
    rw [ServiceRef.ofPort?] at hr
    split at hr
    · split at hr
      · next hmem =>
        cases hr
        cases hp
        exact List.contains_iff_mem.1 (Bool.and_eq_true_iff.1 hmem).1
      · cases hr
    · cases hr
  rw [Config.resolveService] at h
  split at h
  · next name heq =>
    split at h
    · cases h
    · cases hw : wellKnownService name with
      | none =>
        rw [hw] at h
        cases h
      | some r =>
        rw [hw] at h
        exact hknown hw h
  · rw [ServiceRef.classify] at h
    split at h
    · cases h
    · split at h
      · next href => exact hport href h
      · split at h
        · cases h
        · split at h
          · next hmem =>
            rw [← Option.some.inj h]
            exact List.contains_iff_mem.1 hmem
          · cases h

/-- **A service that a rule spells out** holds no line feed, and its protocol is one of those that
services are spelled with. -/
theorem Config.OneLine.literalServices {c : Config} (hc : c.OneLine)
    (predefined : String → String → Option String) :
    ∀ o ∈ c.literalServices predefined, o.OneLine ∧ o.protocol ∈ ServiceRef.protocols := by
  intro o ho
  obtain ⟨p, hp, ho⟩ := List.mem_flatMap.1 (mem_of_mem_eraseDupsBy ho)
  obtain ⟨s, hs, ho⟩ := List.mem_filterMap.1 ho
  have href := c.oneLine_resolveService
    (Text.oneLine_orAny (hc.effectivePolicies p hp).service s hs)
  unfold literalService? at ho
  split at ho
  · next protocol ports heq =>
    rw [heq] at href
    have hprotocol := href protocol List.mem_cons_self
    have hports := href ports (List.mem_cons_of_mem _ List.mem_cons_self)
    split at ho
    · cases ho
    · cases ho
      have hname := oneLine_literalName hprotocol hports
      refine ⟨{ name := hname, protocol := hprotocol, port := ?_ },
        mem_protocols_of_resolveService (by rw [heq]; rfl)⟩
      rintro s ⟨⟩
      exact hports
  · cases ho

end FirewallConfig
