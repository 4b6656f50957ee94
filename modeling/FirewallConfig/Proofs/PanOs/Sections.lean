import FirewallConfig.Proofs.PanOs.Records
import FirewallConfig.Proofs.PanOs.Rules
import Mathlib.Tactic.Choose

/-!
# Proofs/PanOs/Sections — no entry is lost, duplicated or moved

Main statement: what is read from a written document has, section by section, the entries that were
written there, in order (`keepsEntries_read_write`).  Interfaces and address objects are put in by
name, and so their names have to differ.
-/

namespace FirewallConfig.PanOs

open Xml (Node IsName)

/-! ## The sections -/

/-- The zones that are read. -/
def zonesPart : Part (List Zone) where
  area := .zones
  get := (·.zones)
  put zs b name := zs ++ [{ name, interfaces := b.zoneMembers }]

/-- The interfaces that are read, before they are joined with their zones. -/
def interfacesPart : Part (List Interface) where
  area := .interfaces
  get := (·.interfaces)
  put is b name :=
    (readInterface b name :: readUnits b).foldl (fun is i => putBy (·.name) i is) is

theorem put_interfacesPart (is : List Interface) (b : Block) (name : String) :
    interfacesPart.put is b name
      = (readInterface b name :: readUnits b).foldl (fun is i => putBy (·.name) i is) is := rfl

theorem name_readInterface (b : Block) (name : String) : (readInterface b name).name = name := rfl

/-- The address objects that are read. -/
def addressesPart : Part (List AddressObject) where
  area := .addresses
  get := (·.addressObjects)
  put os b name := (readAddress b name).toList.foldl (fun os o => putBy (·.name) o os) os

/-- The address groups that are read. -/
def groupsPart : Part (List AddressGroup) where
  area := .addressGroups
  get := (·.addressGroups)
  put gs b name := gs ++ [readGroup b name]

/-- The services that are read. -/
def servicesPart : Part (List ServiceObject) where
  area := .services
  get := (·.services)
  put ss b name := ss ++ [readService b name]

/-- The accounts that are read. -/
def usersPart : Part (List User) where
  area := .admins
  get := (·.users)
  put us b name := us ++ [readUser b name]

/-- The routes that are read. -/
def routesPart : Part (List Route) where
  area := .routes
  get := (·.routes)
  put rs b name := rs ++ (readRoute b name).toList

/-- The translation rules that are read. -/
def natPart : Part (List NatRule) where
  area := .nat
  get := (·.nat)
  put rs b name := rs ++ [readNat b name]

/-- The tunnels that are read. -/
def tunnelsPart : Part (List Tunnel) where
  area := .ikeGateways
  get := (·.vpn.tunnels)
  put ts b name := ts ++ [readTunnel b name]

/-- The selectors that are read. -/
def selectorsPart : Part (List Selector) where
  area := .ipsecTunnels
  get := (·.vpn.selectors)
  put ss b name := ss ++ (readSelector b name).toList

/-- The applications that are read. -/
def applicationsPart : Part (List Application) where
  area := .applications
  get := (·.applications)
  put as b name := as ++ [readApplication b name]

/-- The categories of web addresses that are read. -/
def urlCategoriesPart : Part (List UrlCategory) where
  area := .urlCategories
  get := (·.urlCategories)
  put us b name := us ++ [readUrlCategory b name]

/-- **A section to which each entry adds one record holds the records of its entries**, in order. -/
theorem Part.get_read_write_eq_map {α β : Type} (p : Part (List β)) {origin : Dialect}
    {c r : Config} (hc : c.OneLine) (hr : r = read (write origin c)) (entries : List α)
    (node : α → Node) (record : α → β)
    (hentries : areaEntries c p.area = entries.map node) (hnone : p.get {} = [])
    (hjoin : ∀ c is, p.get { c with interfaces := is } = p.get c)
    (htake : ∀ a ∈ entries, ∀ s, p.take s (node a) = s ++ [record a]) :
    p.get r = entries.map record := by
  have hfold : ∀ (as : List α) (s : List β), (∀ a ∈ as, ∀ s, p.take s (node a) = s ++ [record a]) →
      (as.map node).foldl p.take s = s ++ as.map record := by
    intro as
    induction as with
    | nil => exact fun s _ => (List.append_nil s).symm
    | cons a as ih =>
      intro s h
      obtain ⟨ha, has⟩ := List.forall_mem_cons.1 h
      rw [List.map_cons, List.foldl_cons, ha, ih _ has, List.append_assoc]
      rfl
  rw [hr, read, hjoin, p.get_run_write origin hc, hentries, hnone, hfold entries [] htake,
    List.nil_append]

/-- **A section into which each entry puts one record under its name** holds them all where the
names differ. -/
theorem Part.get_run_write_eq_map_of_nodup {α β : Type} (p : Part (List β)) (origin : Dialect)
    {c : Config} (hc : c.OneLine) (key : β → String) (entries : List α) (node : α → Node)
    (record : α → β) (hentries : areaEntries c p.area = entries.map node) (hnone : p.get {} = [])
    (htake : ∀ a ∈ entries, ∀ s, p.take s (node a) = putBy key (record a) s)
    (hnodup : (entries.map (key ∘ record)).Nodup) :
    p.get (Reading.run {} (Text.lines (write origin c))).config = entries.map record := by
  have hfold : ∀ (as : List α) (s : List β),
      (∀ a ∈ as, ∀ s, p.take s (node a) = putBy key (record a) s) →
      (as.map node).foldl p.take s = (as.map record).foldl (fun s b => putBy key b s) s := by
    intro as
    induction as with
    | nil => exact fun s _ => rfl
    | cons a as ih =>
      intro s h
      obtain ⟨ha, has⟩ := List.forall_mem_cons.1 h
      rw [List.map_cons, List.map_cons, List.foldl_cons, List.foldl_cons, ha, ih _ has]
  rw [p.get_run_write origin hc, hentries, hnone, hfold entries [] htake, foldl_putBy_of_nodup key]
  · exact List.nil_append _
  · rwa [List.nil_append, List.map_map]

/-! ## The document -/

/-- The services that are written: the declared ones that have a place, and those that rules spell
out. -/
def writtenServices (c : Config) : List ServiceObject :=
  ((c.services.filter hasPlace).map fun s =>
      { s with protocol := Text.lower s.protocol, port := some (s.port.getD "1-65535") })
    ++ (c.literalServices predefinedService).map fun s =>
      { s with port := some (s.port.getD ""), description := none }

/-- The translation rules that are written, with their positions: those that are no pools and have a
source. -/
def writtenNat (c : Config) : List (NatRule × Nat) :=
  c.nat.zipIdx.filter fun (r, _) => r.kind != .pool && r.source.isSome

theorem serviceEntries_eq (c : Config) : serviceEntries c
    = (writtenServices c).map fun s =>
        serviceNode s.name s.protocol (s.port.getD "") s.description := by
  rw [serviceEntries, writtenServices, List.map_append, List.map_map, List.map_map]
  rfl

theorem natEntries_eq (c : Config) : natEntries c
    = (writtenNat c).map fun (r, position) =>
        natEntry c r (r.source.getD "") (r.label position) := by
  rw [natEntries, natForms, writtenNat]
  induction c.nat.zipIdx with
  | nil => rfl
  | cons rp rs ih =>
    obtain ⟨r, position⟩ := rp
    have hform : (natForm c r position).filterMap Sum.getLeft?
        = if r.kind != .pool && r.source.isSome then
            [natEntry c r (r.source.getD "") (r.label position)] else [] := by
      cases hsource : r.source with
      | none =>
        cases hkind : r.kind <;> simp only [natForm, hkind, hsource]
        · rfl
        · rfl
        · split <;> rfl
      | some source =>
        cases hkind : r.kind <;> simp only [natForm, hkind, hsource]
        · rfl
        · rfl
        · split <;> rfl
    rw [List.flatMap_cons, List.filterMap_append, hform, ih, List.filter_cons]
    split <;> rfl

/-- The protocol of every service that is written is the name of an element. -/
theorem isName_protocol_of_mem_writtenServices {c : Config} (hc : c.OneLine) {s : ServiceObject}
    (hs : s ∈ writtenServices c) : IsName s.protocol ∧ s.protocol ≠ "entry" := by
  have hplaces : ∀ p ∈ serviceProtocols, IsName p ∧ p ≠ "entry" := by decide
  have hprotocols : ∀ p ∈ ServiceRef.protocols, IsName p ∧ p ≠ "entry" := by decide
  rcases List.mem_append.1 hs with hs | hs
  · obtain ⟨o, ho, rfl⟩ := List.mem_map.1 hs
    exact hplaces _ (List.contains_iff_mem.1 (List.mem_filter.1 ho).2)
  · obtain ⟨o, ho, rfl⟩ := List.mem_map.1 hs
    exact hprotocols _ (hc.literalServices predefinedService o ho).2

/-- **The interfaces of a document**, before they are joined with their zones: each is read from its
own entry, if all names differ. -/
theorem interfaces_run_write (origin : Dialect) {c : Config} (hc : c.OneLine)
    (hnodup : (c.interfaces.map (·.name)).Nodup) :
    interfacesPart.get (Reading.run {} (Text.lines (write origin c))).config
      = c.interfaces.map fun i => readInterface (Block.ofLines (interfaceEntry i).lines) i.name := by
  have hput (i : Interface) (s : List Interface) :
      interfacesPart.take s (interfaceEntry i)
        = putBy (·.name) (readInterface (Block.ofLines (interfaceEntry i).lines) i.name) s := by
    have htake : interfacesPart.take s (interfaceEntry i)
        = interfacesPart.put s (Block.ofLines (interfaceEntry i).lines) i.name :=
      interfacesPart.take_entry s i.name _
    rw [htake, put_interfacesPart, readUnits_interfaceEntry, List.foldl_cons, List.foldl_nil]
  have hnames : (·.name) ∘ (fun i : Interface =>
      readInterface (Block.ofLines (interfaceEntry i).lines) i.name) = (·.name) :=
    funext fun i => name_readInterface _ i.name
  exact interfacesPart.get_run_write_eq_map_of_nodup origin hc (·.name) c.interfaces
    interfaceEntry (fun i => readInterface (Block.ofLines (interfaceEntry i).lines) i.name) rfl rfl
    (fun i _ s => hput i s) (by rwa [hnames])

section Sections

variable {origin : Dialect} {c r : Config} (hc : c.OneLine) (hr : r = read (write origin c))
include hc hr

/-- Joining the interfaces with their zones keeps their names. -/
theorem interfaces_of_eq_read_write (hnodup : (c.interfaces.map (·.name)).Nodup) :
    r.interfaces.map (·.name) = c.interfaces.map (·.name) := by
  have hjoined (text : String) : (read text).interfaces.map (·.name)
      = (interfacesPart.get (Reading.run {} (Text.lines text)).config).map (·.name) := by
    rw [read, List.map_map]
    rfl
  rw [hr, hjoined, interfaces_run_write origin hc hnodup, List.map_map]
  exact List.map_congr_left fun i _ => name_readInterface _ i.name

theorem zones_of_eq_read_write : r.zones
    = (writtenZones c).map fun z => { name := z.name, interfaces := z.interfaces } := by
  refine zonesPart.get_read_write_eq_map hc hr (writtenZones c) zoneEntry _ rfl rfl
    (fun _ _ => rfl) fun z _ s => ?_
  refine (zonesPart.take_entry s z.name _).trans ?_
  show s ++ [{ name := z.name, interfaces := (Block.ofLines (zoneEntry z).lines).zoneMembers }] = _
  rw [zoneMembers_zoneEntry]

/-- **The addresses of a document** are read back each from its own entry, if all names differ. -/
theorem addressObjects_eq_of_eq_read_write (hnodup : (c.addressObjects.map (·.name)).Nodup) :
    r.addressObjects = c.addressObjects.map addressReadBack := by
  have hput (o : AddressObject) (s : List AddressObject) :
      addressesPart.take s (addressEntry o) = putBy (·.name) (addressReadBack o) s := by
    refine (addressesPart.take_entry s o.name _).trans ?_
    show (readAddress (Block.ofLines (addressEntry o).lines) o.name).toList.foldl _ s = _
    rw [readAddress_addressEntry]
    rfl
  have hnames : (·.name) ∘ addressReadBack = (·.name) := funext name_addressReadBack
  rw [hr]
  exact addressesPart.get_run_write_eq_map_of_nodup origin hc (·.name) c.addressObjects
    addressEntry addressReadBack rfl rfl (fun o _ s => hput o s) (by rwa [hnames])

theorem addressObjects_of_eq_read_write (hnodup : (c.addressObjects.map (·.name)).Nodup) :
    r.addressObjects.map (·.name) = c.addressObjects.map (·.name) := by
  have hnames : (·.name) ∘ addressReadBack = (·.name) := funext name_addressReadBack
  rw [addressObjects_eq_of_eq_read_write hc hr hnodup, List.map_map, hnames]

theorem addressGroups_of_eq_read_write : r.addressGroups
    = c.addressGroups.map fun g => { g with members := g.members.map Endpoint.normalize } := by
  refine groupsPart.get_read_write_eq_map hc hr c.addressGroups groupEntry _ rfl rfl
    (fun _ _ => rfl) fun g _ s => ?_
  refine (groupsPart.take_entry s g.name _).trans ?_
  exact congrArg (s ++ [·]) (readGroup_groupEntry g)

theorem services_of_eq_read_write : r.services
    = (writtenServices c).map fun s =>
        { s with protocol := protocolReadBack s.protocol, port := some (s.port.getD "") } := by
  refine servicesPart.get_read_write_eq_map hc hr (writtenServices c)
    (fun o => serviceNode o.name o.protocol (o.port.getD "") o.description) _ (serviceEntries_eq c)
    rfl (fun _ _ => rfl) fun o ho s => ?_
  obtain ⟨hname, hentry⟩ := isName_protocol_of_mem_writtenServices hc ho
  exact (servicesPart.take_entry s o.name _).trans (congrArg (s ++ [·])
    (readService_serviceNode o.name hname hentry (o.port.getD "") o.description))

theorem users_of_eq_read_write : r.users.map (fun u => (u.username, u.secret))
    = c.users.map fun u => (u.username, u.secret) := by
  have hread := usersPart.get_read_write_eq_map hc hr c.users userEntry
    (fun u => readUser (Block.ofLines (userEntry u).lines) u.username) rfl rfl (fun _ _ => rfl)
    fun u _ s => usersPart.take_entry s u.username _
  refine (congrArg (List.map _) hread).trans ?_
  rw [List.map_map]
  refine List.map_congr_left fun u _ => ?_
  exact congrArg (Prod.mk u.username) (secret_readUser_userEntry u)

theorem routes_of_eq_read_write : r.routes
    = c.routes.zipIdx.map fun (r, position) => routeReadBack c r position := by
  refine routesPart.get_read_write_eq_map hc hr c.routes.zipIdx
    (fun (r, position) => routeEntry c r position) _ rfl rfl (fun _ _ => rfl)
    fun (r, position) _ s => ?_
  refine (routesPart.take_entry s _ _).trans ?_
  exact congrArg (s ++ ·.toList) (readRoute_routeEntry c r position)

theorem nat_of_eq_read_write : r.nat.map (·.name)
    = (writtenNat c).map fun (r, position) => some (r.label position) := by
  have hread := natPart.get_read_write_eq_map hc hr (writtenNat c)
    (fun (r, position) => natEntry c r (r.source.getD "") (r.label position))
    (fun (r, position) => readNat
      (Block.ofLines (natEntry c r (r.source.getD "") (r.label position)).lines) (r.label position))
    (natEntries_eq c) rfl (fun _ _ => rfl)
    fun (r, position) _ s => natPart.take_entry s (r.label position) _
  refine (congrArg (List.map _) hread).trans ?_
  rw [List.map_map]
  rfl

theorem policies_of_eq_read_write : r.policies.map (·.name)
    = c.effectivePolicies.zipIdx.map fun (p, position) =>
        some (p.labelAmong c.effectivePolicies position) := by
  have hread := policiesPart.get_read_write_eq_map hc hr c.effectivePolicies.zipIdx
    (fun (p, position) => securityEntry c c.effectivePolicies p position)
    (fun (p, position) => ruleReadBack c p position) rfl rfl (fun _ _ => rfl)
    fun (p, position) _ s => (policiesPart.take_entry s _ _).trans
      (congrArg (s ++ [·]) (readPolicy_securityEntry c p position))
  refine (congrArg (List.map _) hread).trans ?_
  rw [List.map_map]
  rfl

theorem tunnels_of_eq_read_write : r.vpn.tunnels.map (·.name)
    = c.vpn.peeredTunnels.map fun (t, _) => t.label := by
  have hread := tunnelsPart.get_read_write_eq_map hc hr c.vpn.peeredTunnels
    (fun (t, peer) => gatewayEntry c t peer)
    (fun (t, peer) => readTunnel (Block.ofLines (gatewayEntry c t peer).lines) t.label) rfl rfl
    (fun _ _ => rfl) fun (t, peer) _ s => tunnelsPart.take_entry s t.label _
  refine (congrArg (List.map _) hread).trans ?_
  rw [List.map_map]
  rfl

theorem selectors_of_eq_read_write :
    r.vpn.selectors.map (fun s => (s.name, s.tunnel))
      = c.vpn.peeredTunnels.map fun (t, _) => (s!"{t.label}-tunnel", t.label) := by
  choose record hrecord hname htunnel using exists_readSelector_tunnelEntry c
  have hread := selectorsPart.get_read_write_eq_map hc hr c.vpn.peeredTunnels.zipIdx
    (fun p => tunnelEntry c p.1.1 p.2) (fun p => record p.1.1 p.2) rfl rfl (fun _ _ => rfl)
    fun p _ s => (selectorsPart.take_entry s _ _).trans
      (congrArg (s ++ ·.toList) (hrecord p.1.1 p.2))
  have hrecords : (fun s : Selector => (s.name, s.tunnel)) ∘
      (fun p : (Tunnel × String) × Nat => record p.1.1 p.2)
        = (fun p : Tunnel × String => (s!"{p.1.label}-tunnel", p.1.label)) ∘ Prod.fst :=
    funext fun p => Prod.ext (hname p.1.1 p.2) (htunnel p.1.1 p.2)
  refine (congrArg (List.map _) hread).trans ?_
  rw [List.map_map, hrecords, ← List.map_map, List.zipIdx_map_fst]

theorem applications_of_eq_read_write : r.applications = c.applications := by
  have hread := applicationsPart.get_read_write_eq_map hc hr c.applications applicationEntry id
    rfl rfl (fun _ _ => rfl) fun a _ s => (applicationsPart.take_entry s a.name _).trans
      (congrArg (s ++ [·]) (readApplication_applicationEntry a))
  exact hread.trans (List.map_id _)

theorem urlCategories_of_eq_read_write : r.urlCategories = c.urlCategories := by
  have hread := urlCategoriesPart.get_read_write_eq_map hc hr c.urlCategories urlCategoryEntry id
    rfl rfl (fun _ _ => rfl) fun u _ s => (urlCategoriesPart.take_entry s u.name _).trans
      (congrArg (s ++ [·]) (readUrlCategory_urlCategoryEntry u))
  exact hread.trans (List.map_id _)

end Sections

/-- What is read has, section by section, what was written. -/
structure KeepsEntries (c read : Config) : Prop where
  interfaces : read.interfaces.map (·.name) = c.interfaces.map (·.name)
  zones : read.zones = (writtenZones c).map fun z => { name := z.name, interfaces := z.interfaces }
  addressObjects : read.addressObjects.map (·.name) = c.addressObjects.map (·.name)
  /-- The members that are spelled out are in their normal form. -/
  addressGroups : read.addressGroups
    = c.addressGroups.map fun g => { g with members := g.members.map Endpoint.normalize }
  /-- The ports of a service are always written. -/
  services : read.services
    = (writtenServices c).map fun s =>
        { s with protocol := protocolReadBack s.protocol, port := some (s.port.getD "") }
  users : read.users.map (fun u => (u.username, u.secret))
    = c.users.map fun u => (u.username, u.secret)
  /-- A route without a name is called by its position. -/
  routes : read.routes.map (·.name)
    = c.routes.zipIdx.map fun (r, position) => some (r.name.getD s!"route-{position + 1}")
  nat : read.nat.map (·.name) = (writtenNat c).map fun (r, position) => some (r.label position)
  policies : read.policies.map (·.name)
    = c.effectivePolicies.zipIdx.map fun (p, position) =>
        some (p.labelAmong c.effectivePolicies position)
  tunnels : read.vpn.tunnels.map (·.name) = c.vpn.peeredTunnels.map fun (t, _) => t.label
  /-- Each tunnel has one selector, which names it. -/
  selectors : read.vpn.selectors.map (fun s => (s.name, s.tunnel))
    = c.vpn.peeredTunnels.map fun (t, _) => (s!"{t.label}-tunnel", t.label)
  applications : read.applications = c.applications
  urlCategories : read.urlCategories = c.urlCategories
  hostname : read.hostname = some (c.hostnameOr "palo-alto-converted")
  domain : read.device.domain = c.device.domain
  timezone : read.device.timezone = c.device.timezone

/-- **No entry of a written document is lost, duplicated or moved to another section**, whatever its
texts hold, if interfaces and address objects have names of their own. -/
theorem keepsEntries_read_write (origin : Dialect) {c : Config} (hc : c.OneLine)
    (hinterfaces : (c.interfaces.map (·.name)).Nodup)
    (haddresses : (c.addressObjects.map (·.name)).Nodup) :
    KeepsEntries c (read (write origin c)) := by
  obtain ⟨hhostname, htimezone, hdomain⟩ := getLast?_settingsOf_deviceEvents c
  generalize hr : read (write origin c) = r
  have hset (p : Setting) := p.get_read_write hc hr.symm
  have hroutes := congrArg (List.map (·.name)) (routes_of_eq_read_write hc hr.symm)
  rw [List.map_map] at hroutes
  exact {
    interfaces := interfaces_of_eq_read_write hc hr.symm hinterfaces
    zones := zones_of_eq_read_write hc hr.symm
    addressObjects := addressObjects_of_eq_read_write hc hr.symm haddresses
    addressGroups := addressGroups_of_eq_read_write hc hr.symm
    services := services_of_eq_read_write hc hr.symm
    users := users_of_eq_read_write hc hr.symm
    routes := hroutes
    nat := nat_of_eq_read_write hc hr.symm
    policies := policies_of_eq_read_write hc hr.symm
    tunnels := tunnels_of_eq_read_write hc hr.symm
    selectors := selectors_of_eq_read_write hc hr.symm
    applications := applications_of_eq_read_write hc hr.symm
    urlCategories := urlCategories_of_eq_read_write hc hr.symm
    hostname := hset hostnameSetting (by decide) rfl (fun _ _ => rfl) |>.trans hhostname
    domain := hset domainSetting (by decide) rfl (fun _ _ => rfl) |>.trans hdomain
    timezone := hset timezoneSetting (by decide) rfl (fun _ _ => rfl) |>.trans htimezone }

/-- A configuration whose names are spelled like the tags of areas and entries. -/
def taggedConfig : Config where
  hostname := some "</devices>"
  interfaces := [{ name := "</ethernet>", ip := some "10.0.0.1", mask := some "255.0.0.0" },
    { name := "<zone>" }]
  addressObjects := [{ name := "</entry>", value := "10.0.0.1" },
    { name := "<entry name=\"x\">", kind := .fqdn, value := "<address>" }]
  addressGroups := [{ name := "</address-group>" }]
  nat := [{ kind := .pool }, { source := some "any" }]
  vpn := { tunnels := [{ name := "<gateway>", peer := some "192.0.2.1" }] }

theorem oneLine_taggedConfig : taggedConfig.OneLine := by
  have hinterfaces : ∀ i ∈ taggedConfig.interfaces, i.OneLine :=
    List.forall_mem_cons.2 ⟨{ name := by decide },
      List.forall_mem_singleton.2 { name := by decide }⟩
  have haddresses : ∀ o ∈ taggedConfig.addressObjects, o.OneLine :=
    List.forall_mem_cons.2 ⟨{ name := by decide, value := by decide },
      List.forall_mem_singleton.2 { name := by decide, value := by decide }⟩
  have hnat : ∀ r ∈ taggedConfig.nat, r.OneLine :=
    List.forall_mem_cons.2 ⟨{}, List.forall_mem_singleton.2 {}⟩
  exact {
    interfaces := hinterfaces
    addressObjects := haddresses
    addressGroups := List.forall_mem_singleton.2 { name := by decide }
    nat := hnat
    vpn := { tunnels := List.forall_mem_singleton.2 { name := by decide } } }

theorem keepsEntries_read_write_taggedConfig : taggedConfig.OneLine
    ∧ (taggedConfig.interfaces.map (·.name)).Nodup
    ∧ (taggedConfig.addressObjects.map (·.name)).Nodup
    ∧ KeepsEntries taggedConfig (read (write .fortiGate taggedConfig)) :=
  ⟨oneLine_taggedConfig, by decide, by decide,
    keepsEntries_read_write .fortiGate oneLine_taggedConfig (by decide) (by decide)⟩

end FirewallConfig.PanOs
