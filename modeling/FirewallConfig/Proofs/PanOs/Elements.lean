import FirewallConfig.PanOs.Writer
import FirewallConfig.Proofs.Config.OneLine
import FirewallConfig.Proofs.PanOs.Scan

/-!
# Proofs/PanOs/Elements — everything written is an element

Every entry of a document has a name and is made of elements, whatever the configuration, as long as
its texts hold no line feed.  The statements follow the writer function by function.
-/

namespace FirewallConfig.PanOs

open Xml (Node IsName)

/-! ## The shapes -/

section Shapes

variable {tag : String} (htag : IsName tag ∧ tag ≠ "entry")
include htag

theorem element_leaf {text : String} (h : Text.OneLine text) : Element (.leaf tag text) :=
  .leaf htag.1 htag.2 h

theorem elements_leaf? {text : Option String} (h : ∀ s ∈ text, Text.OneLine s) :
    ∀ n ∈ leaf? tag text, Element n := by
  intro n hn
  obtain ⟨s, hs, rfl⟩ := List.mem_map.1 hn
  exact element_leaf htag (h s (Option.mem_toList.1 hs))

theorem element_branch {children : List Node} (h : ∀ n ∈ children, Element n) :
    Element (.branch tag children) := .branch htag.1 htag.2 h

theorem elements_branch? {children : List Node} (h : ∀ n ∈ children, Element n) :
    ∀ n ∈ branch? tag children, Element n := by
  rw [branch?]
  split
  · exact nofun
  · intro n hn
    rw [List.mem_singleton.1 hn]
    exact element_branch htag h

theorem element_memberList {members : List String} (h : ∀ s ∈ members, Text.OneLine s) :
    Element (memberList tag members) := by
  refine element_branch htag fun n hn => ?_
  obtain ⟨s, hs, rfl⟩ := List.mem_map.1 hn
  exact element_leaf (by decide) (h s hs)

end Shapes

theorem element_nested {tag : String} {tags : List String} {children : List Node}
    (htags : ∀ t ∈ tag :: tags, IsName t ∧ t ≠ "entry") (h : ∀ n ∈ children, Element n) :
    Element (nested tag tags children) := by
  induction tags generalizing tag with
  | nil => exact element_branch (htags tag List.mem_cons_self) h
  | cons next rest ih =>
    refine element_branch (htags tag List.mem_cons_self) fun n hn => ?_
    rw [List.mem_singleton.1 hn]
    exact ih fun t ht => htags t (List.mem_cons_of_mem _ ht)

theorem isEntry_entry {name : String} {children : List Node} (hname : Text.OneLine name)
    (h : ∀ n ∈ children, Element n) : IsEntry (entry name children) :=
  ⟨name, children, hname, h, rfl⟩

/-! ## Interfaces, routes and tunnels -/

theorem isEntry_interfaceEntry {i : Interface} (hi : i.OneLine) : IsEntry (interfaceEntry i) := by
  refine isEntry_entry hi.name (List.forall_mem_cons.2 ⟨?_, ?_⟩)
  · refine element_branch (by decide) (List.forall_mem_append.2 ⟨fun n hn => ?_, ?_⟩)
    · obtain ⟨⟨ip, mask⟩, haddress, rfl⟩ := List.mem_map.1 hn
      have hip := (hi.address? (Option.mem_toList.1 haddress)).1
      exact element_branch (by decide)
        (List.forall_mem_singleton.2 (isEntry_entry (Network.oneLine_cidr hip) (List.forall_mem_nil _)).element)
    · refine elements_leaf? (by decide) fun s hs => ?_
      obtain ⟨v, -, rfl⟩ := Option.map_eq_some_iff.1 hs
      simp
  · refine List.forall_mem_append.2 ⟨?_, elements_leaf? (by decide) fun s hs => ?_⟩
    · split
      · exact nofun
      · exact List.forall_mem_singleton.2 (element_leaf (by decide) (by decide))
    · rcases Option.or_eq_some_iff.1 hs with h | ⟨-, h⟩
      · exact hi.nickname s h
      · exact hi.comment s h

theorem oneLine_selectorNetwork {text : Option String} (h : ∀ s ∈ text, Text.OneLine s) :
    Text.OneLine (selectorNetwork text) := by
  rw [selectorNetwork]
  cases hread : text.bind Network.read? with
  | none => exact (by decide : Text.OneLine "0.0.0.0/0")
  | some n =>
    obtain ⟨s, hs, hn⟩ := Option.bind_eq_some_iff.1 hread
    exact Network.oneLine_cidr (Network.oneLine_of_read? (h s hs) hn).1

theorem isEntry_selectorEntry {s : Selector} (hs : s.OneLine) : IsEntry (selectorEntry s) :=
  isEntry_entry hs.name (List.forall_mem_cons.2
    ⟨element_leaf (by decide) (oneLine_selectorNetwork hs.source),
      List.forall_mem_singleton.2 (element_leaf (by decide) (oneLine_selectorNetwork hs.destination))⟩)

section Device

variable {c : Config} (hc : c.OneLine)
include hc

theorem isEntry_routeEntry {r : Route} (hr : r.OneLine) (position : Nat) :
    IsEntry (routeEntry c r position) := by
  have hname : Text.OneLine (r.name.getD s!"route-{position + 1}") :=
    Text.oneLine_getD hr.name (Text.oneLine_append.2 ⟨by decide, by simp⟩)
  refine isEntry_entry hname ?_
  rw [List.forall_mem_append, List.forall_mem_append, List.forall_mem_cons]
  refine ⟨⟨⟨?_, fun n hn => ?_⟩, elements_leaf? (by decide) fun s hs => ?_⟩,
    elements_leaf? (by decide) fun s hs => ?_⟩
  · exact element_leaf (by decide) (Network.oneLine_cidr hr.network)
  · obtain ⟨gateway, hgateway, rfl⟩ := List.mem_map.1 hn
    exact element_branch (by decide) (List.forall_mem_singleton.2
      (element_leaf (by decide) (hr.gateway gateway (Option.mem_toList.1 hgateway))))
  · obtain ⟨i, hi, rfl⟩ := Option.map_eq_some_iff.1 hs
    exact hc.deviceName (hr.interface i hi)
  · obtain ⟨d, -, rfl⟩ := Option.map_eq_some_iff.1 hs
    simp

theorem isEntry_gatewayEntry {t : Tunnel} (ht : t.OneLine) {peer : String}
    (hpeer : Text.OneLine peer) : IsEntry (gatewayEntry c t peer) := by
  refine isEntry_entry (ht.label) ?_
  rw [List.forall_mem_append, List.forall_mem_append, List.forall_mem_append]
  refine ⟨⟨⟨fun n hn => ?_, ?_⟩, fun n hn => ?_⟩, ?_⟩
  · obtain ⟨key, hkey, rfl⟩ := List.mem_map.1 hn
    have hkey := (Option.filter_eq_some_iff.1 (Option.mem_toList.1 hkey)).1
    exact element_nested (by decide)
      (List.forall_mem_singleton.2 (element_leaf (by decide) (ht.preSharedKey key hkey)))
  · exact List.forall_mem_singleton.2 (element_nested (by decide)
      (List.forall_mem_singleton.2 (element_leaf (by decide) (by decide))))
  · obtain ⟨i, hi, rfl⟩ := List.mem_map.1 hn
    obtain ⟨reference, -, hi⟩ := Option.bind_eq_some_iff.1 (Option.mem_toList.1 hi)
    exact element_branch (by decide)
      (List.forall_mem_singleton.2 (element_leaf (by decide) (hc.findInterface? hi).name))
  · exact List.forall_mem_singleton.2
      (element_branch (by decide) (List.forall_mem_singleton.2 (element_leaf (by decide) hpeer)))

theorem isEntry_tunnelEntry {t : Tunnel} (ht : t.OneLine) (position : Nat) :
    IsEntry (tunnelEntry c t position) := by
  have hlabel := ht.label
  have hname : Text.OneLine s!"{t.label}-tunnel" := by
    simp only [Text.oneLine_append, Text.toString_text]
    exact ⟨hlabel, by decide⟩
  have hunit : Text.OneLine s!"tunnel.{position + 1}" := Text.oneLine_append.2 ⟨by decide, by simp⟩
  refine isEntry_entry hname (List.forall_mem_cons.2
    ⟨element_branch (by decide) (List.forall_mem_append.2 ⟨?_, ?_⟩),
      List.forall_mem_singleton.2 (element_leaf (by decide) hunit)⟩)
  · rw [List.forall_mem_cons]
    refine ⟨element_branch (by decide) (List.forall_mem_singleton.2
      (isEntry_entry hlabel (List.forall_mem_nil _)).element), ?_⟩
    exact List.forall_mem_singleton.2 (element_leaf (by decide) (by decide))
  · refine elements_branch? (by decide) fun n hn => ?_
    obtain ⟨s, hs, rfl⟩ := List.mem_map.1 hn
    exact (isEntry_selectorEntry (hc.vpn.selectors s (List.mem_filter.1 hs).1)).element

theorem isEntry_routes : ∀ n ∈ c.routes.zipIdx.map fun (r, position) => routeEntry c r position,
    IsEntry n := by
  intro n hn
  obtain ⟨⟨r, position⟩, hr, rfl⟩ := List.mem_map.1 hn
  exact isEntry_routeEntry hc (hc.routes r (List.fst_mem_of_mem_zipIdx hr)) position

end Device

/-! ## Services and rules -/

theorem isEntry_serviceEntry {o : ServiceObject} (ho : o.OneLine) (hplace : hasPlace o = true) :
    IsEntry (serviceEntry o) := by
  have hnames : ∀ p ∈ serviceProtocols, ∀ t ∈ ["protocol", p], IsName t ∧ t ≠ "entry" := by decide
  refine isEntry_entry ho.name (List.forall_mem_cons.2
    ⟨element_nested (hnames _ (List.contains_iff_mem.1 hplace)) (List.forall_mem_singleton.2
      (element_leaf (by decide) (Text.oneLine_getD ho.port (by decide)))),
      elements_leaf? (by decide) ho.description⟩)

theorem oneLine_serviceName {r : ServiceRef} (hr : r.OneLine) : Text.OneLine (serviceName r) := by
  cases r with
  | any | protocol _ => exact Text.oneLine_anyText
  | named name => exact hr name List.mem_cons_self
  | port protocol ports =>
    have hpredefined {name : String} (h : predefinedService protocol ports = some name) :
        Text.OneLine name := by
      unfold predefinedService at h
      split at h <;> cases h <;> decide
    rw [serviceName]
    cases h : predefinedService protocol ports with
    | some name => exact hpredefined h
    | none =>
      exact oneLine_literalName (hr protocol List.mem_cons_self)
        (hr ports (List.mem_cons_of_mem _ List.mem_cons_self))

section Rules

variable {c : Config} (hc : c.OneLine)
include hc

theorem oneLine_of_mem_writtenZones {z : Zone} (hz : z ∈ writtenZones c) : z.OneLine := by
  rw [writtenZones] at hz
  split at hz
  · exact hc.zones z hz
  · split at hz
    · cases hz
    · obtain ⟨fallback, -, rfl⟩ := List.mem_map.1 hz
      have hname : Text.OneLine fallback.name := by cases fallback <;> decide
      refine { name := hname, interfaces := fun s hs => ?_ }
      obtain ⟨i, hi, rfl⟩ := List.mem_map.1 hs
      exact (hc.interfaces i (List.mem_filter.1 hi).1).name

theorem oneLine_zoneName {reference : Option String} (h : ∀ s ∈ reference, Text.OneLine s) :
    Text.OneLine (zoneName c reference) := by
  cases reference with
  | none => exact Text.oneLine_anyText
  | some reference =>
    rw [zoneName]
    split
    · exact h reference rfl
    · cases hzone : ((c.findInterface? reference).bind fun i =>
          (writtenZones c).find? fun z => z.interfaces.contains i.name) with
      | none => exact Text.oneLine_anyText
      | some z =>
        obtain ⟨i, -, hz⟩ := Option.bind_eq_some_iff.1 hzone
        exact (oneLine_of_mem_writtenZones hc (List.mem_of_find?_eq_some hz)).name

theorem isEntry_literalService {o : ServiceObject} (ho : o ∈ c.literalServices predefinedService) :
    IsEntry (entry o.name [protocolElement o.protocol (o.port.getD "")]) := by
  obtain ⟨hone, hprotocol⟩ := hc.literalServices predefinedService o ho
  have hnames : ∀ p ∈ ServiceRef.protocols, ∀ t ∈ ["protocol", p], IsName t ∧ t ≠ "entry" := by
    decide
  have hport : Text.OneLine (o.port.getD "") := Text.oneLine_getD hone.port (by decide)
  have hleaf : ∀ n ∈ [Node.leaf "port" (o.port.getD "")], Element n :=
    List.forall_mem_singleton.2 (element_leaf (by decide) hport)
  exact isEntry_entry hone.name (List.forall_mem_singleton.2
    (element_nested (hnames o.protocol hprotocol) hleaf))

theorem isEntry_securityEntry (rules : List Policy) {p : Policy} (hp : p.OneLine)
    (position : Nat) : IsEntry (securityEntry c rules p position) := by
  have hnormal {texts : List String} (h : ∀ s ∈ texts, Text.OneLine s) :
      ∀ s ∈ (orAny texts).map Endpoint.normalize, Text.OneLine s := by
    intro s hs
    obtain ⟨t, ht, rfl⟩ := List.mem_map.1 hs
    exact Endpoint.oneLine_normalize (Text.oneLine_orAny h t ht)
  have hservices : ∀ s ∈ ruleServices c p, Text.OneLine s := by
    intro s hs
    obtain ⟨t, ht, rfl⟩ := List.mem_map.1 (List.mem_eraseDups.1 hs)
    exact oneLine_serviceName (c.oneLine_resolveService (Text.oneLine_orAny hp.service t ht))
  have happlications : ∀ s ∈ ruleApplications p, Text.OneLine s := by
    refine Text.oneLine_orAny fun s hs => ?_
    split at hs
    · rcases List.mem_append.1 hs with hs | hs
      · exact hp.application s hs
      · rw [List.mem_singleton.1 hs]
        decide
    · exact hp.application s hs
  have hzone {z : Option String} (h : ∀ s ∈ z, Text.OneLine s) :
      ∀ s ∈ [zoneName c z], Text.OneLine s := by
    intro s hs
    rw [List.mem_singleton.1 hs]
    exact oneLine_zoneName hc h
  refine isEntry_entry (hp.labelAmong rules position) ?_
  simp only [List.forall_mem_append, List.forall_mem_cons]
  refine ⟨⟨⟨⟨?_, ?_, ?_, ?_, ?_, ?_, ?_, List.forall_mem_nil _⟩, ?_⟩, ?_⟩, ?_⟩
  · exact element_memberList (by decide) (hzone hp.sourceZone)
  · exact element_memberList (by decide) (hzone hp.destinationZone)
  · exact element_memberList (by decide) (hnormal hp.source)
  · exact element_memberList (by decide) (hnormal hp.destination)
  · exact element_memberList (by decide) hservices
  · exact element_memberList (by decide) happlications
  · exact element_leaf (by decide) (by split <;> decide)
  · split
    · exact List.forall_mem_singleton.2 (element_leaf (by decide) (by decide))
    · exact List.forall_mem_nil _
  · split
    · exact List.forall_mem_nil _
    · exact List.forall_mem_singleton.2 (element_leaf (by decide) (by decide))
  · exact elements_leaf? (by decide) hp.description

theorem isEntry_natEntry {r : NatRule} (hr : r.OneLine) {source label : String}
    (hsource : Text.OneLine source) (hlabel : Text.OneLine label) :
    IsEntry (natEntry c r source label) := by
  have hdestination := Text.oneLine_getD hr.destination Text.oneLine_anyText
  have htranslated : Text.OneLine ((r.translated.or (c.pairedPool? r)).getD "interface") := by
    cases h : r.translated.or (c.pairedPool? r) with
    | none => exact (by decide : Text.OneLine "interface")
    | some s =>
      rcases Option.or_eq_some_iff.1 h with h | ⟨-, h⟩
      · exact hr.translated s h
      · rw [Config.pairedPool?] at h
        split at h
        · cases h
        · obtain ⟨pool, hpool, h⟩ := Option.bind_eq_some_iff.1 h
          exact (hc.nat pool (List.mem_of_find?_eq_some hpool)).translated s h
  refine isEntry_entry hlabel ?_
  simp only [List.forall_mem_append, List.forall_mem_cons]
  refine ⟨⟨?_, ?_, ?_, ?_, ?_, ?_, List.forall_mem_nil _⟩, ?_⟩
  · exact element_memberList (by decide) (List.forall_mem_singleton.2 (oneLine_zoneName hc hr.sourceInterface))
  · exact element_memberList (by decide) (List.forall_mem_singleton.2 (oneLine_zoneName hc hr.interface))
  · exact element_memberList (by decide) (List.forall_mem_singleton.2 (Endpoint.oneLine_normalize hsource))
  · exact element_memberList (by decide) (List.forall_mem_singleton.2 (Endpoint.oneLine_normalize hdestination))
  · exact element_leaf (by decide) (by decide)
  · refine element_branch (by decide) (List.forall_mem_singleton.2 ?_)
    have hstatic : Element (.branch "static-ip"
        [.leaf "translated-address" ((r.translated.or (c.pairedPool? r)).getD "interface"),
          .leaf "bi-directional" "yes"]) :=
      element_branch (by decide) (List.forall_mem_cons.2 ⟨element_leaf (by decide) htranslated,
        List.forall_mem_singleton.2 (element_leaf (by decide) (by decide))⟩)
    have hpool : Element (.branch "dynamic-ip-and-port"
        [if (r.translated.or (c.pairedPool? r)).getD "interface" == "interface" then
          .branch "interface-address"
            (leaf? "interface" ((r.interface.bind c.findInterface?).map (·.name)))
        else memberList "translated-address"
          [(r.translated.or (c.pairedPool? r)).getD "interface"]]) := by
      refine element_branch (by decide) (List.forall_mem_singleton.2 ?_)
      split
      · refine element_branch (by decide) (elements_leaf? (by decide) fun s hs => ?_)
        obtain ⟨i, hi, rfl⟩ := Option.map_eq_some_iff.1 hs
        obtain ⟨reference, -, hi⟩ := Option.bind_eq_some_iff.1 hi
        exact (hc.findInterface? hi).name
      · exact element_memberList (by decide) (List.forall_mem_singleton.2 htranslated)
    rw [translationElement]
    split
    · exact hstatic
    · exact hpool
    · exact hpool
  · exact elements_leaf? (by decide) hr.description

end Rules

/-! ## Objects -/

theorem isEntry_addressEntry {o : AddressObject} (ho : o.OneLine) : IsEntry (addressEntry o) := by
  have hcidr : Text.OneLine o.cidr := by
    rw [AddressObject.cidr]
    split
    · exact Network.oneLine_cidr ho.value
    · exact Text.oneLine_append.2 ⟨ho.value, by decide⟩
    · exact ho.value
  refine isEntry_entry ho.name (List.forall_mem_cons.2
    ⟨?_, elements_leaf? (by decide) ho.description⟩)
  cases o.kind with
  | host => exact element_leaf (by decide) ho.value
  | subnet => exact element_leaf (by decide) hcidr
  | range => exact element_leaf (by decide) ho.value
  | fqdn => exact element_leaf (by decide) ho.value

theorem isEntry_groupEntry {g : AddressGroup} (hg : g.OneLine) : IsEntry (groupEntry g) := by
  refine isEntry_entry hg.name (List.forall_mem_cons.2
    ⟨element_memberList (by decide) fun s hs => ?_, elements_leaf? (by decide) hg.description⟩)
  obtain ⟨m, hm, rfl⟩ := List.mem_map.1 hs
  exact Endpoint.oneLine_normalize (hg.members m hm)

theorem isEntry_zoneEntry {z : Zone} (hz : z.OneLine) : IsEntry (zoneEntry z) :=
  isEntry_entry hz.name (List.forall_mem_singleton.2 (element_branch (by decide)
    (List.forall_mem_singleton.2 (element_memberList (by decide) hz.interfaces))))

theorem isEntry_applicationEntry {a : Application} (ha : a.OneLine) :
    IsEntry (applicationEntry a) :=
  isEntry_entry ha.name (List.forall_mem_append.2
    ⟨elements_leaf? (by decide) ha.category, elements_leaf? (by decide) ha.description⟩)

theorem isEntry_urlCategoryEntry {u : UrlCategory} (hu : u.OneLine) :
    IsEntry (urlCategoryEntry u) := by
  refine isEntry_entry hu.name ?_
  simp only [List.forall_mem_cons]
  exact ⟨element_memberList (by decide) hu.urls, element_leaf (by decide) (by decide),
    elements_leaf? (by decide) hu.description⟩

/-! ## Accounts and servers -/

/-- The role of an account is one that the product knows. -/
theorem writtenRole_mem (u : User) : writtenRole u ∈ "superuser" :: "superreader" :: roles := by
  rw [writtenRole]
  split
  · next role h =>
    have hrole := List.contains_iff_mem.1 (Option.filter_eq_some_iff.1 h).2
    exact List.mem_cons_of_mem _ (List.mem_cons_of_mem _ hrole)
  · split <;> decide

theorem isEntry_userEntry {u : User} (hu : u.OneLine) : IsEntry (userEntry u) := by
  have hroles : ∀ r ∈ "superuser" :: "superreader" :: roles, IsName r ∧ r ≠ "entry" := by decide
  exact isEntry_entry hu.username (List.forall_mem_append.2
    ⟨elements_leaf? (by decide) hu.secret, List.forall_mem_singleton.2 (element_nested (by decide)
      (List.forall_mem_singleton.2 (element_leaf (hroles _ (writtenRole_mem u)) (by decide))))⟩)

end FirewallConfig.PanOs
