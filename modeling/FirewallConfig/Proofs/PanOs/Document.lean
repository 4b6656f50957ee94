import FirewallConfig.Proofs.PanOs.Elements
import FirewallConfig.Proofs.Xml.Comment

/-!
# Proofs/PanOs/Document — what a scan of a written document comes to

`documentEvents` lists the entries of a document area by area, with the settings that stand outside
of all areas between them.  `run_document` says that a scan of the written text does these events and
no others: neither the comment at the head nor any text in the document is taken for an element.
-/

namespace FirewallConfig.PanOs

open Xml (Node IsName)

/-! ## Events -/

/-- The events of an element that holds a text, if there is one. -/
def settings (tag : String) (text : Option String) : List Event :=
  text.toList.map (Event.setting tag)

/-- The events of the device. -/
def deviceEvents (c : Config) : List Event :=
  .setting "hostname" (c.hostnameOr "palo-alto-converted")
    :: settings "domain" c.device.domain
    ++ settings "timezone" c.device.timezone
    ++ settings "snmp-community-string" (c.management.snmp.head?.map (·.community))

/-- The events of a server that speaks LDAP. -/
def ldapEvents (s : AaaServer) : List Event :=
  (s.host.toList.flatMap fun host => [.setting "address" host, .setting "port" s.port])
    ++ settings "base" s.baseDn

/-- The events of servers. -/
def sharedEvents (c : Config) : List Event :=
  (c.aaaServers.filter (·.isLdap)).flatMap ldapEvents
    ++ (c.management.logging.filterMap (·.host)).map (Event.setting "server")

/-- The entries of routes. -/
def routeEntries (c : Config) : List Node :=
  c.routes.zipIdx.map fun (r, position) => routeEntry c r position

/-- The events of interfaces, routes and tunnels. -/
def networkEvents (c : Config) : List Event :=
  let tunnels := c.vpn.peeredTunnels
  (c.interfaces.map interfaceEntry).map (.entry .interfaces)
    ++ (if (routeEntries c).isEmpty then []
      else c.interfaces.map (fun i => Event.setting "member" i.name)
        ++ (routeEntries c).map (.entry .routes))
    ++ (tunnels.map fun (t, peer) => gatewayEntry c t peer).map (.entry .ikeGateways)
    ++ (tunnels.zipIdx.map fun ((t, _), position) => tunnelEntry c t position).map
      (.entry .ipsecTunnels)

/-- The events of objects and rules. -/
def systemEvents (c : Config) : List Event :=
  ((writtenZones c).map zoneEntry).map (.entry .zones)
    ++ (c.addressObjects.map addressEntry).map (.entry .addresses)
    ++ (c.addressGroups.map groupEntry).map (.entry .addressGroups)
    ++ (serviceEntries c).map (.entry .services)
    ++ (c.applications.map applicationEntry).map (.entry .applications)
    ++ (c.urlCategories.map urlCategoryEntry).map (.entry .urlCategories)
    ++ ((securityEntries c).map (.entry .security) ++ (natEntries c).map (.entry .nat))

/-- The events of a document. -/
def documentEvents (c : Config) : List Event :=
  (c.users.map userEntry).map (.entry .admins)
    ++ sharedEvents c
    ++ (deviceEvents c ++ networkEvents c ++ systemEvents c)

/-! ## The shapes -/

/-- The tag is a name, and neither that of an entry nor that of an area. -/
def IsPlain (tag : String) : Prop := IsName tag ∧ tag ≠ "entry" ∧ Area.ofTag? tag = none

instance (tag : String) : Decidable (IsPlain tag) := inferInstanceAs (Decidable (_ ∧ _ ∧ _))

theorem Scans.cons {area : Option Area} {n : Node} {ns : List Node} {es fs : List Event}
    (hn : Scans area [n] es) (hns : Scans area ns fs) : Scans area (n :: ns) (es ++ fs) :=
  hn.append hns

theorem Scans.flatMap {α : Type} {area : Option Area} {f : α → Node} {e : α → List Event}
    {as : List α} (h : ∀ a ∈ as, Scans area [f a] (e a)) :
    Scans area (as.map f) (as.flatMap e) := by
  induction as with
  | nil => exact .nil area
  | cons a as ih =>
    exact (h a List.mem_cons_self).cons (ih fun b hb => h b (List.mem_cons_of_mem _ hb))

/-- Entries of an area. -/
theorem Scans.entries (a : Area) {ns : List Node} (h : ∀ n ∈ ns, IsEntry n) :
    Scans (some a) ns (ns.map (.entry a)) := by
  induction ns with
  | nil => exact .nil _
  | cons n ns ih =>
    exact Scans.cons (.entry a (h n List.mem_cons_self))
      (ih fun m hm => h m (List.mem_cons_of_mem _ hm))

theorem Scans.area? (a : Area) {ns : List Node} {es : List Event} (h : Scans (some a) ns es) :
    Scans none (branch? a.tag ns) es := by
  rw [branch?]
  split
  · next hempty =>
    rw [h.eq_nil (List.isEmpty_iff.1 hempty)]
    exact .nil _
  · exact .area a h

theorem Scans.branch? {area : Option Area} {tag : String} {ns : List Node} {es : List Event}
    (htag : IsPlain tag) (h : Scans area ns es) : Scans area (PanOs.branch? tag ns) es := by
  rw [PanOs.branch?]
  split
  · next hempty =>
    rw [h.eq_nil (List.isEmpty_iff.1 hempty)]
    exact .nil _
  · exact .branch htag.1 htag.2.1 htag.2.2 h

theorem Scans.nested {area : Option Area} {tag : String} {tags : List String} {ns : List Node}
    {es : List Event} (htags : ∀ t ∈ tag :: tags, IsPlain t) (h : Scans area ns es) :
    Scans area [nested tag tags ns] es := by
  induction tags generalizing tag with
  | nil =>
    obtain ⟨hname, hentry, harea⟩ := htags tag List.mem_cons_self
    exact .branch hname hentry harea h
  | cons next rest ih =>
    obtain ⟨hname, hentry, harea⟩ := htags tag List.mem_cons_self
    exact .branch hname hentry harea (ih fun t ht => htags t (List.mem_cons_of_mem _ ht))

theorem Scans.leaf {tag text : String} (htag : IsName tag ∧ tag ≠ "entry")
    (h : Text.OneLine text) : Scans none [.leaf tag text] [.setting tag text] :=
  .setting htag.1 htag.2 h

theorem Scans.leaf? {tag : String} {text : Option String} (htag : IsName tag ∧ tag ≠ "entry")
    (h : ∀ s ∈ text, Text.OneLine s) : Scans none (leaf? tag text) (settings tag text) := by
  cases text with
  | none => exact .nil _
  | some s => exact Scans.leaf htag (h s rfl)

/-! ## The parts of the document -/

theorem oneLine_accessNotes {command : String} (hcommand : Text.OneLine command)
    {settings : List AccessSetting} (h : ∀ s ∈ settings, s.OneLine) :
    ∀ n ∈ accessNotes command settings, Text.OneLine n := by
  intro n hn
  obtain ⟨s, hs, hn⟩ := List.mem_filterMap.1 hn
  have hs := h s hs
  cases s with
  | allow _ _ _ => cases hn
  | option key value =>
    cases hn
    refine Text.OneLine.trimEnd ?_
    simp only [Text.oneLine_append, Text.toString_text]
    exact ⟨⟨⟨⟨hcommand, by decide⟩, hs.1⟩, by decide⟩, hs.2⟩

section Parts

variable {c : Config} (hc : c.OneLine)
include hc

theorem scans_device : Scans none [deviceElement c] (deviceEvents c) := by
  have hhostname : Text.OneLine (c.hostnameOr "palo-alto-converted") := hc.hostnameOr (by decide)
  have hsnmp : Scans none (c.management.snmp.head?.toList.map snmpElement)
      (settings "snmp-community-string" (c.management.snmp.head?.map (·.community))) := by
    cases h : c.management.snmp.head? with
    | none => exact .nil _
    | some s =>
      have hs := hc.management.snmp s (List.mem_of_mem_head? h)
      exact Scans.nested (by decide) (Scans.leaf (by decide) hs.community)
  have hnetworks (ns : List String) (h : ∀ n ∈ ns, Text.OneLine n) :
      Scans none (ns.map fun n => entry n []) [] := by
    induction ns with
    | nil => exact .nil _
    | cons n ns ih =>
      exact Scans.cons (.plain (h n List.mem_cons_self) (.nil _))
        (ih fun m hm => h m (List.mem_cons_of_mem _ hm))
  have hpermitted : ∀ n ∈ permittedNetworks c.management, Text.OneLine n := by
    intro n hn
    obtain ⟨s, hs, hn⟩ := List.mem_filterMap.1 (List.mem_eraseDups.1 hn)
    have hs : s.OneLine := by
      rcases List.mem_append.1 hs with hs | hs
      · exact hc.management.ssh s hs
      · exact hc.management.http s hs
    cases s with
    | allow address mask _ =>
      cases hn
      exact Network.oneLine_cidr hs.1
    | option _ _ => cases hn
  rw [← List.append_nil (deviceEvents c)]
  refine Scans.nested (by decide) (Scans.append (Scans.append (Scans.append ?_ ?_) hsnmp) ?_)
  · exact Scans.cons (Scans.leaf (by decide) hhostname) (Scans.leaf? (by decide) hc.device.domain)
  · exact Scans.leaf? (by decide) hc.device.timezone
  · exact Scans.branch? (by decide) (hnetworks _ hpermitted)

theorem scans_shared : Scans none (sharedElements c) (sharedEvents c) := by
  have hldap : ∀ s ∈ c.aaaServers.filter (·.isLdap), Scans none [ldapEntry s] (ldapEvents s) := by
    intro s hs
    have hs := hc.aaaServers s (List.mem_filter.1 hs).1
    refine .plain hs.name (Scans.append ?_ (Scans.leaf? (by decide) hs.baseDn))
    refine Scans.flatMap fun host hhost => ?_
    have hhost := hs.host host (Option.mem_toList.1 hhost)
    exact .branch (by decide) (by decide) (by decide) (.plain hhost
      (Scans.cons (Scans.leaf (by decide) hhost) (Scans.leaf (by decide) hs.port)))
  have hhosts : ∀ h ∈ c.management.logging.filterMap (·.host), Text.OneLine h := by
    intro h hh
    obtain ⟨t, ht, hh⟩ := List.mem_filterMap.1 hh
    exact (hc.management.logging t ht).host h hh
  have hsyslog : ∀ hosts : List String, (∀ h ∈ hosts, Text.OneLine h) →
      Scans none (hosts.map syslogEntry) (hosts.map (Event.setting "server")) := by
    intro hosts h
    rw [List.map_eq_flatMap (f := Event.setting "server")]
    exact Scans.flatMap fun host hhost =>
      .plain (h host hhost) (Scans.leaf (by decide) (h host hhost))
  refine Scans.append (Scans.branch? (by decide) (Scans.branch? (by decide)
    (Scans.flatMap hldap))) ?_
  split
  · next hempty =>
    rw [List.isEmpty_iff.1 hempty]
    exact .nil _
  · exact Scans.nested (by decide) (.plain (by decide)
      (.branch (by decide) (by decide) (by decide) (hsyslog _ hhosts)))

theorem scans_network : Scans none (networkElements c) (networkEvents c) := by
  have hinterfaces : ∀ n ∈ c.interfaces.map interfaceEntry, IsEntry n := by
    intro n hn
    obtain ⟨i, hi, rfl⟩ := List.mem_map.1 hn
    exact isEntry_interfaceEntry (hc.interfaces i hi)
  have hgateways : ∀ n ∈ c.vpn.peeredTunnels.map fun (t, peer) => gatewayEntry c t peer,
      IsEntry n := by
    intro n hn
    obtain ⟨⟨t, peer⟩, htp, rfl⟩ := List.mem_map.1 hn
    obtain ⟨ht, hpeer⟩ := hc.peeredTunnels htp
    exact isEntry_gatewayEntry hc ht hpeer
  have htunnels : ∀ n ∈ c.vpn.peeredTunnels.zipIdx.map fun ((t, _), position) =>
      tunnelEntry c t position, IsEntry n := by
    intro n hn
    obtain ⟨⟨⟨t, peer⟩, position⟩, htp, rfl⟩ := List.mem_map.1 hn
    exact isEntry_tunnelEntry hc (hc.peeredTunnels (List.fst_mem_of_mem_zipIdx htp)).1 position
  have hmembers (is : List Interface) (h : ∀ i ∈ is, i.OneLine) :
      Scans none ((is.map (·.name)).map (Node.leaf "member"))
        (is.map fun i => Event.setting "member" i.name) := by
    rw [List.map_map, List.map_eq_flatMap (f := fun i : Interface => Event.setting "member" i.name)]
    exact Scans.flatMap fun i hi => Scans.leaf (by decide) (h i hi).name
  refine Scans.append (Scans.append (Scans.append ?_ ?_) ?_) ?_
  · exact Scans.branch? (by decide) (Scans.area? .interfaces (Scans.entries _ hinterfaces))
  · show Scans none (if (routeEntries c).isEmpty then _ else _) _
    split
    · exact .nil _
    · refine .branch (by decide) (by decide) (by decide) (.plain (by decide) (Scans.append ?_ ?_))
      · split
        · next hempty =>
          rw [List.isEmpty_iff.1 hempty]
          exact .nil _
        · exact .branch (by decide) (by decide) (by decide) (hmembers _ hc.interfaces)
      · exact .branch (by decide) (by decide) (by decide) (.branch (by decide) (by decide)
          (by decide) (.area .routes (Scans.entries _ (isEntry_routes hc))))
  · exact Scans.branch? (by decide) (Scans.area? .ikeGateways (Scans.entries _ hgateways))
  · exact Scans.branch? (by decide) (Scans.area? .ipsecTunnels (Scans.entries _ htunnels))

theorem isEntry_securityEntries : ∀ n ∈ securityEntries c, IsEntry n := by
  intro n hn
  obtain ⟨⟨p, position⟩, hp, rfl⟩ := List.mem_map.1 hn
  exact isEntry_securityEntry hc _ (hc.effectivePolicies p (List.fst_mem_of_mem_zipIdx hp)) position

/-- What becomes of a translation rule: an entry, or a remark of one line. -/
theorem natForm_spec {r : NatRule} (hr : r.OneLine) (position : Nat) :
    ∀ form ∈ natForm c r position, match form with
      | .inl n => IsEntry n
      | .inr note => Text.OneLine note := by
  have hlabel := hr.label position
  intro form hform
  unfold natForm at hform
  split at hform
  · split at hform
    · cases hform
    · rw [List.mem_singleton.1 hform]
      have haddresses : Text.OneLine (r.translated.getD "") :=
        Text.oneLine_getD hr.translated (by decide)
      simp only [Text.oneLine_append, Text.toString_text]
      exact ⟨⟨⟨by decide, hlabel⟩, by decide⟩, haddresses⟩
  · next hsource _ =>
    rw [List.mem_singleton.1 hform]
    exact isEntry_natEntry hc hr (hr.source _ hsource) hlabel
  · rw [List.mem_singleton.1 hform]
    simp only [Text.oneLine_append, Text.toString_text]
    exact ⟨⟨by decide, hlabel⟩, by decide⟩

theorem natForms_spec : ∀ form ∈ natForms c, match form with
    | .inl n => IsEntry n
    | .inr note => Text.OneLine note := by
  intro form hform
  obtain ⟨⟨r, position⟩, hr, hform⟩ := List.mem_flatMap.1 hform
  exact natForm_spec hc (hc.nat r (List.fst_mem_of_mem_zipIdx hr)) position form hform

theorem isEntry_natEntries : ∀ n ∈ natEntries c, IsEntry n := by
  intro n hn
  obtain ⟨form, hform, hn⟩ := List.mem_filterMap.1 hn
  have := natForms_spec hc form hform
  cases form with
  | inl m =>
    cases hn
    exact this
  | inr _ => cases hn

theorem isEntry_serviceEntries : ∀ n ∈ serviceEntries c, IsEntry n := by
  intro n hn
  rcases List.mem_append.1 hn with hn | hn
  · obtain ⟨o, ho, rfl⟩ := List.mem_map.1 hn
    obtain ⟨ho, hplace⟩ := List.mem_filter.1 ho
    exact isEntry_serviceEntry (hc.services o ho) hplace
  · obtain ⟨o, ho, rfl⟩ := List.mem_map.1 hn
    exact isEntry_literalService hc ho

theorem scans_system : Scans none (systemElements c) (systemEvents c) := by
  have hentries {α : Type} {f : α → Node} {as : List α} {a : Area}
      (h : ∀ x ∈ as, IsEntry (f x)) : Scans (some a) (as.map f) ((as.map f).map (.entry a)) := by
    refine Scans.entries a fun n hn => ?_
    obtain ⟨x, hx, rfl⟩ := List.mem_map.1 hn
    exact h x hx
  refine Scans.append (Scans.append (Scans.append (Scans.append (Scans.append (Scans.append
    ?_ ?_) ?_) ?_) ?_) ?_) (Scans.branch? (by decide) (Scans.append ?_ ?_))
  · exact Scans.area? .zones (hentries fun z hz =>
      isEntry_zoneEntry (oneLine_of_mem_writtenZones hc hz))
  · exact Scans.area? .addresses (hentries fun o ho => isEntry_addressEntry (hc.addressObjects o ho))
  · exact Scans.area? .addressGroups (hentries fun g hg =>
      isEntry_groupEntry (hc.addressGroups g hg))
  · exact Scans.area? .services (Scans.entries _ (isEntry_serviceEntries hc))
  · exact Scans.area? .applications (hentries fun a ha =>
      isEntry_applicationEntry (hc.applications a ha))
  · exact Scans.branch? (by decide) (Scans.area? .urlCategories (hentries fun u hu =>
      isEntry_urlCategoryEntry (hc.urlCategories u hu)))
  · exact Scans.area? .security
      (Scans.branch? (by decide) (Scans.entries _ (isEntry_securityEntries hc)))
  · exact Scans.area? .nat (Scans.branch? (by decide) (Scans.entries _ (isEntry_natEntries hc)))

/-! ## The whole -/

/-- The elements right below the root. -/
theorem scans_root : Scans none (rootElement c).children (documentEvents c) := by
  have husers : ∀ n ∈ c.users.map userEntry, IsEntry n := by
    intro n hn
    obtain ⟨u, hu, rfl⟩ := List.mem_map.1 hn
    exact isEntry_userEntry (hc.users u hu)
  refine Scans.append (Scans.append ?_ ?_) ?_
  · exact Scans.branch? (by decide) (Scans.area? .admins (Scans.entries _ husers))
  · exact Scans.branch? (by decide) (scans_shared hc)
  · refine .branch (by decide) (by decide) (by decide) (.plain (by decide) (Scans.append ?_ ?_))
    · exact Scans.cons (scans_device hc) (Scans.branch? (by decide) (scans_network hc))
    · exact .branch (by decide) (by decide) (by decide) (.plain (by decide) (scans_system hc))

theorem regular_rootElement : (rootElement c).Regular := by
  refine .children (by decide : IsName "config") (fun e he => ?_) fun n hn =>
    ((scans_root hc).element n hn).regular
  have hversion : IsName "version" ∧ Text.OneLine "10.0" := by decide
  rw [List.mem_singleton.1 (he : e ∈ [("version", "10.0")])]
  exact hversion

theorem oneLine_tunnelNotes : ∀ n ∈ tunnelNotes c, Text.OneLine n := by
  intro n hn
  rcases List.mem_append.1 hn with hn | hn
  · obtain ⟨t, ht, hn⟩ := List.mem_filterMap.1 hn
    obtain ⟨⟨t', peer⟩, htp, rfl⟩ := List.mem_map.1 ht
    have hlabel := (hc.peeredTunnels htp).1.label
    split at hn
    · cases hn
      simp only [Text.oneLine_append, Text.toString_text]
      exact ⟨by decide, hlabel⟩
    · cases hn
  · obtain ⟨t, ht, rfl⟩ := List.mem_map.1 hn
    have hname := (hc.vpn.tunnels t (List.mem_filter.1 ht).1).name
    simp only [Text.oneLine_append, Text.toString_text]
    exact ⟨⟨by decide, hname⟩, by decide⟩

/-- **No remark holds a line feed.** -/
theorem oneLine_notes : ∀ n ∈ notes c, Text.OneLine n := by
  simp only [notes, List.forall_mem_append]
  refine ⟨⟨⟨⟨⟨⟨⟨⟨oneLine_tunnelNotes hc, ?_⟩, ?_⟩, ?_⟩, ?_⟩, ?_⟩, ?_⟩, ?_⟩, ?_⟩
  · intro n hn
    obtain ⟨o, ho, rfl⟩ := List.mem_map.1 hn
    have ho := hc.services o (List.mem_filter.1 ho).1
    exact ho.protocol.lower.append_append (by decide) ho.name
  · intro n hn
    obtain ⟨form, hform, hn⟩ := List.mem_filterMap.1 hn
    have := natForms_spec hc form hform
    cases form with
    | inl _ => cases hn
    | inr note =>
      cases hn
      exact this
  · intro n hn
    obtain ⟨s, hs, rfl⟩ := List.mem_map.1 hn
    have hs := hc.aaaServers s (List.mem_filter.1 hs).1
    exact hs.protocol.append_append (by decide) hs.name
  · intro n hn
    obtain ⟨p, hp, rfl⟩ := List.mem_map.1 hn
    have hp := hc.securityProfiles p hp
    exact hp.kind.append_append (by decide) hp.name
  · exact oneLine_accessNotes (by decide) hc.management.ssh
  · exact oneLine_accessNotes (by decide) hc.management.http
  · intro n hn
    obtain ⟨s, hs, rfl⟩ := List.mem_map.1 hn
    have hs := hc.management.clock s hs
    exact (Text.oneLine_append.2 ⟨by decide, hs.key⟩).append_append (by decide) hs.value
  · intro n hn
    rw [snmpNotes] at hn
    split at hn
    · rw [List.mem_singleton.1 hn]
      simp only [Text.oneLine_append, Text.toString_text]
      exact ⟨by simp, by decide⟩
    · cases hn

end Parts

/-! ## The scan -/

/-- A line that does not begin with a bracket and the beginning of a name opens nothing. -/
theorem opensWith_eq_false {s t : String} (ht : IsName t)
    (h : ∀ c cs, s.toList = '<' :: c :: cs → Xml.isNameStart c = false) :
    opensWith t s = false := by
  obtain ⟨c, cs, htag, hc⟩ := ht.exists_cons
  refine Bool.eq_false_iff.2 fun hopens => ?_
  obtain ⟨rest, hrest⟩ := Text.beginsWith_iff.1 hopens
  rw [toList_openTag, htag] at hrest
  rw [h c _ hrest] at hc
  exact Bool.false_ne_true hc

namespace Reading

/-- A line that begins with no opening tag says nothing outside all areas. -/
theorem step_other {line : String} (h : ∀ t, IsName t → opensWith t (Text.trim line) = false)
    (c : Config) : step { config := c } line = { config := c } := by
  have hleaf {t : String} (ht : IsName t) : leafText t (Text.trim line) = none := by
    have hopens := h t ht
    rw [opensWith, Text.beginsWith, Option.isSome_eq_false_iff, Option.isNone_iff_eq_none]
      at hopens
    rw [leafText, hopens]
    rfl
  have hopened : Area.opened? (Text.trim line) = none := by
    refine List.find?_eq_none.2 fun a _ heq => ?_
    have hopens : opensWith a.tag (openTag a.tag) = true :=
      Text.beginsWith_iff.2 ⟨[], (List.append_nil _).symm⟩
    rw [← beq_iff_eq.1 heq, h a.tag (Mark.isName_tag a).1] at hopens
    exact Bool.false_ne_true hopens
  show idleLine _ _ = _
  rw [idleLine, hopened]
  show ({ config := settingLine c (Text.trim line) } : Reading) = _
  rw [settingLine, hleaf (by decide), hleaf (by decide), hleaf (by decide)]

theorem run_others {lines : List String}
    (h : ∀ l ∈ lines, ∀ t, IsName t → opensWith t (Text.trim l) = false) (c : Config) :
    run { config := c } lines = { config := c } := by
  induction lines with
  | nil => rfl
  | cons l ls ih =>
    rw [run_cons, step_other (h l List.mem_cons_self),
      ih fun m hm => h m (List.mem_cons_of_mem _ hm)]

end Reading

/-- A line that begins with what begins a comment, or with no bracket, opens nothing. -/
theorem opensWith_trim {line : String} {c d : Char} (hc : isBlank c = false)
    (hd : isBlank d = false) (cs : List Char) (hline : Chars.trimStart line.toList = c :: d :: cs)
    (hcd : c = '<' → Xml.isNameStart d = false) {t : String} (ht : IsName t) :
    opensWith t (Text.trim line) = false := by
  refine opensWith_eq_false ht fun e es h => ?_
  rw [Text.toList_trim, Chars.trim, hline, Chars.trimEnd_cons, if_neg (by simp [hc]),
    Chars.trimEnd_cons, if_neg (by simp [hd])] at h
  obtain ⟨hce, h⟩ := List.cons.inj h
  rw [← (List.cons.inj h).1]
  exact hcd hce

/-- No line of the comment at the head opens anything. -/
theorem opensWith_comment {head l : String} {notes : List String}
    (hl : l ∈ ("<!-- " ++ Xml.spread head)
      :: (notes.map ("  not converted: " ++ ·)).map Xml.spread) (rest : String) {t : String}
    (ht : IsName t) : opensWith t (Text.trim (l ++ rest)) = false := by
  rcases List.mem_cons.1 hl with rfl | hl
  · have hline : ("<!-- " ++ Xml.spread head ++ rest).toList
        = '<' :: '!' :: ("-- ".toList ++ (Xml.spread head).toList ++ rest.toList) := by simp
    have hstart : Chars.trimStart ("<!-- " ++ Xml.spread head ++ rest).toList
        = '<' :: '!' :: ("-- ".toList ++ (Xml.spread head).toList ++ rest.toList) := by
      rw [hline, Chars.trimStart, List.dropWhile_cons_of_neg (by decide)]
    exact opensWith_trim (by decide) (by decide) _ hstart (fun _ => by decide) ht
  · obtain ⟨m, hm, rfl⟩ := List.mem_map.1 hl
    obtain ⟨n, -, rfl⟩ := List.mem_map.1 hm
    have hspread : (Xml.spread ("  not converted: " ++ n)).toList
        = ' ' :: ' ' :: 'n' :: 'o' :: Chars.spread ("t converted: ".toList ++ n.toList) := by
      rw [Xml.spread, String.toList_ofList, String.toList_append]
      show Chars.spread (' ' :: ' ' :: 'n' :: 'o' :: ("t converted: ".toList ++ n.toList)) = _
      rw [Chars.spread_cons (by decide), Chars.spread_cons (by decide),
        Chars.spread_cons (by decide), Chars.spread_cons (by decide)]
    have hstart : Chars.trimStart (Xml.spread ("  not converted: " ++ n) ++ rest).toList
        = 'n' :: 'o' :: (Chars.spread ("t converted: ".toList ++ n.toList) ++ rest.toList) := by
      rw [String.toList_append, hspread]
      rfl
    exact opensWith_trim (by decide) (by decide) _ hstart (by decide) ht

/-- The line that opens the root. -/
def rootLine : String := "<config version=\"10.0\">"

theorem lines_rootElement (c : Config) : (rootElement c).lines
    = rootLine :: Xml.linesOfAll (rootElement c).children ++ [(Mark.closing "config").line] := by
  have hchildren : (rootElement c).children.isEmpty = false := by
    show (_ ++ [_]).isEmpty = false
    simp
  obtain ⟨attributes, children, heq, hattributes⟩ : ∃ attributes children,
      rootElement c = ⟨"config", attributes, children, none⟩
        ∧ attributes = ({} : Xml.Attributes).put "version" "10.0" := ⟨_, _, rfl, rfl⟩
  have htag : "<" ++ Xml.tagText "config" attributes ++ ">" = rootLine := by
    rw [hattributes]
    decide
  rw [heq] at hchildren ⊢
  rw [Node.lines, htag]
  show (if children.isEmpty = true then _ else _) = _
  rw [if_neg (Bool.eq_false_iff.1 hchildren)]
  rfl

/-- The comment at the head of a document has one line for each remark. -/
theorem headComment_eq (origin : Dialect) (c : Config) : headComment origin c
    = "Palo Alto Configuration, generated from " ++ origin.product ++ " configuration"
      ++ String.join (((notes c).map ("  not converted: " ++ ·)).map ("\n" ++ ·)) := by
  have hnote : ((fun n => "\n" ++ n) ∘ fun n => "  not converted: " ++ n)
      = fun n => "\n  not converted: " ++ n := by
    funext n
    rw [Function.comp_apply, ← String.append_assoc]
    rfl
  delta headComment
  rw [List.map_map, hnote]

theorem opensWith_declaration {t : String} (ht : IsName t) :
    opensWith t (Text.trim Xml.declaration) = false := by
  have hline : Chars.trimStart Xml.declaration.toList
      = '<' :: '?' :: "xml version=\"1.0\" encoding=\"UTF-8\"?>".toList := by decide +kernel
  exact opensWith_trim (by decide) (by decide) _ hline (fun _ => by decide) ht

/-- The root element has an attribute, so no tag without attributes opens it. -/
theorem opensWith_rootLine {t : String} (ht : IsName t) :
    opensWith t (Text.trim rootLine) = false := by
  have hline : (Text.trim rootLine).toList
      = '<' :: ("config".toList ++ ' ' :: "version=\"10.0\">".toList) := by decide +kernel
  refine Bool.eq_false_iff.2 fun hopens => ?_
  obtain ⟨rest, hrest⟩ := Text.beginsWith_iff.1 hopens
  rw [hline, toList_openTag, List.cons_append, List.cons.injEq, List.append_assoc] at hrest
  exact Chars.append_cons_ne (by decide) (by decide) (ht.not_mem (by decide)) _ _ hrest.2

/-- **A scan of a written document does the events of the document**, one after the other, and
nothing else. -/
theorem run_document (origin : Dialect) {c : Config} (hc : c.OneLine) :
    Reading.run {} (Text.lines (write origin c))
      = { config := (documentEvents c).foldl Event.apply {} } := by
  have hhead : Text.OneLine
      ("Palo Alto Configuration, generated from " ++ origin.product ++ " configuration") := by
    cases origin <;> decide
  have hnotes : ∀ n ∈ (notes c).map ("  not converted: " ++ ·), Text.OneLine n := by
    intro n hn
    obtain ⟨m, hm, rfl⟩ := List.mem_map.1 hn
    exact Text.oneLine_append.2 ⟨by decide, oneLine_notes hc m hm⟩
  obtain ⟨comment, hcomment, hlines⟩ :=
    Xml.exists_lines_document (regular_rootElement hc) hhead hnotes
  have hothers : ∀ l ∈ comment, ∀ t, IsName t → opensWith t (Text.trim l) = false := by
    intro l hl t ht
    obtain ⟨m, hm, rest, rfl⟩ := hcomment l hl
    rw [Text.trim_trim]
    exact opensWith_comment hm rest ht
  have htext : write origin c = Xml.document (rootElement c) (some (headComment origin c)) := rfl
  rw [← Reading.run_map_trim, htext, headComment_eq, hlines, Reading.run_cons,
    Reading.step_other fun _ => opensWith_declaration, Reading.run_append,
    Reading.run_others hothers, lines_rootElement, List.cons_append]
  exact Reading.run_around (Reading.step_other (fun _ => opensWith_rootLine) _)
    (Reading.run_linesOfAll (scans_root hc) _)
    (Reading.step_plain (m := .closing "config") (by decide : IsName "config") nofun
      (fun _ => rfl) _)

end FirewallConfig.PanOs
