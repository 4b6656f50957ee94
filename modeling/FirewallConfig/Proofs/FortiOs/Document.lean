import FirewallConfig.Proofs.FortiOs.Entries

/-!
# Proofs/FortiOs/Document — the sections of a written configuration

`document` lists the sections that a configuration is written as, in order.  `readForest_write`
says that the written text is read as these sections and nothing else: no remark and no text in the
configuration is taken for a directive, and none ends a line or a section too early.
-/

namespace FirewallConfig.FortiOs

/-! ## The sections -/

/-- The section of some entries; none if there is no entry. -/
def listed (path : String) (entries : List (Entry Value)) : List (Section Value) :=
  if entries.isEmpty then [] else [{ path := .bare path, entries }]

/-- The forms of all translation rules. -/
def natForms (c : Config) : List NatForm :=
  c.nat.zipIdx.map fun (rule, position) => natForm c rule position

/-- The entry of a virtual address. -/
def NatForm.virtualAddress? : NatForm → Option (Entry Value)
  | .virtualAddress e => some e
  | _ => none

/-- The entry of a pool. -/
def NatForm.pool? : NatForm → Option (Entry Value)
  | .pool e => some e
  | _ => none

/-- The remark on a rule that has no place. -/
def NatForm.remark? : NatForm → Option String
  | .remark what => some what
  | _ => none

/-- The section of the syslog server at a position. -/
def syslogSection (host : String) (position : Nat) : Section Value where
  path := .bare (syslogPath position)
  settings := [bareSetting "status" ["enable"], quotedSetting "server" [host]]

/-- The section of the settings of the whole device. -/
def globalSection (c : Config) : Section Value where
  path := .bare "system global"
  settings := [quotedSetting "hostname" [c.hostnameOr "fortigate-converted"]]

/-- The entries of addresses, declared ones first. -/
def addressEntries (c : Config) : List (Entry Value) :=
  c.addressObjects.map addressEntry
    ++ (impliedAddresses c).map fun (name, n) => impliedAddressEntry name n

/-- The entries of services, declared ones first. -/
def serviceEntries (c : Config) : List (Entry Value) :=
  c.services.map serviceEntry ++ (c.literalServices predefinedService).map impliedServiceEntry

/-- The entries of routes. -/
def routeEntries (c : Config) : List (Entry Value) :=
  c.routes.zipIdx.map fun (route, position) => routeEntry c route position

/-- The hosts that are logged to. -/
def syslogHosts (c : Config) : List String :=
  (c.management.logging.filterMap (·.host)).take syslogPlaces

/-- The entries of communities. -/
def communityEntries (c : Config) : List (Entry Value) :=
  (communities c.management.snmp).zipIdx.map fun ((community, hosts), position) =>
    communityEntry community hosts position

/-- The sections that a configuration is written as. -/
def document (c : Config) : List (Section Value) :=
  [globalSection c]
    ++ listed "system interface" (c.interfaces.map (interfaceEntry c))
    ++ listed "system zone" (c.zones.map zoneEntry)
    ++ listed "firewall address" (addressEntries c)
    ++ listed "firewall addrgrp" (c.addressGroups.map groupEntry)
    ++ listed "firewall service custom" (serviceEntries c)
    ++ listed "firewall policy" (ruleEntries c)
    ++ listed "router static" (routeEntries c)
    ++ (listed "firewall vip" ((natForms c).filterMap NatForm.virtualAddress?)
      ++ listed "firewall ippool" ((natForms c).filterMap NatForm.pool?))
    ++ (listed "vpn ipsec phase1-interface"
        (c.vpn.peeredTunnels.map fun (t, peer) => phaseOneEntry c t peer)
      ++ listed "vpn ipsec phase2-interface" ((phaseTwos c).map phaseTwoEntry))
    ++ (listed "system admin" ((c.users.filter (!isLocal ·)).map adminEntry)
      ++ listed "user local" ((c.users.filter isLocal).map localEntry))
    ++ listed "user ldap" ((c.aaaServers.filter (·.isLdap)).map serverEntry)
    ++ ((syslogHosts c).zipIdx.map fun (host, position) => syslogSection host position)
    ++ listed "system snmp community" (communityEntries c)

/-! ## Lines that hold the sections -/

/-- A path that is made of words, and so is read back as it is. -/
structure IsPlainPath (path : String) (ws : List String) : Prop where
  ne_nil : ws ≠ [] := by decide
  words : ∀ w ∈ ws, IsBareWord w.toList := by decide
  eq_unwords : path = Text.unwords ws := by decide

instance (path : String) (ws : List String) : Decidable (IsPlainPath path ws) :=
  decidable_of_iff (ws ≠ [] ∧ (∀ w ∈ ws, IsBareWord w.toList) ∧ path = Text.unwords ws)
    ⟨fun ⟨hne, hwords, hpath⟩ => ⟨hne, hwords, hpath⟩,
      fun ⟨hne, hwords, hpath⟩ => ⟨hne, hwords, hpath⟩⟩

theorem IsPlainPath.isPath {path : String} {ws : List String} (h : IsPlainPath path ws) :
    (Value.bare path).IsPath := Value.isPath_bare ws h.ne_nil h.words h.eq_unwords

theorem IsPlainPath.oneLine {path : String} {ws : List String} (h : IsPlainPath path ws) :
    Text.OneLine path := by
  rw [h.eq_unwords]
  exact Text.oneLine_unwords fun w hw => oneLine_of_isBareWord (h.words w hw)

namespace Lays

theorem listing {path : String} {ws : List String} (hpath : IsPlainPath path ws) {entries : List (Entry Value)}
    (h : ∀ e ∈ entries, e.Regular) :
    Lays (listing path entries) ((listed path entries).map Section.readBack) := by
  rw [FortiOs.listing, listed]
  split
  · exact nil
  · exact (lines (.mk hpath.isPath hpath.oneLine (List.forall_mem_nil _) h (List.forall_mem_nil _)) 0).append
      empty

theorem settingsSection {path : String} {ws : List String} (hpath : IsPlainPath path ws)
    {settings : List (Setting Value)} (h : ∀ s ∈ settings, s.Regular) :
    Lays (settingsSection path settings) [Section.readBack { path := .bare path, settings }] :=
  (lines (.mk hpath.isPath hpath.oneLine h (List.forall_mem_nil _) (List.forall_mem_nil _)) 0).append_quiet empty

/-- Remarks on what is left out hold no section. -/
theorem notConverted {texts : List String} (h : ∀ t ∈ texts, Text.OneLine t) :
    Lays (texts.map notConverted) [] := by
  refine quiet (List.forall_mem_map.2 fun t ht => ?_) (List.forall_mem_map.2 fun t _ => ?_)
  · exact Text.oneLine_append.2 ⟨by decide, h t ht⟩
  · exact directive_remark ⟨" not converted: ".toList ++ t.toList, String.toList_append⟩

end Lays

section Parts

variable {c : Config} (hc : c.OneLine)
include hc

theorem regular_addressEntries : ∀ e ∈ addressEntries c, e.Regular :=
  List.forall_mem_append.2
    ⟨List.forall_mem_map.2 fun o ho => regular_addressEntry (hc.addressObjects o ho),
      List.forall_mem_map.2 fun _ h => regular_impliedAddressEntry hc h⟩

theorem regular_serviceEntries : ∀ e ∈ serviceEntries c, e.Regular :=
  List.forall_mem_append.2
    ⟨List.forall_mem_map.2 fun o ho => regular_serviceEntry (hc.services o ho),
      List.forall_mem_map.2 fun _ h => regular_impliedServiceEntry hc h⟩

theorem regular_ruleEntries : ∀ e ∈ ruleEntries c, e.Regular :=
  List.forall_mem_map.2 fun p hp =>
    regular_ruleEntry hc _ (hc.effectivePolicies p.1 (List.fst_mem_of_mem_zipIdx hp)) p.2

theorem regular_routeEntries : ∀ e ∈ routeEntries c, e.Regular :=
  List.forall_mem_map.2 fun p hp =>
    regular_routeEntry hc (hc.routes p.1 (List.fst_mem_of_mem_zipIdx hp)) p.2

theorem regular_natForms : ∀ form ∈ natForms c, form.Regular :=
  List.forall_mem_map.2 fun p hp =>
    regular_natForm hc (hc.nat p.1 (List.fst_mem_of_mem_zipIdx hp)) p.2

theorem lays_natLines : Lays (natLines c)
    ((listed "firewall vip" ((natForms c).filterMap NatForm.virtualAddress?)
      ++ listed "firewall ippool" ((natForms c).filterMap NatForm.pool?)).map
        Section.readBack) := by
  have hforms := regular_natForms hc
  have hvip : ∀ e ∈ (natForms c).filterMap NatForm.virtualAddress?, e.Regular :=
    List.forall_mem_filterMap.2 fun form hform e he => by
      cases form <;> cases he
      exact hforms _ hform
  have hpool : ∀ e ∈ (natForms c).filterMap NatForm.pool?, e.Regular :=
    List.forall_mem_filterMap.2 fun form hform e he => by
      cases form <;> cases he
      exact hforms _ hform
  have hremarks : ∀ what ∈ (natForms c).filterMap NatForm.remark?, Text.OneLine what :=
    List.forall_mem_filterMap.2 fun form hform what hwhat => by
      cases form <;> cases hwhat
      exact hforms _ hform
  have hlines : natLines c
      = listing "firewall vip" ((natForms c).filterMap NatForm.virtualAddress?)
        ++ listing "firewall ippool" ((natForms c).filterMap NatForm.pool?)
        ++ ((natForms c).filterMap NatForm.remark?).map notConverted
        ++ (if (((natForms c).filterMap NatForm.remark?).map notConverted).isEmpty then []
          else [""]) := by
    have hremark : Option.map notConverted ∘ NatForm.remark? = fun
        | .remark what => some (notConverted what)
        | _ => none := by
      funext form
      cases form <;> rfl
    rw [List.map_filterMap, ← Function.comp_def, hremark]
    rfl
  have hvipPath : IsPlainPath "firewall vip" ["firewall", "vip"] := by decide
  have hpoolPath : IsPlainPath "firewall ippool" ["firewall", "ippool"] := by decide
  have hsections := (Lays.listing hvipPath hvip).append (Lays.listing hpoolPath hpool)
  rw [hlines, List.map_append]
  refine (hsections.append_quiet (Lays.notConverted hremarks)).append_quiet ?_
  split
  · exact Lays.nil
  · exact Lays.empty

theorem lays_tunnelLines : Lays (tunnelLines c)
    ((listed "vpn ipsec phase1-interface"
        (c.vpn.peeredTunnels.map fun (t, peer) => phaseOneEntry c t peer)
      ++ listed "vpn ipsec phase2-interface" ((phaseTwos c).map phaseTwoEntry)).map
        Section.readBack) := by
  have hone : IsPlainPath "vpn ipsec phase1-interface" ["vpn", "ipsec", "phase1-interface"] := by decide
  have htwo : IsPlainPath "vpn ipsec phase2-interface" ["vpn", "ipsec", "phase2-interface"] := by decide
  rw [List.map_append]
  refine Lays.append (Lays.listing hone (List.forall_mem_map.2 fun ⟨t, peer⟩ h => ?_))
    (Lays.listing htwo (List.forall_mem_map.2 fun p hp => ?_))
  · obtain ⟨ht, hpeer⟩ := hc.peeredTunnels h
    exact regular_phaseOneEntry hc ht hpeer
  · exact regular_phaseTwoEntry (oneLine_phaseTwos hc p hp)

theorem lays_userLines : Lays (userLines c)
    ((listed "system admin" ((c.users.filter (!isLocal ·)).map adminEntry)
      ++ listed "user local" ((c.users.filter isLocal).map localEntry)).map Section.readBack) := by
  have hadmin : IsPlainPath "system admin" ["system", "admin"] := by decide
  have hlocal : IsPlainPath "user local" ["user", "local"] := by decide
  rw [List.map_append]
  refine Lays.append (Lays.listing hadmin (List.forall_mem_map.2 fun u hu => ?_))
    (Lays.listing hlocal (List.forall_mem_map.2 fun u hu => ?_))
  · exact regular_adminEntry (hc.users u (List.mem_filter.1 hu).1)
  · exact regular_localEntry (hc.users u (List.mem_filter.1 hu).1)

theorem lays_serverLines : Lays (serverLines c)
    ((listed "user ldap" ((c.aaaServers.filter (·.isLdap)).map serverEntry)).map
      Section.readBack) := by
  have hpath : IsPlainPath "user ldap" ["user", "ldap"] := by decide
  have hremarks : ∀ what ∈ (c.aaaServers.filter (!·.isLdap)).map fun s =>
      s!"{s.protocol} server {s.name}", Text.OneLine what := by
    refine List.forall_mem_map.2 fun s hs => ?_
    have hs := hc.aaaServers s (List.mem_filter.1 hs).1
    exact Text.oneLine_append.2 ⟨Text.oneLine_append.2 ⟨hs.protocol, by decide⟩, hs.name⟩
  have hentries : ∀ e ∈ (c.aaaServers.filter (·.isLdap)).map serverEntry, e.Regular :=
    List.forall_mem_map.2 fun s hs => regular_serverEntry (hc.aaaServers s (List.mem_filter.1 hs).1)
  have hlines := (Lays.listing hpath hentries).append_quiet (Lays.notConverted hremarks)
  rwa [List.map_map] at hlines

theorem lays_syslogLines : Lays (syslogLines c)
    (((syslogHosts c).zipIdx.map fun (host, position) => syslogSection host position).map
      Section.readBack) := by
  have hpaths : ∀ position < syslogPlaces, ∃ ws, IsPlainPath (syslogPath position) ws := by
    intro position hposition
    match position, hposition with
    | 0, _ => exact ⟨["log", "syslogd", "setting"], by decide⟩
    | 1, _ => exact ⟨["log", "syslogd2", "setting"], by decide⟩
    | 2, _ => exact ⟨["log", "syslogd3", "setting"], by decide⟩
    | 3, _ => exact ⟨["log", "syslogd4", "setting"], by decide⟩
  have hplaces : (syslogHosts c).length ≤ syslogPlaces := List.length_take_le _ _
  have hhosts : ∀ host ∈ syslogHosts c, Text.OneLine host := by
    intro host hhost
    obtain ⟨t, ht, hhost⟩ := List.mem_filterMap.1 (List.mem_of_mem_take hhost)
    exact (hc.management.logging t ht).host host hhost
  have hsection : ∀ p ∈ (syslogHosts c).zipIdx,
      Lays (settingsSection (syslogPath p.2)
        [bareSetting "status" ["enable"], quotedSetting "server" [p.1]])
        [(syslogSection p.1 p.2).readBack] := by
    intro p hp
    have hposition : p.2 < syslogPlaces :=
      Nat.lt_of_lt_of_le (List.snd_lt_of_mem_zipIdx hp) hplaces
    obtain ⟨ws, hpath⟩ := hpaths p.2 hposition
    exact Lays.settingsSection hpath (List.forall_mem_cons.2
      ⟨regular_bareSetting (by decide) (by decide), List.forall_mem_singleton.2
        (regular_quotedSetting (by decide) (List.forall_mem_singleton.2
          (hhosts p.1 (List.fst_mem_of_mem_zipIdx hp))))⟩)
  show Lays ((syslogHosts c).zipIdx.flatMap _) _
  generalize (syslogHosts c).zipIdx = places at hsection ⊢
  induction places with
  | nil => exact Lays.nil
  | cons p places ih =>
    obtain ⟨hp, hplaces⟩ := List.forall_mem_cons.1 hsection
    exact hp.append (ih hplaces)

theorem lays_snmpLines : Lays (snmpLines c)
    ((listed "system snmp community" (communityEntries c)).map Section.readBack) := by
  have hpath : IsPlainPath "system snmp community" ["system", "snmp", "community"] := by decide
  refine Lays.listing hpath (List.forall_mem_map.2 fun ⟨⟨community, hosts⟩, position⟩ h => ?_)
  obtain ⟨hcommunity, hhosts⟩ :=
    oneLine_communities hc.management.snmp _ (List.fst_mem_of_mem_zipIdx h)
  exact regular_communityEntry hcommunity hhosts position

/-! ### Remarks -/

omit hc in
theorem oneLine_accessRemarks {command : String} (hcommand : Text.OneLine command)
    {settings : List AccessSetting} (h : ∀ s ∈ settings, s.OneLine) :
    ∀ n ∈ accessRemarks command settings, Text.OneLine n := by
  intro n hn
  obtain ⟨s, hs, hn⟩ := List.mem_filterMap.1 hn
  have hs := h s hs
  cases s with
  | allow _ _ _ => cases hn
  | option key value =>
    cases hn
    refine Text.OneLine.trimEnd ?_
    simp only [Text.oneLine_append, Text.toString_text]
    exact ⟨⟨⟨⟨hcommand, by decide⟩, hs.1⟩, by decide⟩, hs.2⟩

theorem oneLine_unmapped : ∀ what ∈ unmapped c, Text.OneLine what := by
  simp only [unmapped, List.forall_mem_append, List.forall_mem_map, List.forall_mem_filterMap]
  refine ⟨⟨⟨⟨⟨⟨⟨?_, ?_⟩, ?_⟩, ?_⟩, ?_⟩, ?_⟩, ?_⟩, ?_⟩
  · intro zone hzone
    exact Text.oneLine_append.2 ⟨by decide, hc.device.timezone zone (Option.mem_toList.1 hzone)⟩
  · rintro ⟨p, position⟩ hp n hn
    have hp := hc.effectivePolicies p (List.fst_mem_of_mem_zipIdx hp)
    simp only [applicationRemark] at hn
    split at hn
    · cases hn
    · cases hn
      have happlications := Text.oneLine_intercalate (s := ", ") (by decide) hp.application
      exact (Text.oneLine_append.2 ⟨by decide, hp.label position⟩).append_append (by decide) happlications
  · exact oneLine_accessRemarks (by decide) hc.management.ssh
  · exact oneLine_accessRemarks (by decide) hc.management.http
  · intro s hs
    have hs := hc.management.clock s hs
    exact (Text.oneLine_append.2 ⟨by decide, hs.key⟩).append_append (by decide) hs.value
  · intro p hp
    have hp := hc.securityProfiles p hp
    exact hp.kind.append_append (by decide) hp.name
  · intro a ha
    exact Text.oneLine_append.2 ⟨by decide, (hc.applications a ha).name⟩
  · intro u hu
    simp only [Text.oneLine_append, Text.toString_text]
    exact ⟨⟨⟨⟨by decide, (hc.urlCategories u hu).name⟩, by decide⟩, by simp⟩, by decide⟩

/-! ## The whole -/

theorem lays_head (origin : Dialect) :
    Lays (["# FortiGate Configuration",
        "# Generated from " ++ origin.product ++ " configuration", ""]
      ++ settingsSection "system global"
        [quotedSetting "hostname" [c.hostnameOr "fortigate-converted"]])
      ([globalSection c].map Section.readBack) := by
  have hpath : IsPlainPath "system global" ["system", "global"] := by decide
  have hproduct : Text.OneLine origin.product := by cases origin <;> decide
  have hquiet : Lays ["# FortiGate Configuration",
      "# Generated from " ++ origin.product ++ " configuration", ""] [] := by
    have hremark : directive ("# Generated from " ++ origin.product ++ " configuration")
        = .other :=
      directive_remark ⟨_, by rw [String.toList_append, String.toList_append]; rfl⟩
    refine Lays.quiet ?_ (List.forall_mem_cons.2 ⟨directive_remark ⟨_, rfl⟩,
      List.forall_mem_cons.2 ⟨hremark, List.forall_mem_singleton.2 directive_empty⟩⟩)
    refine List.forall_mem_cons.2 ⟨by decide, List.forall_mem_cons.2 ⟨?_, by decide⟩⟩
    exact Text.oneLine_append.2 ⟨Text.oneLine_append.2 ⟨by decide, hproduct⟩, by decide⟩
  exact hquiet.append (Lays.settingsSection hpath (List.forall_mem_singleton.2
    (regular_quotedSetting (by decide) (List.forall_mem_singleton.2 (hc.hostnameOr (by decide))))))

/-- The lines of a configuration hold the sections of its document. -/
theorem lays_writeLines (origin : Dialect) :
    Lays (writeLines origin c) ((document c).map Section.readBack) := by
  have hinterface : IsPlainPath "system interface" ["system", "interface"] := by decide
  have hzone : IsPlainPath "system zone" ["system", "zone"] := by decide
  have haddress : IsPlainPath "firewall address" ["firewall", "address"] := by decide
  have hgroup : IsPlainPath "firewall addrgrp" ["firewall", "addrgrp"] := by decide
  have hservice : IsPlainPath "firewall service custom" ["firewall", "service", "custom"] := by decide
  have hpolicy : IsPlainPath "firewall policy" ["firewall", "policy"] := by decide
  have hroute : IsPlainPath "router static" ["router", "static"] := by decide
  have hinterfaces := Lays.listing hinterface (List.forall_mem_map.2 fun i hi =>
    regular_interfaceEntry c (hc.interfaces i hi))
  have hzones := Lays.listing hzone (List.forall_mem_map.2 fun z hz =>
    regular_zoneEntry (hc.zones z hz))
  have haddresses := Lays.listing haddress (regular_addressEntries hc)
  have hgroups := Lays.listing hgroup (List.forall_mem_map.2 fun g hg =>
    regular_groupEntry (hc.addressGroups g hg))
  have hservices := Lays.listing hservice (regular_serviceEntries hc)
  have hpolicies := Lays.listing hpolicy (regular_ruleEntries hc)
  have hroutes := Lays.listing hroute (regular_routeEntries hc)
  have hobjects := (((lays_head hc origin).append hinterfaces).append hzones).append haddresses
  have hrules := (((hobjects.append hgroups).append hservices).append hpolicies).append hroutes
  have htunnels := (hrules.append (lays_natLines hc)).append (lays_tunnelLines hc)
  have hservers := (htunnels.append (lays_userLines hc)).append (lays_serverLines hc)
  have hall := (hservers.append (lays_syslogLines hc)).append (lays_snmpLines hc)
  have hdocument := hall.append_quiet (Lays.notConverted (oneLine_unmapped hc))
  simp only [← List.map_append] at hdocument
  exact hdocument

/-- **A written configuration is read as the sections of its document.** -/
theorem readForest_write (origin : Dialect) :
    readForest (write origin c) = (document c).map Section.readBack :=
  readForest_unlines (lays_writeLines hc origin)

end Parts

end FirewallConfig.FortiOs
