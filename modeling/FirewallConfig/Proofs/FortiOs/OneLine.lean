import FirewallConfig.FortiOs.Reader
import FirewallConfig.Proofs.Config.Put
import FirewallConfig.Proofs.FortiOs.Forest

/-!
# Proofs/FortiOs/OneLine — what is read of a text holds no line feed

No value in the sections of a text holds a line feed, and what an entry means is made of its name
and its values.  So no text of the configuration that is read holds one (`oneLine_read`).
-/

namespace FirewallConfig.FortiOs

open Text

/-! ## Values -/

section Settings

variable {settings : List (Setting String)} (h : SettingsOneLine settings)
include h

theorem oneLine_of_mem_valuesOf (key : String) : ∀ v ∈ valuesOf settings key, OneLine v := by
  rw [valuesOf]
  split
  · next s hs => exact h s (List.mem_reverse.1 (List.mem_of_find?_eq_some hs))
  · exact List.forall_mem_nil _

theorem oneLine_valueOf (key : String) : ∀ v ∈ valueOf settings key, OneLine v := fun v hv =>
  oneLine_of_mem_valuesOf h key v (List.mem_of_mem_head? hv)

theorem oneLine_joinedValues (key : String) : ∀ v ∈ joinedValues settings key, OneLine v := by
  have hvalues := oneLine_of_mem_valuesOf h key
  rw [joinedValues]
  split
  · exact nofun
  · rintro v ⟨⟩
    exact oneLine_unwords hvalues

theorem oneLine_readZone (key : String) : ∀ v ∈ readZone settings key, OneLine v := fun v hv =>
  oneLine_valueOf h key v (Option.filter_eq_some_iff.1 hv).1

theorem oneLine_readServicePorts :
    OneLine (readServicePorts settings).1
      ∧ ∀ p ∈ (readServicePorts settings).2, OneLine p := by
  have hports {range : String} (hrange : OneLine range) : OneLine (destinationPorts range) := by
    rw [destinationPorts]
    cases hcut : Text.cut ':' range with
    | none => exact hrange
    | some x => exact (hrange.cut hcut).1
  have htcp : OneLine "tcp" := by decide
  have hudp : OneLine "udp" := by decide
  rw [readServicePorts]
  split
  · next range hrange =>
    refine ⟨htcp, ?_⟩
    rintro p ⟨⟩
    exact hports (oneLine_valueOf h _ range hrange)
  · next range _ hrange =>
    refine ⟨hudp, ?_⟩
    rintro p ⟨⟩
    exact hports (oneLine_valueOf h _ range hrange)
  · split <;> exact ⟨by decide, nofun⟩

end Settings

theorem oneLine_networkOfValues {values : List String} (h : ∀ v ∈ values, OneLine v) {n : Network}
    (hn : networkOfValues values = some n) : OneLine n.address ∧ OneLine n.mask := by
  unfold networkOfValues at hn
  split at hn
  · cases hn
    exact ⟨h _ List.mem_cons_self, h _ (List.mem_cons_of_mem _ List.mem_cons_self)⟩
  · exact Network.oneLine_of_read? (h _ List.mem_cons_self) hn
  · cases hn

theorem oneLine_endpointText {name : String} (h : OneLine name) : OneLine (endpointText name) := by
  rw [endpointText]
  split
  · exact oneLine_anyText
  · exact h

theorem oneLine_serviceText {name : String} (h : OneLine name) :
    ∀ s ∈ serviceText name, OneLine s := by
  intro s hs
  unfold serviceText at hs
  split at hs
  case h_17 =>
    cases hs
    exact h
  case h_1 => cases hs
  all_goals
    cases hs
    decide

theorem oneLine_collapseRange {value : String} (h : OneLine value) :
    OneLine (collapseRange value) := by
  rw [collapseRange]
  split
  · next hcut =>
    split
    · exact (h.cut hcut).1
    · exact h
  · exact h

/-- A range of two texts. -/
theorem oneLine_range {first last : String} (hfirst : OneLine first) (hlast : OneLine last) :
    OneLine s!"{first}-{last}" := by
  simp +decide [hfirst, hlast]

/-! ## Entries -/

section Entries

variable {e : Entry String} (he : e.OneLine)
include he

theorem Entry.OneLine.name : Text.OneLine e.name := by
  obtain ⟨hname, -, -⟩ := he
  exact hname

theorem Entry.OneLine.settings : SettingsOneLine e.settings := by
  obtain ⟨-, hsettings, -⟩ := he
  exact hsettings

theorem Entry.OneLine.children : ∀ s ∈ e.children, s.OneLine := by
  obtain ⟨-, -, hchildren⟩ := he
  exact hchildren

theorem oneLine_readInterface : ∀ i ∈ readInterface e, i.OneLine := by
  intro i hi
  obtain ⟨n, hn, rfl⟩ := Option.map_eq_some_iff.1 hi
  obtain ⟨haddress, hmask⟩ :=
    oneLine_networkOfValues (oneLine_of_mem_valuesOf he.settings "ip") hn
  exact
    { name := he.name
      ip := by simpa using haddress
      mask := by simpa using hmask
      nickname := oneLine_valueOf he.settings _
      comment := oneLine_valueOf he.settings _
      zone := by simpa using (by decide : OneLine defaultZone) }

theorem oneLine_readAddress : ∀ o ∈ readAddress e, o.OneLine := by
  have hsettings := he.settings
  have hvalue : ∀ o ∈ readAddressValue e, o.OneLine := by
    intro o ho
    rw [readAddressValue] at ho
    split at ho
    · obtain ⟨first, hfirst, rfl⟩ := Option.map_eq_some_iff.1 ho
      have hfirst := oneLine_valueOf hsettings _ first hfirst
      exact ⟨he.name, oneLine_range hfirst (oneLine_getD (oneLine_valueOf hsettings _) hfirst),
        nofun, nofun⟩
    · obtain ⟨value, hvalue, rfl⟩ := Option.map_eq_some_iff.1 ho
      exact ⟨he.name, oneLine_valueOf hsettings _ value hvalue, nofun, nofun⟩
    · obtain ⟨n, hn, rfl⟩ := Option.map_eq_some_iff.1 ho
      obtain ⟨haddress, hmask⟩ := oneLine_networkOfValues (oneLine_of_mem_valuesOf hsettings _) hn
      split
      · exact ⟨he.name, haddress, nofun, nofun⟩
      · refine ⟨he.name, haddress, ?_, nofun⟩
        rintro s ⟨⟩
        exact hmask
    · cases ho
  intro o ho
  obtain ⟨o', ho', rfl⟩ := Option.map_eq_some_iff.1 ho
  exact { hvalue o' ho' with description := oneLine_valueOf hsettings _ }

theorem oneLine_readGroup : ∀ g ∈ readGroup e, g.OneLine := by
  have hmembers := oneLine_of_mem_valuesOf he.settings "member"
  intro g hg
  rw [readGroup] at hg
  split at hg
  · cases hg
  · cases hg
    exact
      { name := he.name
        members := List.forall_mem_map.2 fun m hm => oneLine_endpointText (hmembers m hm)
        description := oneLine_valueOf he.settings _ }

theorem oneLine_readService : (readService e).OneLine where
  name := he.name
  protocol := (oneLine_readServicePorts he.settings).1
  port := (oneLine_readServicePorts he.settings).2
  description := oneLine_valueOf he.settings _

theorem oneLine_readPolicy : (readPolicy e).OneLine where
  name := oneLine_valueOf he.settings _
  protocol := (by decide : OneLine "ip")
  source := List.forall_mem_map.2 fun s hs =>
    oneLine_endpointText (oneLine_of_mem_valuesOf he.settings _ s hs)
  destination := List.forall_mem_map.2 fun s hs =>
    oneLine_endpointText (oneLine_of_mem_valuesOf he.settings _ s hs)
  service := List.forall_mem_filterMap.2 fun s hs t ht =>
    oneLine_serviceText (oneLine_of_mem_valuesOf he.settings _ s hs) t ht
  sourceZone := oneLine_readZone he.settings _
  destinationZone := oneLine_readZone he.settings _
  application := oneLine_of_mem_valuesOf he.settings _
  description := oneLine_valueOf he.settings _

theorem oneLine_readVip : ∀ r ∈ readVip e, r.OneLine := by
  intro r hr
  rw [readVip] at hr
  split at hr
  · next outer inner houter hinner =>
    have houter := oneLine_collapseRange (oneLine_valueOf he.settings _ outer houter)
    have hinner := oneLine_collapseRange (oneLine_valueOf he.settings _ inner hinner)
    cases hr
    exact
      { name := by simpa using he.name
        source := by simpa using hinner
        translated := by simpa using houter
        interface := oneLine_valueOf he.settings _
        description := oneLine_valueOf he.settings _ }
  · cases hr

theorem oneLine_readPool : ∀ r ∈ readPool e, r.OneLine := by
  intro r hr
  obtain ⟨first, hfirst, rfl⟩ := Option.map_eq_some_iff.1 hr
  have hfirst := oneLine_valueOf he.settings _ first hfirst
  have hlast := oneLine_getD (oneLine_valueOf he.settings "endip") hfirst
  refine
    { name := by simpa using he.name
      translated := ?_
      description := oneLine_valueOf he.settings _ }
  rintro s ⟨⟩
  split
  · exact hfirst
  · exact oneLine_range hfirst hlast

theorem oneLine_readRoute : ∀ r ∈ readRoute e, r.OneLine := by
  have hnetwork : ∀ n : Network,
      n = (networkOfValues (valuesOf e.settings "dst")).getD ⟨"0.0.0.0", "0.0.0.0"⟩ →
        OneLine n.address ∧ OneLine n.mask := by
    rintro n rfl
    cases hn : networkOfValues (valuesOf e.settings "dst") with
    | none => exact ⟨by decide, by decide⟩
    | some n => exact oneLine_networkOfValues (oneLine_of_mem_valuesOf he.settings "dst") hn
  intro r hr
  rw [readRoute] at hr
  split at hr
  · cases hr
  · cases hr
    exact
      { name := by simpa using he.name
        network := (hnetwork _ rfl).1
        mask := (hnetwork _ rfl).2
        gateway := oneLine_valueOf he.settings _
        interface := oneLine_valueOf he.settings _
        description := oneLine_valueOf he.settings _ }

theorem oneLine_readTunnel : ∀ t ∈ readTunnel e, t.OneLine := by
  intro t ht
  obtain ⟨peer, hpeer, rfl⟩ := Option.map_eq_some_iff.1 ht
  exact
    { name := he.name
      interface := oneLine_valueOf he.settings _
      peer := by simpa using oneLine_valueOf he.settings _ peer hpeer
      proposal := oneLine_joinedValues he.settings _
      preSharedKey := oneLine_joinedValues he.settings _
      acl := nofun
      description := oneLine_valueOf he.settings _ }

theorem oneLine_readSelector : ∀ s ∈ readSelector e, s.OneLine := by
  intro s hs
  obtain ⟨tunnel, htunnel, rfl⟩ := Option.map_eq_some_iff.1 hs
  exact
    { name := he.name
      tunnel := oneLine_valueOf he.settings _ tunnel htunnel
      proposal := oneLine_joinedValues he.settings _
      source := oneLine_joinedValues he.settings _
      destination := oneLine_joinedValues he.settings _ }

theorem oneLine_readAdmin : (readAdmin e).OneLine where
  username := he.name
  secret := oneLine_joinedValues he.settings _
  role := oneLine_valueOf he.settings _

theorem oneLine_readLocalUser : (readLocalUser e).OneLine where
  username := he.name
  secret := oneLine_joinedValues he.settings _
  role := by
    rintro s ⟨⟩
    decide

theorem oneLine_readLdapServer : (readLdapServer e).OneLine where
  name := he.name
  protocol := (by decide : OneLine "ldap")
  interface := oneLine_valueOf he.settings _
  host := oneLine_valueOf he.settings _
  port := oneLine_getD (oneLine_valueOf he.settings _) (by decide)
  baseDn := oneLine_valueOf he.settings _
  description := nofun

theorem oneLine_readCommunity : ∀ s ∈ readCommunity e, s.OneLine := by
  have hcommunity : OneLine ((valueOf e.settings "name").getD "public") :=
    oneLine_getD (oneLine_valueOf he.settings _) (by decide)
  have hhosts : ∀ h ∈ (e.children.filter (·.path == "hosts")).flatMap (·.entries),
      h.OneLine := by
    refine List.forall_mem_flatMap.2 fun s hs => ?_
    obtain ⟨-, hentries, -⟩ := he.children s (List.mem_filter.1 hs).1
    exact hentries
  have hversion : OneLine "2c" := by decide
  rw [readCommunity]
  split
  · exact List.forall_mem_singleton.2 { community := hcommunity, version := hversion }
  · refine List.forall_mem_map.2 fun h hh => ?_
    have hsettings := (hhosts h hh).settings
    refine
      { community := hcommunity
        version := hversion
        host := fun v hv => ?_
        interface := oneLine_valueOf hsettings _ }
    obtain ⟨ip, hip, hv⟩ := Option.bind_eq_some_iff.1 hv
    exact (oneLine_valueOf hsettings _ ip hip).of_mem_words (List.mem_of_mem_head? hv)

end Entries

theorem oneLine_readSyslog {s : Section String} (hs : s.OneLine) :
    ∀ t ∈ readSyslog s, t.OneLine := by
  obtain ⟨hsettings, -, -⟩ := hs
  intro t ht
  rw [readSyslog] at ht
  split at ht
  · cases ht
  · obtain ⟨host, hhost, rfl⟩ := Option.map_eq_some_iff.1 ht
    exact
      { target := (by decide : OneLine "host")
        level := (by decide : OneLine "informational")
        host := by simpa using oneLine_valueOf hsettings _ host hhost
        interface := oneLine_valueOf hsettings _ }

/-! ## The whole configuration -/

section Forest

variable {forest : List (Section String)} (h : ∀ s ∈ forest, s.OneLine)
include h

theorem oneLine_of_mem_sectionsAt (path : String) : ∀ s ∈ sectionsAt path forest, s.OneLine :=
  fun s hs => oneLine_of_mem_allSections h s (List.mem_filter.1 hs).1

theorem settings_of_mem_sectionsAt (path : String) :
    ∀ s ∈ sectionsAt path forest, SettingsOneLine s.settings := by
  intro s hs
  obtain ⟨hsettings, -, -⟩ := oneLine_of_mem_sectionsAt h path s hs
  exact hsettings

/-- What is read of each entry of a path holds no line feed, if this holds of one entry. -/
theorem forall_mem_filterMap_entriesAt {β : Type} {P : β → Prop} {f : Entry String → Option β}
    (hf : ∀ {e : Entry String}, e.OneLine → ∀ b ∈ f e, P b) (path : String) :
    ∀ b ∈ (entriesAt path forest).filterMap f, P b :=
  List.forall_mem_filterMap.2 fun e he => hf (oneLine_of_mem_entriesAt h path e he)

theorem forall_mem_map_entriesAt {β : Type} {P : β → Prop} {f : Entry String → β}
    (hf : ∀ {e : Entry String}, e.OneLine → P (f e)) (path : String) :
    ∀ b ∈ (entriesAt path forest).map f, P b :=
  List.forall_mem_map.2 fun e he => hf (oneLine_of_mem_entriesAt h path e he)

theorem oneLine_readHostname : ∀ s ∈ readHostname forest, OneLine s := by
  intro s hs
  obtain ⟨t, ht, hs⟩ := Option.bind_eq_some_iff.1 hs
  exact oneLine_valueOf
    (settings_of_mem_sectionsAt h _ t (List.mem_of_getLast? ht)) _ s hs

theorem oneLine_readTimezone : ∀ s ∈ readTimezone forest, OneLine s := by
  intro s hs
  obtain ⟨t, ht, hs⟩ := List.mem_filterMap.1 (List.mem_of_getLast? hs)
  exact oneLine_valueOf (settings_of_mem_sectionsAt h _ t ht) _ s hs

theorem oneLine_ofForest : (ofForest forest).OneLine := by
  refine Config.OneLine.foldl_putAddressObject (Config.OneLine.foldl_putInterface ?_
    (forall_mem_filterMap_entriesAt h oneLine_readInterface _))
    (forall_mem_filterMap_entriesAt h oneLine_readAddress _)
  exact
    { hostname := oneLine_readHostname h
      device := { timezone := oneLine_readTimezone h }
      addressGroups := forall_mem_filterMap_entriesAt h oneLine_readGroup _
      services := forall_mem_map_entriesAt h oneLine_readService _
      policies := forall_mem_map_entriesAt h oneLine_readPolicy _
      nat := List.forall_mem_append.2 ⟨forall_mem_filterMap_entriesAt h oneLine_readVip _,
        forall_mem_filterMap_entriesAt h oneLine_readPool _⟩
      routes := forall_mem_filterMap_entriesAt h oneLine_readRoute _
      vpn :=
        { tunnels := forall_mem_filterMap_entriesAt h oneLine_readTunnel _
          selectors := forall_mem_filterMap_entriesAt h oneLine_readSelector _ }
      users := List.forall_mem_append.2 ⟨forall_mem_map_entriesAt h oneLine_readAdmin _,
        forall_mem_map_entriesAt h oneLine_readLocalUser _⟩
      aaaServers := forall_mem_map_entriesAt h oneLine_readLdapServer _
      management :=
        { logging := List.forall_mem_filterMap.2 fun s hs =>
            oneLine_readSyslog (oneLine_of_mem_sectionsAt h _ s hs)
          snmp := List.forall_mem_flatMap.2 fun e he =>
            oneLine_readCommunity (oneLine_of_mem_entriesAt h _ e he) } }

end Forest

/-- **No text of a configuration that was read holds a line feed.** -/
theorem oneLine_read (text : String) : (read text).OneLine :=
  oneLine_ofForest (oneLine_readForest text)

end FirewallConfig.FortiOs
