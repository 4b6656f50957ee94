import FirewallConfig.Proofs.Config.Put
import FirewallConfig.Proofs.PanOs.Block
import FirewallConfig.Proofs.PanOs.Document

/-!
# Proofs/PanOs/Part — each part of what is read comes from the entries of one area

A `Part` of what is read is changed by the entries of one area and by nothing else.  What it holds
after a scan is put together from these entries alone (`Part.get_run_write`): an entry of any other
area, a setting and the comment do not reach it.  `areaEntries` says which entries these are.  The
texts that stand outside all areas are the same for one tag each (`Setting.get_read_write`).
-/

namespace FirewallConfig.PanOs

open Xml (Node IsName)

/-! ## What an event can change -/

theorem addEntry_interfaces (c : Config) (b : Block) (name : String) :
    addEntry c b name .interfaces
      = { c with
          interfaces := (readInterface b name :: readUnits b).foldl
            (fun is i => putBy (·.name) i is) c.interfaces } :=
  foldl_putInterface_eq (readInterface b name :: readUnits b) c

theorem addEntry_addresses (c : Config) (b : Block) (name : String) :
    addEntry c b name .addresses
      = { c with
          addressObjects := (readAddress b name).toList.foldl
            (fun os o => putBy (·.name) o os) c.addressObjects } :=
  foldl_putAddressObject_eq _ c

/-- A setting names the device, its domain or its time zone. -/
theorem settingLine_eq (c : Config) (line : String) :
    Reading.settingLine c line
      = { c with
          hostname := (leafText "hostname" line).or c.hostname
          device :=
            { c.device with
              timezone :=
                if (leafText "hostname" line).isSome then c.device.timezone
                else (leafText "timezone" line).or c.device.timezone
              domain :=
                if (leafText "hostname" line).isSome || (leafText "timezone" line).isSome then
                  c.device.domain
                else (leafText "domain" line).or c.device.domain } } := by
  rw [Reading.settingLine]
  cases leafText "hostname" line <;> cases leafText "timezone" line
    <;> cases leafText "domain" line <;> rfl

/-! ## Parts -/

/-- A part of what is read that only the entries of one area change. -/
structure Part (σ : Type) where
  area : Area
  /-- The part of a configuration. -/
  get : Config → σ
  /-- The part with one more entry in it. -/
  put : σ → Block → String → σ
  get_addEntry : ∀ c b name a,
      get (addEntry c b name a) = if a = area then put (get c) b name else get c := by
    intro c b name a
    cases a <;> first | rfl | simp [addEntry_interfaces, addEntry_addresses]
  get_settingLine : ∀ c line, get (Reading.settingLine c line) = get c := by
    intro c line
    simp [settingLine_eq]

/-- The entries of an area among some events. -/
def entriesOf (a : Area) (es : List Event) : List Node :=
  es.filterMap fun
    | .entry b n => if b = a then some n else none
    | .setting _ _ => none

namespace Part

variable {σ : Type} (p : Part σ)

/-- The part with one more entry in it; an entry without a name adds nothing. -/
def take (s : σ) (n : Node) : σ :=
  let b := Block.ofLines n.lines
  match b.name with
  | some name => p.put s b name
  | none => s

theorem take_entry (s : σ) (name : String) (children : List Node) :
    p.take s (entry name children)
      = p.put s (Block.ofLines (entry name children).lines) name := by
  rw [take, name_ofLines]

theorem get_apply_entry (c : Config) (a : Area) (n : Node) :
    p.get ((Event.entry a n).apply c) = if a = p.area then p.take (p.get c) n else p.get c := by
  rw [Event.apply, Reading.takeEntry, take]
  cases (Block.ofLines n.lines).name with
  | none => exact (ite_self _).symm
  | some name => exact p.get_addEntry c _ name a

/-- **A run of events changes a part by the entries of its area**, in order. -/
theorem get_foldl_apply (es : List Event) (c : Config) :
    p.get (es.foldl Event.apply c) = (entriesOf p.area es).foldl p.take (p.get c) := by
  induction es generalizing c with
  | nil => rfl
  | cons e es ih =>
    rw [List.foldl_cons, ih]
    cases e with
    | setting tag text =>
      rw [Event.apply, p.get_settingLine]
      rfl
    | entry a n =>
      rw [p.get_apply_entry, entriesOf, entriesOf, List.filterMap_cons]
      by_cases h : a = p.area
      · rw [if_pos h]
        simp only [if_pos h, List.foldl_cons]
      · rw [if_neg h]
        simp only [if_neg h]

/-! ### What every entry keeps -/

section Keeps

variable {P : σ → Prop} (hput : ∀ s b name, P s → P (p.put s b name))
include hput

theorem keeps_takeEntry {r : Reading} (hr : P (p.get r.config)) (lines : List String) :
    P (p.get (r.takeEntry lines).config) := by
  rw [Reading.takeEntry]
  split
  · dsimp only
    rw [p.get_addEntry]
    split
    · exact hput _ _ _ hr
    · exact hr
  · exact hr

theorem keeps_step {r : Reading} (hr : P (p.get r.config)) (raw : String) :
    P (p.get (r.step raw).config) := by
  rw [Reading.step]
  split
  · rw [Reading.idleLine]
    split
    · exact hr
    · dsimp only
      rwa [p.get_settingLine]
    · split
      · exact hr
      · split
        · exact hr
        · split
          · exact p.keeps_takeEntry hput hr _
          · exact hr
  · dsimp only
    split
    · exact p.keeps_takeEntry hput hr _
    · exact hr

/-- **What every entry keeps holds of a part after any scan**, also of lines that nobody wrote. -/
theorem keeps_run {r : Reading} (hr : P (p.get r.config)) (ls : List String) :
    P (p.get (r.run ls).config) := by
  induction ls generalizing r with
  | nil => exact hr
  | cons l ls ih => exact ih (p.keeps_step hput hr l)

end Keeps

end Part

/-! ## The entries of a document -/

section EntriesOf

variable (a : Area)

theorem entriesOf_append (es fs : List Event) :
    entriesOf a (es ++ fs) = entriesOf a es ++ entriesOf a fs := List.filterMap_append

theorem entriesOf_entries (b : Area) (ns : List Node) :
    entriesOf a (ns.map (Event.entry b)) = if b = a then ns else [] := by
  rw [entriesOf, List.filterMap_map]
  split
  · next h =>
    have hsome : (fun n => if b = a then some n else none) = (some : Node → Option Node) :=
      funext fun n => if_pos h
    exact (congrArg (fun f => ns.filterMap f) hsome).trans List.filterMap_some
  · next h => exact List.filterMap_eq_nil_iff.2 fun n _ => if_neg h

theorem entriesOf_eq_nil {es : List Event} (h : ∀ e ∈ es, ∃ tag text, e = .setting tag text) :
    entriesOf a es = [] := by
  refine List.filterMap_eq_nil_iff.2 fun e he => ?_
  obtain ⟨tag, text, rfl⟩ := h e he
  rfl

end EntriesOf

/-- The entries that the writer makes for an area. -/
def areaEntries (c : Config) : Area → List Node
  | .interfaces => c.interfaces.map interfaceEntry
  | .zones => (writtenZones c).map zoneEntry
  | .addresses => c.addressObjects.map addressEntry
  | .addressGroups => c.addressGroups.map groupEntry
  | .services => serviceEntries c
  | .security => securityEntries c
  | .nat => natEntries c
  | .routes => routeEntries c
  | .ikeGateways => c.vpn.peeredTunnels.map fun (t, peer) => gatewayEntry c t peer
  | .ipsecTunnels => c.vpn.peeredTunnels.zipIdx.map fun ((t, _), position) => tunnelEntry c t position
  | .admins => c.users.map userEntry
  | .applications => c.applications.map applicationEntry
  | .urlCategories => c.urlCategories.map urlCategoryEntry

theorem isSetting_settings (tag : String) (text : Option String) :
    ∀ e ∈ settings tag text, ∃ t s, e = .setting t s := by
  intro e he
  obtain ⟨s, -, rfl⟩ := List.mem_map.1 he
  exact ⟨tag, s, rfl⟩

theorem isSetting_deviceEvents (c : Config) :
    ∀ e ∈ deviceEvents c, ∃ t s, e = .setting t s := by
  rw [deviceEvents, List.forall_mem_append, List.forall_mem_append, List.forall_mem_cons]
  exact ⟨⟨⟨⟨_, _, rfl⟩, isSetting_settings _ _⟩, isSetting_settings _ _⟩, isSetting_settings _ _⟩

theorem isSetting_sharedEvents (c : Config) :
    ∀ e ∈ sharedEvents c, ∃ t s, e = .setting t s := by
  refine List.forall_mem_append.2 ⟨fun e he => ?_, fun e he => ?_⟩
  · obtain ⟨s, -, he⟩ := List.mem_flatMap.1 he
    rcases List.mem_append.1 he with he | he
    · obtain ⟨host, -, he⟩ := List.mem_flatMap.1 he
      simp only [List.mem_cons, List.not_mem_nil, or_false] at he
      rcases he with rfl | rfl <;> exact ⟨_, _, rfl⟩
    · exact isSetting_settings _ _ e he
  · obtain ⟨host, -, rfl⟩ := List.mem_map.1 he
    exact ⟨_, _, rfl⟩

/-- The entries of the routes come behind the settings of their router. -/
theorem entriesOf_routeEvents (a : Area) (c : Config) :
    entriesOf a (if (routeEntries c).isEmpty then []
      else c.interfaces.map (fun i => Event.setting "member" i.name)
        ++ (routeEntries c).map (.entry .routes))
      = if .routes = a then routeEntries c else [] := by
  split
  · next h =>
    rw [List.isEmpty_iff.1 h]
    exact (ite_self _).symm
  · rw [entriesOf_append, entriesOf_entries, entriesOf_eq_nil a, List.nil_append]
    intro e he
    obtain ⟨i, -, rfl⟩ := List.mem_map.1 he
    exact ⟨_, _, rfl⟩

/-- **The events of a document hold the entries of each area**, and no others of it. -/
theorem entriesOf_documentEvents (a : Area) (c : Config) :
    entriesOf a (documentEvents c) = areaEntries c a := by
  simp only [documentEvents, networkEvents, systemEvents, entriesOf_append, entriesOf_entries,
    entriesOf_routeEvents, entriesOf_eq_nil a (isSetting_sharedEvents c),
    entriesOf_eq_nil a (isSetting_deviceEvents c)]
  cases a <;> simp [areaEntries]

/-- **A part of what is read comes from the entries of its area**, whatever else the document
holds. -/
theorem Part.get_run_write {σ : Type} (p : Part σ) (origin : Dialect) {c : Config}
    (hc : c.OneLine) :
    p.get (Reading.run {} (Text.lines (write origin c))).config
      = (areaEntries c p.area).foldl p.take (p.get {}) := by
  rw [run_document origin hc, p.get_foldl_apply, entriesOf_documentEvents]

/-! ## The device -/

/-- The texts of a setting among some events. -/
def settingsOf (tag : String) (es : List Event) : List String :=
  es.filterMap fun
    | .entry _ _ => none
    | .setting t text => if t = tag then some text else none

/-- A line of an element is found to have the text of its own tag only. -/
theorem settingLine_leaf (c : Config) {t : String} (text : String) (ht : IsName t)
    (hentry : t ≠ "entry") :
    Reading.settingLine c (Mark.leaf t text).line
      = if t = "hostname" then { c with hostname := some text }
        else if t = "timezone" then { c with device := { c.device with timezone := some text } }
        else if t = "domain" then { c with device := { c.device with domain := some text } }
        else c := by
  have hleaf {tag : String} (htag : IsName tag) :
      leafText tag (Mark.leaf t text).line = if t = tag then some text else none :=
    Mark.leafText_line htag (m := .leaf t text) ⟨ht, hentry⟩
  rw [Reading.settingLine, hleaf (by decide), hleaf (by decide), hleaf (by decide)]
  by_cases hhostname : t = "hostname"
  · simp only [if_pos hhostname]
  · by_cases htimezone : t = "timezone"
    · simp only [if_neg hhostname, if_pos htimezone]
    · by_cases hdomain : t = "domain"
      · simp only [if_neg hhostname, if_neg htimezone, if_pos hdomain]
      · simp only [if_neg hhostname, if_neg htimezone, if_neg hdomain]

/-- A text of what is read that only the elements of one tag set. -/
structure Setting where
  tag : String
  get : Config → Option String
  get_addEntry : ∀ c b name a, get (addEntry c b name a) = get c := by
    intro c b name a
    cases a <;> first | rfl | simp [addEntry_interfaces, addEntry_addresses]
  get_settingLine : ∀ c t text, IsName t → t ≠ "entry" →
      get (Reading.settingLine c (Mark.leaf t text).line) = if t = tag then some text else get c := by
    intro c t text ht hentry
    rw [settingLine_leaf c text ht hentry]
    grind

/-- What is scanned outside all areas has names. -/
theorem Scans.isName_setting {area : Option Area} {ns : List Node} {es : List Event}
    (h : Scans area ns es) {tag text : String} (hmem : .setting tag text ∈ es) :
    IsName tag ∧ tag ≠ "entry" := by
  induction h with
  | nil => cases hmem
  | append _ _ ihn ihm => exact (List.mem_append.1 hmem).elim ihn ihm
  | entry a hn => cases List.mem_singleton.1 hmem
  | plain _ _ ih | area _ _ ih | branch _ _ _ _ ih => exact ih hmem
  | setting htag hentry _ =>
    cases List.mem_singleton.1 hmem
    exact ⟨htag, hentry⟩

namespace Setting

variable (p : Setting)

theorem get_apply_entry (c : Config) (a : Area) (n : Node) :
    p.get ((Event.entry a n).apply c) = p.get c := by
  rw [Event.apply, Reading.takeEntry]
  cases (Block.ofLines n.lines).name with
  | none => rfl
  | some name => exact p.get_addEntry c _ name a

/-- **A run of events sets a text to the last one of its tag**, if there is one. -/
theorem get_foldl_apply {es : List Event}
    (h : ∀ tag text, .setting tag text ∈ es → IsName tag ∧ tag ≠ "entry") (c : Config) :
    p.get (es.foldl Event.apply c) = (settingsOf p.tag es).getLast?.or (p.get c) := by
  induction es generalizing c with
  | nil => rfl
  | cons e es ih =>
    rw [List.foldl_cons, ih fun tag text hmem => h tag text (List.mem_cons_of_mem _ hmem)]
    cases e with
    | entry a n =>
      rw [p.get_apply_entry]
      rfl
    | setting t text =>
      obtain ⟨ht, hentry⟩ := h t text List.mem_cons_self
      rw [Event.apply, p.get_settingLine c t text ht hentry, settingsOf, settingsOf,
        List.filterMap_cons]
      by_cases htag : t = p.tag
      · simp only [if_pos htag, List.getLast?_cons, Option.some_or]
        cases List.getLast? _ <;> rfl
      · simp only [if_neg htag]

end Setting

section SettingsOf

variable (tag : String)

theorem settingsOf_append (es fs : List Event) :
    settingsOf tag (es ++ fs) = settingsOf tag es ++ settingsOf tag fs := List.filterMap_append

theorem settingsOf_settings (t : String) (text : Option String) :
    settingsOf tag (settings t text) = if t = tag then text.toList else [] := by
  cases text with
  | none => exact (ite_self _).symm
  | some s =>
    by_cases h : t = tag
    · simp [settingsOf, settings, h]
    · simp [settingsOf, settings, h]

variable {tag}

theorem settingsOf_eq_nil {es : List Event} (h : ∀ text, .setting tag text ∉ es) :
    settingsOf tag es = [] := by
  refine List.filterMap_eq_nil_iff.2 fun e he => ?_
  cases e with
  | entry _ _ => rfl
  | setting t text =>
    refine if_neg ?_
    rintro rfl
    exact h text he

theorem settingsOf_entries (a : Area) (ns : List Node) :
    settingsOf tag (ns.map (Event.entry a)) = [] := by
  refine settingsOf_eq_nil fun text hmem => ?_
  obtain ⟨n, -, h⟩ := List.mem_map.1 hmem
  cases h

/-- The servers and the router set nothing of the device. -/
theorem settingsOf_documentEvents (htag : tag ∈ ["hostname", "timezone", "domain"]) (c : Config) :
    settingsOf tag (documentEvents c) = settingsOf tag (deviceEvents c) := by
  have hothers : ∀ t ∈ ["address", "port", "base", "server", "member"], t ≠ tag := by
    revert tag
    decide
  have hshared : settingsOf tag (sharedEvents c) = [] := by
    refine settingsOf_eq_nil fun text hmem => ?_
    rcases List.mem_append.1 hmem with hmem | hmem
    · obtain ⟨s, -, hmem⟩ := List.mem_flatMap.1 hmem
      rcases List.mem_append.1 hmem with hmem | hmem
      · obtain ⟨host, -, hmem⟩ := List.mem_flatMap.1 hmem
        simp only [List.mem_cons, Event.setting.injEq, List.not_mem_nil, or_false] at hmem
        rcases hmem with ⟨h, -⟩ | ⟨h, -⟩
        · exact hothers "address" (by decide) h.symm
        · exact hothers "port" (by decide) h.symm
      · obtain ⟨s, -, h⟩ := List.mem_map.1 hmem
        exact hothers "base" (by decide) (Event.setting.inj h).1
    · obtain ⟨host, -, h⟩ := List.mem_map.1 hmem
      exact hothers "server" (by decide) (Event.setting.inj h).1
  have hnetwork : settingsOf tag (networkEvents c) = [] := by
    simp only [networkEvents, settingsOf_append, settingsOf_entries, List.nil_append,
      List.append_nil]
    split
    · rfl
    · rw [settingsOf_append, settingsOf_entries, List.append_nil]
      refine settingsOf_eq_nil fun text hmem => ?_
      obtain ⟨i, -, h⟩ := List.mem_map.1 hmem
      exact hothers "member" (by decide) (Event.setting.inj h).1
  simp only [documentEvents, systemEvents, settingsOf_append, settingsOf_entries, hshared, hnetwork,
    List.nil_append, List.append_nil]

end SettingsOf

/-- **A text of the device is what was set for it**, whatever else the document holds. -/
theorem Setting.get_read_write (p : Setting) {origin : Dialect} {c r : Config} (hc : c.OneLine)
    (hr : r = read (write origin c)) (htag : p.tag ∈ ["hostname", "timezone", "domain"])
    (hnone : p.get {} = none) (hjoin : ∀ c is, p.get { c with interfaces := is } = p.get c) :
    p.get r = (settingsOf p.tag (deviceEvents c)).getLast? := by
  rw [hr, read, hjoin, run_document origin hc,
    p.get_foldl_apply fun _ _ => (scans_root hc).isName_setting, hnone,
    settingsOf_documentEvents htag, Option.or_none]

/-- The name of the device. -/
def hostnameSetting : Setting where
  tag := "hostname"
  get := (·.hostname)

/-- The time zone of the device. -/
def timezoneSetting : Setting where
  tag := "timezone"
  get := (·.device.timezone)

/-- The domain of the device. -/
def domainSetting : Setting where
  tag := "domain"
  get := (·.device.domain)

theorem getLast?_settingsOf_deviceEvents (c : Config) :
    (settingsOf "hostname" (deviceEvents c)).getLast? = some (c.hostnameOr "palo-alto-converted")
      ∧ (settingsOf "timezone" (deviceEvents c)).getLast? = c.device.timezone
      ∧ (settingsOf "domain" (deviceEvents c)).getLast? = c.device.domain := by
  have hevents (tag : String) : settingsOf tag (deviceEvents c)
      = (if "hostname" = tag then [c.hostnameOr "palo-alto-converted"] else [])
        ++ (if "domain" = tag then c.device.domain.toList else [])
        ++ (if "timezone" = tag then c.device.timezone.toList else [])
        ++ (if "snmp-community-string" = tag then
            (c.management.snmp.head?.map (·.community)).toList else []) := by
    have hhostname : settingsOf tag [.setting "hostname" (c.hostnameOr "palo-alto-converted")]
        = if "hostname" = tag then [c.hostnameOr "palo-alto-converted"] else [] :=
      settingsOf_settings tag "hostname" (some (c.hostnameOr "palo-alto-converted"))
    rw [deviceEvents, settingsOf_append, settingsOf_append, settingsOf_settings,
      settingsOf_settings, ← List.singleton_append, settingsOf_append, settingsOf_settings, hhostname]
  refine ⟨?_, ?_, ?_⟩
  · rw [hevents]
    rfl
  · rw [hevents]
    cases c.device.timezone <;> rfl
  · rw [hevents]
    cases c.device.domain <;> rfl

end FirewallConfig.PanOs
