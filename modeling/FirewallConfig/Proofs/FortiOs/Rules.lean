import FirewallConfig.Proofs.Config.Put
import FirewallConfig.Proofs.FortiOs.Document
import FirewallConfig.Proofs.Text.Numeral

/-!
# Proofs/FortiOs/Rules — the rules of a written configuration are read back

A rule keeps its place, its action, its switches and its description, and it is numbered by its
place; its name is the one that tells it apart, and its endpoints, services and zones are the names
that are written for them.  Nothing else in the configuration adds a rule, drops one, or changes
one: `policies_read` finds the rules in the entries of one path, and `entriesAt_listings` says what
is written under each path.
-/

namespace FirewallConfig.FortiOs

/-! ## The entries of a path -/

theorem allSections_append (ss ts : List (Section String)) :
    allSections (ss ++ ts) = allSections ss ++ allSections ts := by
  induction ss with
  | nil => rfl
  | cons s ss ih => rw [List.cons_append, allSections, allSections, ih, List.append_assoc]

theorem entriesAt_append (path : String) (ss ts : List (Section String)) :
    entriesAt path (ss ++ ts) = entriesAt path ss ++ entriesAt path ts := by
  rw [entriesAt, sectionsAt, allSections_append, List.filter_append, List.flatMap_append]
  rfl

/-- No section of a path, no entry of it. -/
theorem entriesAt_eq_nil {path : String} {forest : List (Section String)}
    (h : ∀ s ∈ allSections forest, s.path ≠ path) : entriesAt path forest = [] := by
  rw [entriesAt, sectionsAt, List.filter_eq_nil_iff.2 fun s hs => by simpa using h s hs]
  rfl

/-- Entries that hold no sections hold no sections anywhere below. -/
theorem allInEntries_readBack {es : List (Entry Value)} (h : ∀ e ∈ es, e.children = []) :
    allInEntries (readBackEntries es) = [] := by
  induction es with
  | nil => rfl
  | cons e es ih =>
    obtain ⟨he, hes⟩ := List.forall_mem_cons.1 h
    obtain ⟨name, settings, children⟩ := e
    cases he
    rw [readBackEntries, allInEntries, ih hes]
    rfl

/-- The sections of a list of entries: one, if there are entries. -/
theorem allSections_listed {path : String} {es : List (Entry Value)}
    (h : ∀ e ∈ es, e.children = []) :
    allSections ((listed path es).map Section.readBack)
      = if es.isEmpty then [] else [⟨path, [], readBackEntries es, []⟩] := by
  rw [listed]
  split
  · rfl
  · rw [List.map_singleton, Section.readBack, allSections, Section.all, allInEntries_readBack h]
    rfl

theorem entriesAt_listed {path : String} {es : List (Entry Value)}
    (h : ∀ e ∈ es, e.children = []) :
    entriesAt path ((listed path es).map Section.readBack) = es.map Entry.readBack := by
  rw [entriesAt, sectionsAt, allSections_listed h]
  split
  · next hempty => rw [List.isEmpty_iff.1 hempty]; rfl
  · simp [readBackEntries_eq_map]

theorem entriesAt_listed_of_ne {path other : String} (hne : other ≠ path) {es : List (Entry Value)}
    (h : ∀ e ∈ es, e.children = []) :
    entriesAt path ((listed other es).map Section.readBack) = [] := by
  refine entriesAt_eq_nil fun s hs => ?_
  rw [allSections_listed h] at hs
  split at hs
  · cases hs
  · rw [List.mem_singleton.1 hs]
    exact hne

/-! ## Looking up a setting -/

theorem find?_key_eq {settings : List (Setting String)} (hkeys : (settings.map Setting.key).Nodup)
    {s : Setting String} (hs : s ∈ settings) :
    settings.find? (·.key == s.key) = some s := by
  induction settings with
  | nil => cases hs
  | cons t ts ih =>
    obtain ⟨ht, hts⟩ := List.nodup_cons.1 hkeys
    rcases List.mem_cons.1 hs with rfl | hs
    · exact List.find?_cons_of_pos (by simp)
    · have hne : t.key ≠ s.key := fun heq => ht (heq ▸ List.mem_map_of_mem hs)
      rw [List.find?_cons_of_neg (by simpa using hne), ih hts hs]

/-- A key that stands once is found. -/
theorem valuesOf_eq {settings : List (Setting String)}
    (hkeys : (settings.map Setting.key).Nodup) {s : Setting String} (hs : s ∈ settings) :
    valuesOf settings s.key = s.values := by
  have hreverse : (settings.reverse.map Setting.key).Nodup := by
    rw [List.map_reverse]
    exact List.pairwise_reverse.2 (hkeys.imp Ne.symm)
  rw [valuesOf, find?_key_eq hreverse (List.mem_reverse.2 hs)]

/-- A key that stands nowhere has no values. -/
theorem valuesOf_eq_nil {settings : List (Setting String)} {key : String}
    (h : key ∉ settings.map Setting.key) : valuesOf settings key = [] := by
  have hfind : settings.reverse.find? (·.key == key) = none := by
    refine List.find?_eq_none.2 fun s hs hkey => h ?_
    rw [← beq_iff_eq.1 hkey]
    exact List.mem_map_of_mem (List.mem_reverse.1 hs)
  rw [valuesOf, hfind]

theorem valuesOf_append_singleton (settings : List (Setting String)) (s : Setting String)
    (key : String) :
    valuesOf (settings ++ [s]) key = if s.key = key then s.values else valuesOf settings key := by
  by_cases hkey : s.key = key <;> simp [valuesOf, hkey]

theorem valuesOf_singleton (s : Setting String) (key : String) :
    valuesOf [s] key = if s.key = key then s.values else [] := valuesOf_append_singleton [] s key

/-- **A setting that may be missing** decides on its own key, and on no other. -/
theorem valuesOf_append_setting? {α : Type} (settings : List (Setting String)) (key' key : String)
    (value : Option α) (f : α → String) :
    valuesOf (settings ++ value.toList.map fun v => ⟨key', [f v]⟩) key
      = if key' = key then (value.map fun v => [f v]).getD (valuesOf settings key)
        else valuesOf settings key := by
  cases value with
  | none => simp
  | some v => exact valuesOf_append_singleton settings _ key

/-- So does a setting that stands under a condition. -/
theorem valuesOf_append_if (settings : List (Setting String)) (applies : Bool)
    (s : Setting String) (key : String) :
    valuesOf (settings ++ if applies then [s] else []) key
      = if applies ∧ s.key = key then s.values else valuesOf settings key := by
  cases applies with
  | false => simp
  | true => simpa using valuesOf_append_singleton settings s key

theorem valueOf_append_singleton (settings : List (Setting String)) (s : Setting String)
    (key : String) :
    valueOf (settings ++ [s]) key
      = if s.key = key then s.values.head? else valueOf settings key := by
  rw [valueOf, valuesOf_append_singleton, apply_ite List.head?]
  rfl

theorem valueOf_singleton (s : Setting String) (key : String) :
    valueOf [s] key = if s.key = key then s.values.head? else none :=
  valueOf_append_singleton [] s key

theorem valueOf_append_setting? {α : Type} (settings : List (Setting String)) (key' key : String)
    (value : Option α) (f : α → String) :
    valueOf (settings ++ value.toList.map fun v => ⟨key', [f v]⟩) key
      = if key' = key then (value.map f).or (valueOf settings key) else valueOf settings key := by
  rw [valueOf, valuesOf_append_setting?, apply_ite List.head?]
  cases value <;> rfl

theorem valueOf_append_if (settings : List (Setting String)) (applies : Bool)
    (s : Setting String) (key : String) :
    valueOf (settings ++ if applies then [s] else []) key
      = if applies ∧ s.key = key then s.values.head? else valueOf settings key := by
  rw [valueOf, valuesOf_append_if, apply_ite List.head?]
  rfl

/-- **An optional setting at the end** has its value, if it has no other place. -/
theorem valueOf_append_toList {settings : List (Setting String)} {key : String}
    (hkey : key ∉ settings.map Setting.key) (value : Option String) :
    valueOf (settings ++ value.toList.map fun v => ⟨key, [v]⟩) key = value := by
  have hnone : valueOf settings key = none := congrArg List.head? (valuesOf_eq_nil hkey)
  rw [valueOf_append_setting?, if_pos rfl, hnone, Option.or_none, Option.map_id']

/-! ## One rule -/

/-- The zone of a rule: none where it is any. -/
def zoneOf (c : Config) (zone : Option String) : Option String :=
  if zoneName c zone = anyText then none else some (zoneName c zone)

/-- What a rule is read back as. -/
def ruleReadBack (c : Config) (p : Policy) (position : Nat) : Policy where
  name := some (p.labelAmong c.effectivePolicies position)
  id := some (UInt32.ofNat (position + 1))
  action := p.action
  source := (p.sources.map addressName).map endpointText
  destination := (p.destinations.map addressName).map endpointText
  service := (p.services.map fun s => serviceName (c.resolveService s)).filterMap serviceText
  sourceZone := zoneOf c p.sourceZone
  destinationZone := zoneOf c p.destinationZone
  description := p.description
  enabled := p.enabled
  log := p.log

/-- The settings of a rule. -/
def ruleSettings (c : Config) (p : Policy) (position : Nat) : List (Setting String) :=
  [⟨"name", [p.labelAmong c.effectivePolicies position]⟩,
   ⟨"srcintf", [zoneName c p.sourceZone]⟩,
   ⟨"dstintf", [zoneName c p.destinationZone]⟩,
   ⟨"srcaddr", p.sources.map addressName⟩,
   ⟨"dstaddr", p.destinations.map addressName⟩,
   ⟨"action", [if p.action.isPermit then "accept" else "deny"]⟩,
   ⟨"schedule", ["always"]⟩,
   ⟨"service", p.services.map fun s => serviceName (c.resolveService s)⟩]
    ++ (if p.log then [⟨"logtraffic", ["all"]⟩] else [])
    ++ (if p.enabled then [] else [⟨"status", ["disable"]⟩])
    ++ p.description.toList.map fun d => ⟨"comments", [d]⟩

theorem readBack_quotedSetting (key : String) (values : List String) :
    (quotedSetting key values).readBack = ⟨key, values⟩ := by
  rw [quotedSetting, Setting.readBack, readValues_quoted]
  rfl

/-- A word without a quote needs none around it. -/
theorem isBareWord_of_isWord {s : String} (h : Text.IsWord s) (hquote : '"' ∉ s.toList) :
    IsBareWord s.toList := ⟨h.1, fun c hc => ⟨h.2 c hc, fun heq => hquote (heq ▸ hc)⟩⟩

theorem readBack_bareSetting_words (key : String) {ws : List String}
    (h : ∀ w ∈ ws, IsBareWord w.toList) : (bareSetting key ws).readBack = ⟨key, ws⟩ := by
  have htext : (ws.map Value.bare).map Value.text = ws := (List.map_map ..).trans (List.map_id ws)
  rw [bareSetting, Setting.readBack, readValues_eq (List.forall_mem_map.2 h), htext]
  rfl

theorem readBack_bareSetting (key : String) {word : String} (h : IsBareWord word.toList) :
    (bareSetting key [word]).readBack = ⟨key, [word]⟩ :=
  readBack_bareSetting_words key (List.forall_mem_singleton.2 h)

theorem map_readBack_quotedSetting? (key : String) (value : Option String) :
    (quotedSetting? key value).map Setting.readBack = value.toList.map fun v => ⟨key, [v]⟩ := by
  rw [quotedSetting?, List.map_map]
  exact List.map_congr_left fun v _ => readBack_quotedSetting key [v]

theorem readBack_ruleEntry (c : Config) (p : Policy) (position : Nat) :
    (ruleEntry c c.effectivePolicies p position).readBack
      = ⟨toString (position + 1), ruleSettings c p position, []⟩ := by
  have haction : IsBareWord (if p.action.isPermit then "accept" else "deny").toList := by
    split <;> decide
  have hlog : (settingIf p.log (bareSetting "logtraffic" ["all"])).map Setting.readBack
      = if p.log then [⟨"logtraffic", ["all"]⟩] else [] := by
    rw [settingIf]
    split
    · rw [List.map_singleton, readBack_bareSetting _ (by decide)]
    · rfl
  have hstatus : (settingIf (!p.enabled) (bareSetting "status" ["disable"])).map Setting.readBack
      = if p.enabled then [] else [⟨"status", ["disable"]⟩] := by
    rw [settingIf]
    cases p.enabled
    · rw [Bool.not_false, if_pos rfl, List.map_singleton, readBack_bareSetting _ (by decide)]
      rfl
    · rfl
  rw [ruleEntry, Entry.readBack, List.map_append, List.map_append, List.map_append, hlog, hstatus,
    map_readBack_quotedSetting?]
  simp only [List.map_cons, List.map_nil, readBack_quotedSetting, readBack_bareSetting _ haction]
  rfl

/-- No key stands twice in a rule. -/
theorem nodup_ruleSettings (c : Config) (p : Policy) (position : Nat) :
    ((ruleSettings c p position).map Setting.key).Nodup := by
  rw [ruleSettings]
  cases p.log <;> cases p.enabled <;> cases p.description <;> simp

/-! ### Reading the settings of a rule -/

section

variable {c : Config} {p : Policy} {position : Nat} {key : String}

theorem valuesOf_ruleSettings {values : List String}
    (h : (⟨key, values⟩ : Setting String) ∈ ruleSettings c p position) :
    valuesOf (ruleSettings c p position) key = values :=
  valuesOf_eq (nodup_ruleSettings c p position) h

theorem valueOf_ruleSettings {value : String}
    (h : (⟨key, [value]⟩ : Setting String) ∈ ruleSettings c p position) :
    valueOf (ruleSettings c p position) key = some value := by
  rw [valueOf, valuesOf_ruleSettings h]
  rfl

theorem valueOf_ruleSettings_eq_none (h : key ∉ (ruleSettings c p position).map Setting.key) :
    valueOf (ruleSettings c p position) key = none := by
  rw [valueOf, valuesOf_eq_nil h]
  rfl

theorem readZone_ruleSettings {zone : Option String}
    (h : (⟨key, [zoneName c zone]⟩ : Setting String) ∈ ruleSettings c p position) :
    readZone (ruleSettings c p position) key = zoneOf c zone := by
  rw [readZone, valueOf_ruleSettings h, zoneOf]
  by_cases hany : zoneName c zone = anyText <;> simp [hany]

variable (c p position)

theorem action_ruleSettings :
    Action.ofText ((valueOf (ruleSettings c p position) "action").getD "deny") = p.action := by
  have hword : valueOf (ruleSettings c p position) "action"
      = some (if p.action.isPermit then "accept" else "deny") :=
    valueOf_ruleSettings (by simp [ruleSettings])
  rw [hword, Option.getD_some]
  cases p.action <;> decide

theorem description_ruleSettings :
    valueOf (ruleSettings c p position) "comments" = p.description := by
  cases hd : p.description with
  | none =>
    refine valueOf_ruleSettings_eq_none ?_
    rw [ruleSettings, hd]
    cases p.log <;> cases p.enabled <;> simp
  | some d => exact valueOf_ruleSettings (by simp [ruleSettings, hd])

/-- A rule is in force unless it says that it is not. -/
theorem enabled_ruleSettings :
    (valueOf (ruleSettings c p position) "status" != some "disable") = p.enabled := by
  cases he : p.enabled with
  | true =>
    have hnone : valueOf (ruleSettings c p position) "status" = none := by
      refine valueOf_ruleSettings_eq_none ?_
      rw [ruleSettings, he]
      cases p.log <;> cases p.description <;> simp
    rw [hnone]
    rfl
  | false =>
    have hdisable : valueOf (ruleSettings c p position) "status" = some "disable" :=
      valueOf_ruleSettings (by simp [ruleSettings, he])
    rw [hdisable]
    rfl

/-- A rule is logged if it says so. -/
theorem log_ruleSettings :
    (["all", "utm"].any fun word =>
      valueOf (ruleSettings c p position) "logtraffic" == some word) = p.log := by
  cases hl : p.log with
  | false =>
    have hnone : valueOf (ruleSettings c p position) "logtraffic" = none := by
      refine valueOf_ruleSettings_eq_none ?_
      rw [ruleSettings, hl]
      cases p.enabled <;> cases p.description <;> simp
    rw [hnone]
    rfl
  | true =>
    have hall : valueOf (ruleSettings c p position) "logtraffic" = some "all" :=
      valueOf_ruleSettings (by simp [ruleSettings, hl])
    rw [hall]
    rfl

/-- No application is ever written. -/
theorem application_ruleSettings : valuesOf (ruleSettings c p position) "application" = [] := by
  refine valuesOf_eq_nil ?_
  rw [ruleSettings]
  cases p.log <;> cases p.enabled <;> cases p.description <;> simp

end

/-- **A rule is read back from its entry.** -/
theorem readPolicy_ruleEntry (c : Config) (p : Policy) {position : Nat}
    (hposition : position + 1 < UInt32.size) :
    readPolicy (ruleEntry c c.effectivePolicies p position).readBack
      = ruleReadBack c p position := by
  have hname : valueOf (ruleSettings c p position) "name"
      = some (p.labelAmong c.effectivePolicies position) :=
    valueOf_ruleSettings (by simp [ruleSettings])
  have hsource : valuesOf (ruleSettings c p position) "srcaddr" = p.sources.map addressName :=
    valuesOf_ruleSettings (by simp [ruleSettings])
  have hdestination : valuesOf (ruleSettings c p position) "dstaddr"
      = p.destinations.map addressName := valuesOf_ruleSettings (by simp [ruleSettings])
  have hservice : valuesOf (ruleSettings c p position) "service"
      = p.services.map fun s => serviceName (c.resolveService s) :=
    valuesOf_ruleSettings (by simp [ruleSettings])
  have hsourceZone : readZone (ruleSettings c p position) "srcintf" = zoneOf c p.sourceZone :=
    readZone_ruleSettings (by simp [ruleSettings])
  have hdestinationZone : readZone (ruleSettings c p position) "dstintf"
      = zoneOf c p.destinationZone := readZone_ruleSettings (by simp [ruleSettings])
  rw [readBack_ruleEntry, readPolicy, ruleReadBack]
  simp only [hname, hsource, hdestination, hservice, hsourceZone, hdestinationZone,
    action_ruleSettings, application_ruleSettings, description_ruleSettings, enabled_ruleSettings,
    log_ruleSettings, Text.readUInt32_toString hposition]

/-! ## The entries of rules -/

/-- The entry of a translation rule, if it has one, holds no section. -/
def NatForm.IsFlat : NatForm → Prop
  | .virtualAddress e => e.children = []
  | .pool e => e.children = []
  | .remark _ => True

theorem isFlat_natForm (c : Config) (r : NatRule) (position : Nat) :
    (natForm c r position).IsFlat := by
  rw [natForm]
  cases r.kind with
  | static =>
    simp only []
    split
    · exact rfl
    · exact trivial
  | pool =>
    simp only []
    split
    · exact rfl
    · exact trivial
  | dynamic => exact trivial

theorem isFlat_natForms (c : Config) : ∀ form ∈ natForms c, form.IsFlat :=
  List.forall_mem_map.2 fun p _ => isFlat_natForm c p.1 p.2

/-- The sections of communities are those of their hosts. -/
theorem path_of_mem_allInEntries_communityEntries {es : List (Entry Value)}
    (h : ∀ e ∈ es, ∃ community hosts position, e = communityEntry community hosts position) :
    ∀ s ∈ allInEntries (readBackEntries es), s.path = "hosts" := by
  induction es with
  | nil => exact List.forall_mem_nil _
  | cons e es ih =>
    obtain ⟨⟨community, hosts, position, rfl⟩, hes⟩ := List.forall_mem_cons.1 h
    rw [readBackEntries, allInEntries, List.forall_mem_append]
    refine ⟨?_, ih hes⟩
    rw [communityEntry, Entry.readBack, Entry.all]
    split
    · exact List.forall_mem_nil _
    · rw [readBackSections, readBackSections, Section.readBack, allSections, Section.all,
        allInEntries_readBack (List.forall_mem_map.2 fun _ _ => rfl)]
      exact List.forall_mem_singleton.2 rfl

theorem entriesAt_communityEntries {path : String} (hcommunity : path ≠ "system snmp community")
    (hhosts : path ≠ "hosts") (c : Config) :
    entriesAt path ((listed "system snmp community" (communityEntries c)).map Section.readBack)
      = [] := by
  have hentries : ∀ e ∈ communityEntries c,
      ∃ community hosts position, e = communityEntry community hosts position :=
    List.forall_mem_map.2 fun ((community, hosts), position) _ =>
      ⟨community, hosts, position, rfl⟩
  have hbelow := path_of_mem_allInEntries_communityEntries hentries
  refine entriesAt_eq_nil fun s hs => ?_
  rw [listed] at hs
  split at hs
  · cases hs
  · rw [List.map_singleton, Section.readBack, allSections, Section.all, allSections,
      List.append_nil] at hs
    rcases List.mem_cons.1 hs with rfl | hs
    · exact Ne.symm hcommunity
    · have hs : s ∈ allInEntries (readBackEntries (communityEntries c)) := hs
      rw [hbelow s hs]
      exact Ne.symm hhosts

/-- A section of settings has no entries. -/
theorem entriesAt_settings (path other : String) (settings : List (Setting Value)) :
    entriesAt path [(Section.mk (.bare other) settings [] []).readBack] = [] := by
  rw [entriesAt, sectionsAt]
  simp only [Section.readBack, readBackEntries, readBackSections, allSections, Section.all,
    allInEntries, List.append_nil, List.filter_cons, List.filter_nil]
  split <;> rfl

theorem entriesAt_syslogSections (path : String) (c : Config) :
    entriesAt path (((syslogHosts c).zipIdx.map
      fun (host, position) => syslogSection host position).map Section.readBack) = [] := by
  generalize (syslogHosts c).zipIdx = places
  induction places with
  | nil => rfl
  | cons p places ih =>
    rw [List.map_cons, List.map_cons, ← List.singleton_append, entriesAt_append, ih,
      List.append_nil]
    exact entriesAt_settings path _ _

/-- The lists of entries that hold no section, each with its path, in the order in which they are
written. -/
def listings (c : Config) : List (String × List (Entry Value)) :=
  [("system interface", c.interfaces.map (interfaceEntry c)),
   ("system zone", c.zones.map zoneEntry),
   ("firewall address", addressEntries c),
   ("firewall addrgrp", c.addressGroups.map groupEntry),
   ("firewall service custom", serviceEntries c),
   ("firewall policy", ruleEntries c),
   ("router static", routeEntries c),
   ("firewall vip", (natForms c).filterMap NatForm.virtualAddress?),
   ("firewall ippool", (natForms c).filterMap NatForm.pool?),
   ("vpn ipsec phase1-interface", c.vpn.peeredTunnels.map fun (t, peer) => phaseOneEntry c t peer),
   ("vpn ipsec phase2-interface", (phaseTwos c).map phaseTwoEntry),
   ("system admin", (c.users.filter (!isLocal ·)).map adminEntry),
   ("user local", (c.users.filter isLocal).map localEntry),
   ("user ldap", (c.aaaServers.filter (·.isLdap)).map serverEntry)]

theorem isFlat_listings (c : Config) : ∀ l ∈ listings c, ∀ e ∈ l.2, e.children = [] := by
  have hflat {α : Type} {f : α → Entry Value} {as : List α} (h : ∀ a, (f a).children = []) :
      ∀ e ∈ as.map f, e.children = [] := List.forall_mem_map.2 fun a _ => h a
  have hforms {get : NatForm → Option (Entry Value)}
      (h : ∀ form e, get form = some e → form.IsFlat → e.children = []) :
      ∀ e ∈ (natForms c).filterMap get, e.children = [] :=
    List.forall_mem_filterMap.2 fun form hform e he => h form e he (isFlat_natForms c form hform)
  simp only [listings, List.forall_mem_cons]
  refine ⟨hflat fun _ => rfl, hflat fun _ => rfl, ?_, hflat fun _ => rfl, ?_, hflat fun _ => rfl,
    hflat fun _ => rfl, ?_, ?_, hflat fun _ => rfl, hflat fun _ => rfl, hflat fun _ => rfl,
    hflat fun _ => rfl, hflat fun _ => rfl, List.forall_mem_nil _⟩
  · exact List.forall_mem_append.2 ⟨hflat fun _ => rfl, hflat fun _ => rfl⟩
  · exact List.forall_mem_append.2 ⟨hflat fun _ => rfl, hflat fun _ => rfl⟩
  · exact hforms fun form e he h => by cases form <;> cases he; exact h
  · exact hforms fun form e he h => by cases form <;> cases he; exact h

/-- **What is written under a path** are the entries of the listings of that path. -/
theorem entriesAt_listings {path : String} (hcommunity : path ≠ "system snmp community")
    (hhosts : path ≠ "hosts") (c : Config) :
    entriesAt path ((document c).map Section.readBack)
      = (listings c).flatMap fun l => if l.1 = path then l.2.map Entry.readBack else [] := by
  have hlistings : ∀ ls : List (String × List (Entry Value)),
      (∀ l ∈ ls, ∀ e ∈ l.2, e.children = []) →
        entriesAt path ((ls.flatMap fun l => listed l.1 l.2).map Section.readBack)
          = ls.flatMap fun l => if l.1 = path then l.2.map Entry.readBack else [] := by
    intro ls hls
    induction ls with
    | nil => rfl
    | cons l ls ih =>
      obtain ⟨hl, hls⟩ := List.forall_mem_cons.1 hls
      rw [List.flatMap_cons, List.flatMap_cons, List.map_append, entriesAt_append, ih hls]
      split
      · next heq => rw [heq, entriesAt_listed hl]
      · next hne => rw [entriesAt_listed_of_ne hne hl]
  have hdocument : document c
      = [globalSection c] ++ (listings c).flatMap (fun l => listed l.1 l.2)
        ++ (syslogHosts c).zipIdx.map (fun (host, position) => syslogSection host position)
        ++ listed "system snmp community" (communityEntries c) := by
    simp [document, listings]
  rw [hdocument]
  simp only [List.map_append, entriesAt_append]
  rw [hlistings _ (isFlat_listings c), entriesAt_syslogSections,
    entriesAt_communityEntries hcommunity hhosts, List.append_nil, List.append_nil]
  exact congrArg (· ++ _) (entriesAt_settings path _ _)

/-- **The rules are all that is written under the path of rules.** -/
theorem entriesAt_document (c : Config) :
    entriesAt "firewall policy" ((document c).map Section.readBack)
      = (ruleEntries c).map Entry.readBack := by
  rw [entriesAt_listings (by decide) (by decide)]
  simp [listings]

/-! ## All rules -/

/-- The rules that are read are the entries of one path. -/
theorem policies_read (text : String) :
    (read text).policies = (entriesAt "firewall policy" (readForest text)).map readPolicy := by
  rw [read, ofForest, policies_foldl_putAddressObject, policies_foldl_putInterface]

/-- **The rules of a written configuration are read back**, each once and in order, whatever else
the configuration holds. -/
theorem policies_read_written (origin : Dialect) {c : Config} (hc : c.OneLine)
    (hlength : c.effectivePolicies.length < UInt32.size) :
    (read (write origin c)).policies
      = c.effectivePolicies.zipIdx.map fun (p, position) => ruleReadBack c p position := by
  rw [policies_read, readForest_write hc, entriesAt_document, ruleEntries, List.map_map,
    List.map_map]
  refine List.map_congr_left fun ⟨p, position⟩ hp => ?_
  have hposition : position < c.effectivePolicies.length := by
    simpa using List.snd_lt_of_mem_zipIdx hp
  exact readPolicy_ruleEntry c p (Nat.lt_of_le_of_lt hposition hlength)

/-- A configuration with directives in its texts, one of them in a value that is written bare, and
with quotes and backslashes in the name of a rule. -/
def directiveConfig : Config where
  hostname := some "config firewall policy"
  policies :=
    [{ name := some "a\"b\\", action := .permit, source := ["10.0.0.0/8", "ALL"],
       sourceZone := some "next", description := some "end", log := true },
     { name := some "edit 7", service := ["tcp/80"], enabled := false }]
  routes := [{ network := "0.0.0.0", mask := "0.0.0.0", gateway := some "end \" config" }]
  zones := [{ name := "next" }]

theorem oneLine_directiveConfig : directiveConfig.OneLine := by
  have hzone : Zone.OneLine { name := "next" } := { name := by decide }
  have hroute : Route.OneLine
      { network := "0.0.0.0", mask := "0.0.0.0", gateway := some "end \" config" } :=
    { network := by decide, mask := by decide }
  have hpolicies : ∀ p ∈ directiveConfig.policies, p.OneLine :=
    List.forall_mem_cons.2 ⟨{}, List.forall_mem_singleton.2 {}⟩
  exact
    { policies := hpolicies
      routes := List.forall_mem_singleton.2 hroute
      zones := List.forall_mem_singleton.2 hzone }

theorem policies_read_written_directiveConfig : directiveConfig.OneLine
    ∧ directiveConfig.effectivePolicies.length < UInt32.size
    ∧ (read (write .paloAlto directiveConfig)).policies
      = [{ name := some "a\"b\\", id := some 1, action := .permit,
           source := ["10.0.0.0/8", "any"], destination := ["any"], sourceZone := some "next",
           description := some "end", log := true },
         { name := some "edit 7", id := some 2, source := ["any"], destination := ["any"],
           service := ["tcp/80"], enabled := false }] := by
  have hlength : directiveConfig.effectivePolicies.length < UInt32.size := by decide
  exact ⟨oneLine_directiveConfig, hlength,
    (policies_read_written .paloAlto oneLine_directiveConfig hlength).trans (by decide)⟩

end FirewallConfig.FortiOs
