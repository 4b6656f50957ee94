import FirewallConfig.Proofs.Cisco.LateBindings
import FirewallConfig.Proofs.Cisco.OneLine
import FirewallConfig.Proofs.FortiOs.Rules
import FirewallConfig.Proofs.PanOs.ServiceNames

/-!
# Proofs/Config/SourceZones — where a written rule takes traffic from

A rule that is read of a text names an interface or a zone for the traffic that comes in: the first
value of its setting, or the interface that its access list is bound to first.  It stands in the
written rule where it can be found: an interface that is called so in any of three ways, or one of the
three zones that stand in where there are interfaces and no zones.  Anything else is written as any
(`source_restricted_iff`).
-/

namespace FirewallConfig

/-! ## No zones of its own -/

namespace Cisco.Reading

variable (r : Reading)

theorem zones_closeBlock : r.closeBlock.config.zones = r.config.zones := by
  unfold closeBlock
  split
  · next b _ => cases b <;> rfl
  · rfl

theorem zones_blockLine (b : Block) (l : Line) :
    (r.blockLine b l).config.zones = r.config.zones := by
  cases b with
  | object o =>
    unfold blockLine
    dsimp only
    split <;> rfl
  | _ => rfl

theorem zones_apply_of_isRemote {d : Directive} (h : d.isRemote = true) :
    (r.apply d).config.zones = r.config.zones := by
  obtain ⟨vpn, aaaServers, block, mapInterfaces, heq⟩ := r.exists_apply_eq h
  rw [heq]

theorem zones_apply (d : Directive) : (r.apply d).config.zones = r.config.zones := by
  cases d with
  | accessList acl line => cases line <;> rfl
  | cryptoMap | aaaServer | groupPolicy | tunnelGroup => exact r.zones_apply_of_isRemote rfl
  | _ => rfl

theorem zones_step (raw : String) : (r.step raw).config.zones = r.config.zones := by
  have hmoves := r.moves_step raw
  generalize r.step raw = s at hmoves
  cases hmoves with
  | stay => rfl
  | close => exact r.zones_closeBlock
  | blockLine => exact r.zones_blockLine _ _
  | apply => exact (r.closeBlock.zones_apply _).trans r.zones_closeBlock

theorem zones_run (ls : List String) : (r.run ls).config.zones = r.config.zones :=
  run_invariant (P := fun s => s.config.zones = r.config.zones)
    (fun s raw hs => (s.zones_step raw).trans hs) rfl ls

end Cisco.Reading

/-- No line of a text with access lists is about a zone. -/
theorem Cisco.zones_read (flavor : Flavor) (text : String) : (read flavor text).zones = [] :=
  (Reading.zones_closeBlock _).trans (Reading.zones_run _ _)

/-- Sections about zones are not read. -/
theorem FortiOs.zones_read (text : String) : (read text).zones = [] := by
  rw [read, ofForest, foldl_putAddressObject_eq, foldl_putInterface_eq]

/-! ## What a rule names -/

/-- The setting of a rule is its zone, unless it is any. -/
theorem FortiOs.sourceZone_readPolicy {e : Entry String} {zone : String}
    (h : valueOf e.settings "srcintf" = some zone) (hne : zone ≠ anyText) :
    (readPolicy e).sourceZone = some zone := by
  rw [readPolicy, readZone, h, Option.filter_some, bne_iff_ne.2 hne]
  rfl

namespace Cisco

/-- The first binding of the rule's list for traffic coming in is to the interface. -/
def BindsInbound (bindings : List AccessBinding) (p : Policy) (interface : String) : Prop :=
  ∃ acl before after, bindings = before ++ ⟨acl, "in", interface⟩ :: after ∧ p.name = some acl
    ∧ ∀ b ∈ before, b.direction = "in" → p.name ≠ some b.acl

/-- **A rule of an access list has the interface that the list is bound to first.** -/
theorem sourceZone_of_bindsInbound {flavor : Flavor} {text : String} {p : Policy}
    (hp : p ∈ (read flavor text).policies) {interface : String}
    (h : BindsInbound (read flavor text).accessBindings p interface) :
    p.sourceZone = some interface := by
  obtain ⟨acl, before, after, hbindings, hname, hbefore⟩ := h
  have hfind : (read flavor text).accessBindings.find?
      (fun b => b.direction == "in" && p.name == some b.acl) = some ⟨acl, "in", interface⟩ := by
    refine List.find?_eq_some_iff_append.2
      ⟨by simp [hname], before, after, hbindings, fun b hb => ?_⟩
    by_cases hin : b.direction = "in"
    · simp [hbefore b hb hin]
    · simp [hin]
  rw [sourceZone_of_mem_read hp, inboundInterface?, hfind]
  rfl

end Cisco

/-! ## What is written -/

namespace FortiOs

/-- The rule at a position of a text is about traffic from some interface. -/
def RestrictsSource (text : String) (position : Nat) : Prop :=
  ∃ e, (entriesAt "firewall policy" (readForest text))[position]? = some e
    ∧ ∃ name ∈ valuesOf e.settings "srcintf", name ≠ anyText

theorem restrictsSource_write_iff (origin : Dialect) {c : Config} (hc : c.OneLine) {p : Policy}
    {position : Nat} (hp : c.policies[position]? = some p) :
    RestrictsSource (write origin c) position ↔ zoneName c p.sourceZone ≠ anyText := by
  have hne : c.policies ≠ [] := List.ne_nil_of_mem (List.mem_of_getElem? hp)
  have hentry : (entriesAt "firewall policy" (readForest (write origin c)))[position]?
      = some (ruleEntry c c.effectivePolicies p position).readBack := by
    rw [readForest_write hc, entriesAt_document, ruleEntries, List.getElem?_map, List.getElem?_map,
      List.getElem?_zipIdx, Config.effectivePolicies_of_ne_nil hne, hp]
    simp
  have hvalues : valuesOf (ruleEntry c c.effectivePolicies p position).readBack.settings "srcintf"
      = [zoneName c p.sourceZone] := by
    have hmem : (⟨"srcintf", [zoneName c p.sourceZone]⟩ : Setting String)
        ∈ ruleSettings c p position := by simp [ruleSettings]
    rw [readBack_ruleEntry]
    exact valuesOf_eq (nodup_ruleSettings c p position) hmem
  simp [RestrictsSource, hentry, hvalues]

/-- An interface that is not called any is found. -/
def MeansInterface (c : Config) (reference : String) : Prop :=
  ∃ i, c.findInterface? reference = some i ∧ i.name ≠ anyText

theorem zoneName_ne_any_iff {c : Config} (hzones : c.zones = []) (reference : String) :
    zoneName c (some reference) ≠ anyText ↔ MeansInterface c reference := by
  rw [zoneName, hzones, MeansInterface]
  cases c.findInterface? reference <;> simp

end FortiOs

/-- A reference means an interface if it is the name, the nickname or the zone of one. -/
theorem Config.isSome_findInterface?_iff {c : Config} {reference : String} :
    (c.findInterface? reference).isSome = true ↔ ∃ i ∈ c.interfaces, i.name = reference
      ∨ i.nickname = some reference ∨ i.zone = some reference := by
  simp only [findInterface?, interface?, interfaceByNickname?, Option.isSome_or, Bool.or_eq_true,
    List.find?_isSome, beq_iff_eq, and_or_left, exists_or]

namespace PanOs

/-- The rule at a position of the document is about traffic from some zone. -/
def RestrictsSource (c : Config) (position : Nat) : Prop :=
  ∃ rule, (securityRules (rootElement c))[position]? = some rule
    ∧ ∃ zone ∈ membersOf "from" rule, zone ≠ anyText

theorem restrictsSource_iff {c : Config} {p : Policy} {position : Nat}
    (hp : c.policies[position]? = some p) :
    RestrictsSource c position ↔ zoneName c p.sourceZone ≠ anyText := by
  have hne : c.policies ≠ [] := List.ne_nil_of_mem (List.mem_of_getElem? hp)
  have hrule : (securityRules (rootElement c))[position]?
      = some (securityEntry c c.effectivePolicies p position) := by
    rw [securityRules_rootElement, securityEntries, List.getElem?_map, List.getElem?_zipIdx,
      Config.effectivePolicies_of_ne_nil hne, hp]
    simp
  have hmembers : membersOf "from" (securityEntry c c.effectivePolicies p position)
      = [zoneName c p.sourceZone] := membersOf_securityEntry c _ p position (by simp [ruleLists])
  simp [RestrictsSource, hrule, hmembers]

/-- The reference means a zone where there are interfaces: it is one of the three zones that stand
in, or what an interface is called. -/
def MeansZone (c : Config) (reference : String) : Prop :=
  c.interfaces ≠ [] ∧ (reference ∈ ["trust", "untrust", "dmz"]
    ∨ ∃ i ∈ c.interfaces, i.name = reference ∨ i.nickname = some reference
      ∨ i.zone = some reference)

instance (c : Config) (reference : String) : Decidable (MeansZone c reference) :=
  inferInstanceAs (Decidable (_ ∧ _))

section FallbackZones

variable {c : Config} (hzones : c.zones = []) (hinterfaces : c.interfaces ≠ [])
include hzones hinterfaces

theorem writtenZones_eq : writtenZones c = FallbackZone.all.map fun z =>
    { name := z.name
      interfaces := (c.interfaces.filter (FallbackZone.ofInterface · == z)).map (·.name) } := by
  rw [writtenZones, hzones, List.isEmpty_eq_false_iff.2 hinterfaces]
  rfl

theorem map_name_writtenZones : (writtenZones c).map (·.name) = ["trust", "untrust", "dmz"] := by
  rw [writtenZones_eq hzones hinterfaces]
  rfl

/-- **Every interface is in a zone.** -/
theorem exists_zone_of_mem {i : Interface} (hi : i ∈ c.interfaces) :
    ∃ z, (writtenZones c).find? (fun z => z.interfaces.contains i.name) = some z := by
  refine Option.isSome_iff_exists.1 (List.find?_isSome.2 ?_)
  have hall : FallbackZone.ofInterface i ∈ FallbackZone.all := by
    cases FallbackZone.ofInterface i <;> decide
  rw [writtenZones_eq hzones hinterfaces]
  refine ⟨_, List.mem_map_of_mem hall, List.contains_iff_mem.2 ?_⟩
  exact List.mem_map_of_mem (List.mem_filter.2 ⟨hi, beq_self_eq_true _⟩)

end FallbackZones

/-- **What is written as any** is what means no zone. -/
theorem zoneName_ne_any_iff {c : Config} (hzones : c.zones = []) (reference : String) :
    zoneName c (some reference) ≠ anyText ↔ MeansZone c reference := by
  have hany : ∀ name ∈ ["trust", "untrust", "dmz"], name ≠ anyText := by decide
  rw [MeansZone, ← Config.isSome_findInterface?_iff]
  by_cases hinterfaces : c.interfaces = []
  · have hwritten : writtenZones c = [] := by
      rw [writtenZones, hzones, hinterfaces]
      rfl
    refine iff_of_false (not_not_intro ?_) fun h => h.1 hinterfaces
    rw [zoneName, hwritten]
    cases c.findInterface? reference <;> rfl
  · have hnames := map_name_writtenZones hzones hinterfaces
    have hnamed : (writtenZones c).any (·.name == reference) = true
        ↔ reference ∈ ["trust", "untrust", "dmz"] := by
      rw [← hnames, List.any_eq_true, List.mem_map]
      simp only [beq_iff_eq]
    rw [and_iff_right hinterfaces, zoneName]
    split
    · next h => exact iff_of_true (hany _ (hnamed.1 h)) (.inl (hnamed.1 h))
    · next h =>
      rw [or_iff_right (mt hnamed.2 h)]
      cases hfind : c.findInterface? reference with
      | none => exact iff_of_false (not_not_intro rfl) Bool.false_ne_true
      | some i =>
        obtain ⟨z, hz⟩ :=
          exists_zone_of_mem hzones hinterfaces (Config.mem_of_findInterface? hfind)
        have hname : z.name ∈ ["trust", "untrust", "dmz"] :=
          hnames ▸ List.mem_map_of_mem (List.mem_of_find?_eq_some hz)
        rw [Option.bind_some, hz]
        exact iff_of_true (hany _ hname) rfl

end PanOs

/-- **When a rule stays restricted to where its traffic comes from.**  The zone that a rule names is
written just if it means a zone, and the interface that its access list is bound to first just if it
means one or, where interfaces are written, one that is not called any. -/
theorem source_restricted_iff :
    (∀ text position e zone,
      (FortiOs.entriesAt "firewall policy" (FortiOs.readForest text))[position]? = some e →
      FortiOs.valueOf e.settings "srcintf" = some zone → zone ≠ anyText →
        let c := FortiOs.read text
        PanOs.RestrictsSource c position ↔ PanOs.MeansZone c zone)
      ∧ ∀ flavor origin text position p interface,
        let c := Cisco.read flavor text
        c.policies[position]? = some p → Cisco.BindsInbound c.accessBindings p interface →
          (FortiOs.RestrictsSource (FortiOs.write origin c) position
            ↔ FortiOs.MeansInterface c interface)
          ∧ (PanOs.RestrictsSource c position ↔ PanOs.MeansZone c interface) := by
  constructor
  · intro text position e zone he hzone hne c
    have hp : c.policies[position]? = some (FortiOs.readPolicy e) := by
      rw [FortiOs.policies_read, List.getElem?_map, he]
      rfl
    rw [PanOs.restrictsSource_iff hp, FortiOs.sourceZone_readPolicy hzone hne,
      PanOs.zoneName_ne_any_iff (FortiOs.zones_read text)]
  · intro flavor origin text position p interface c hp hbound
    have hzones : c.zones = [] := Cisco.zones_read flavor text
    have hsource : p.sourceZone = some interface :=
      Cisco.sourceZone_of_bindsInbound (List.mem_of_getElem? hp) hbound
    rw [FortiOs.restrictsSource_write_iff origin (Cisco.oneLine_read flavor text) hp,
      PanOs.restrictsSource_iff hp, hsource]
    exact ⟨FortiOs.zoneName_ne_any_iff hzones interface, PanOs.zoneName_ne_any_iff hzones interface⟩

/-- A rule for traffic from an interface that is there. -/
def knownPortText : String :=
  Text.unlines
    ["config system interface", "edit port1", "set ip 10.0.0.1 255.255.255.0", "end",
     "config firewall policy", "edit 1", "set srcintf port1", "set action accept", "end"]

/-- An access list that is bound to an interface that is there. -/
def knownNameText : String :=
  Text.unlines
    ["interface GigabitEthernet0/0", " nameif inside", "access-list A extended permit ip any any",
     "access-group A in interface inside"]

/-- The rule of `knownNameText`, and of the same text without the interface. -/
def boundRule : Policy where
  name := some "A"
  id := some 1
  action := .permit
  source := ["any"]
  destination := ["any"]
  sourceZone := some "inside"

/-- Where the interface is there, the rules are restricted to it or to its zone. -/
theorem source_restricted_iff_knownTexts :
    (∃ e, (FortiOs.entriesAt "firewall policy" (FortiOs.readForest knownPortText))[0]? = some e
        ∧ FortiOs.valueOf e.settings "srcintf" = some "port1" ∧ "port1" ≠ anyText
        ∧ PanOs.RestrictsSource (FortiOs.read knownPortText) 0)
      ∧ (let c := Cisco.read .asa knownNameText
        c.policies[0]? = some boundRule
          ∧ Cisco.BindsInbound c.accessBindings boundRule "inside"
          ∧ FortiOs.RestrictsSource (FortiOs.write .ciscoAsa c) 0 ∧ PanOs.RestrictsSource c 0) := by
  constructor
  · have hentries : ((FortiOs.entriesAt "firewall policy"
        (FortiOs.readForest knownPortText))[0]?.map fun e => FortiOs.valueOf e.settings "srcintf")
          = some (some "port1") := by
      rw [knownPortText, FortiOs.readForest_unlines_eq (by decide +kernel)]
      decide +kernel
    have hmeans : PanOs.MeansZone (FortiOs.read knownPortText) "port1" := by
      rw [FortiOs.read, knownPortText, FortiOs.readForest_unlines_eq (by decide +kernel)]
      decide +kernel
    obtain ⟨e, he, hzone⟩ := Option.map_eq_some_iff.1 hentries
    exact ⟨e, he, hzone, by decide,
      (source_restricted_iff.1 knownPortText 0 e "port1" he hzone (by decide)).2 hmeans⟩
  · intro c
    have hread : (c.policies, c.accessBindings, c.interfaces)
        = ([boundRule], [⟨"A", "in", "inside"⟩],
          [{ name := "GigabitEthernet0/0", nickname := some "inside" }]) := by
      dsimp only [c]
      rw [Cisco.read, knownNameText, Cisco.Reading.run_lines_unlines _ (by decide +kernel)]
      decide +kernel
    simp only [Prod.mk.injEq] at hread
    obtain ⟨hpolicies, hbindings, hinterfaces⟩ := hread
    have hp : c.policies[0]? = some boundRule := by rw [hpolicies]; rfl
    have hbound : Cisco.BindsInbound c.accessBindings boundRule "inside" :=
      ⟨"A", [], [], hbindings, rfl, List.forall_mem_nil _⟩
    have hfind : c.findInterface? "inside"
        = some { name := "GigabitEthernet0/0", nickname := some "inside" } := by
      simp [Config.findInterface?, Config.interface?, Config.interfaceByNickname?, hinterfaces]
    have hmeans : PanOs.MeansZone c "inside" := by
      rw [PanOs.MeansZone, hinterfaces]
      decide
    obtain ⟨hport, hzone⟩ :=
      source_restricted_iff.2 .asa .ciscoAsa knownNameText 0 boundRule "inside" hp hbound
    exact ⟨hp, hbound, hport.2 ⟨_, hfind, by decide⟩, hzone.2 hmeans⟩

/-- A rule for traffic from an interface that is not there. -/
def missingPortText : String :=
  Text.unlines ["config firewall policy", "edit 1", "set srcintf port9", "set action accept", "end"]

/-- An access list that is bound to an interface that is not there. -/
def missingNameText : String :=
  Text.unlines ["access-list A extended permit ip any any", "access-group A in interface inside"]

/-- **A rule that permits traffic from an interface that is not there permits it from any.** -/
theorem not_restricted_missingTexts :
    (∃ e, (FortiOs.entriesAt "firewall policy" (FortiOs.readForest missingPortText))[0]? = some e
        ∧ FortiOs.valueOf e.settings "srcintf" = some "port9" ∧ "port9" ≠ anyText
        ∧ (FortiOs.readPolicy e).action = .permit
        ∧ ¬ PanOs.RestrictsSource (FortiOs.read missingPortText) 0)
      ∧ (let c := Cisco.read .asa missingNameText
        c.policies[0]? = some boundRule
          ∧ Cisco.BindsInbound c.accessBindings boundRule "inside"
          ∧ ¬ FortiOs.RestrictsSource (FortiOs.write .ciscoAsa c) 0
          ∧ ¬ PanOs.RestrictsSource c 0) := by
  constructor
  · have hentries : ((FortiOs.entriesAt "firewall policy"
        (FortiOs.readForest missingPortText))[0]?.map fun e =>
          (FortiOs.valueOf e.settings "srcintf", (FortiOs.readPolicy e).action))
          = some (some "port9", .permit) := by
      rw [missingPortText, FortiOs.readForest_unlines_eq (by decide +kernel)]
      decide +kernel
    have hmeans : ¬ PanOs.MeansZone (FortiOs.read missingPortText) "port9" := by
      rw [FortiOs.read, missingPortText, FortiOs.readForest_unlines_eq (by decide +kernel)]
      decide +kernel
    obtain ⟨e, he, heq⟩ := Option.map_eq_some_iff.1 hentries
    obtain ⟨hzone, haction⟩ := Prod.mk.inj heq
    have hne : "port9" ≠ anyText := by decide
    have hp : (FortiOs.read missingPortText).policies[0]? = some (FortiOs.readPolicy e) := by
      rw [FortiOs.policies_read, List.getElem?_map, he]
      rfl
    refine ⟨e, he, hzone, hne, haction, fun hrestricts => hmeans ?_⟩
    rwa [PanOs.restrictsSource_iff hp, FortiOs.sourceZone_readPolicy hzone hne,
      PanOs.zoneName_ne_any_iff (FortiOs.zones_read _)] at hrestricts
  · intro c
    have hread : c = { policies := [boundRule], accessBindings := [⟨"A", "in", "inside"⟩] } := by
      dsimp only [c]
      rw [Cisco.read, missingNameText, Cisco.Reading.run_lines_unlines _ (by decide +kernel)]
      decide +kernel
    have hp : c.policies[0]? = some boundRule := by rw [hread]; rfl
    have hport : FortiOs.zoneName c boundRule.sourceZone = anyText := by rw [hread]; decide
    have hzone : PanOs.zoneName c boundRule.sourceZone = anyText := by rw [hread]; decide
    have hbound : Cisco.BindsInbound c.accessBindings boundRule "inside" :=
      ⟨"A", [], [], by rw [hread]; rfl, rfl, List.forall_mem_nil _⟩
    refine ⟨hp, hbound, ?_, ?_⟩
    · rw [FortiOs.restrictsSource_write_iff .ciscoAsa (Cisco.oneLine_read .asa _) hp]
      exact not_not_intro hport
    · rw [PanOs.restrictsSource_iff hp]
      exact not_not_intro hzone

end FirewallConfig
