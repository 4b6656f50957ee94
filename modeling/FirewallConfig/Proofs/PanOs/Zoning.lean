import FirewallConfig.Proofs.Config.SourceZones
import FirewallConfig.Proofs.PanOs.Network
import Mathlib.Data.List.Nodup

/-!
# Proofs/PanOs/Zoning — the zones of a document, and the rules that name them

Every rule names zones of the document that it stands in, or any (`zoneName_mem`).  Where three zones
stand in for those that a configuration lacks, an interface is listed in just one of them
(`filter_writtenZones`), so that it makes no difference which listing counts when the document is
scanned.  Main statement: `zoning_resolves`.
-/

namespace FirewallConfig.PanOs

open Xml (Node)

/-! ## What a document says -/

/-- The translation rules of a document. -/
def natRules : Node → List Node :=
  entriesBelow ["devices", "entry", "vsys", "entry", "rulebase", "nat", "rules"]

/-- The members of the list of interfaces in a zone. -/
def layer3Members (zone : Node) : List String :=
  ((zone.find? ["network", "layer3"]).toList.flatMap (·.childrenOf "member")).filterMap (·.text)

/-- The zones of a document, each with the interfaces that it lists. -/
def documentZones (root : Node) : List Zone :=
  (entriesBelow ["devices", "entry", "vsys", "entry", "zone"] root).filterMap fun e =>
    (e.attribute? "name").map fun name => { name, interfaces := layer3Members e }

/-- The zones of a document that list an interface. -/
def zonesListing (root : Node) (interface : String) : List Zone :=
  (documentZones root).filter (·.interfaces.contains interface)

/-- The lists of a rule say any, or zones of the document. -/
def ZonesResolve (root : Node) : Prop :=
  ∀ rule ∈ securityRules root ++ natRules root, ∀ tag ∈ ["from", "to"],
    ∀ name ∈ membersOf tag rule, name = anyText ∨ ∃ z ∈ documentZones root, z.name = name

/-! ## The parts of a document -/

/-- The rulebase holds the translation rules, if there are any. -/
theorem find?_nat_systemElements (c : Config) :
    (entry "vsys1" (systemElements c)).find? ["rulebase", "nat", "rules"]
      = if natEntries c = [] then none else some (.branch "rules" (natEntries c)) := by
  by_cases hnat : natEntries c = []
  · by_cases hsecurity : securityEntries c = []
      <;> simp [Node.find?, Node.child?, systemElements, List.find?_append, find?_branch?,
        hsecurity, hnat]
  · simp [Node.find?, Node.child?, systemElements, List.find?_append, find?_branch?, hnat]

/-- The zones stand at the head of the virtual system, if there are any. -/
theorem find?_zone_systemElements (c : Config) :
    (entry "vsys1" (systemElements c)).find? ["zone"]
      = if (writtenZones c).map zoneEntry = [] then none
        else some (.branch "zone" ((writtenZones c).map zoneEntry)) := by
  simp [Node.find?, Node.child?, systemElements, List.find?_append, find?_branch?]

/-- **The translation rules of a written document** are the entries of the rules. -/
theorem natRules_rootElement (c : Config) : natRules (rootElement c) = natEntries c := by
  refine entriesBelow_rootElement (find?_nat_systemElements c) ?_
  rw [natEntries_eq]
  exact List.forall_mem_map.2 fun _ _ => rfl

theorem layer3Members_zoneEntry (z : Zone) : layer3Members (zoneEntry z) = z.interfaces := by
  simp [layer3Members, zoneEntry, Node.find?, Node.child?, memberList, Node.childrenOf,
    List.filter_map, List.filterMap_map, Function.comp_def, Node.leaf]

/-- **The zones of a written document** are those that are written. -/
theorem documentZones_rootElement (c : Config) :
    documentZones (rootElement c)
      = (writtenZones c).map fun z => { name := z.name, interfaces := z.interfaces } := by
  have hentries : entriesBelow ["devices", "entry", "vsys", "entry", "zone"] (rootElement c)
      = (writtenZones c).map zoneEntry :=
    entriesBelow_rootElement (find?_zone_systemElements c) (List.forall_mem_map.2 fun _ _ => rfl)
  have hzone (z : Zone) : ((zoneEntry z).attribute? "name").map
      (fun name => ({ name, interfaces := layer3Members (zoneEntry z) } : Zone))
        = some { name := z.name, interfaces := z.interfaces } := by
    rw [layer3Members_zoneEntry, zoneEntry, attribute?_entry, Option.map_some]
  rw [documentZones, hentries, List.filterMap_map, ← List.filterMap_eq_map]
  exact congrArg (List.filterMap · (writtenZones c)) (funext hzone)

/-- Scanning a document gives its zones back. -/
theorem zones_read_write (origin : Dialect) {c : Config} (hc : c.OneLine) :
    (read (write origin c)).zones = documentZones (rootElement c) := by
  rw [zones_of_eq_read_write hc rfl, documentZones_rootElement]

/-! ## The zones that rules name -/

/-- **A reference is written as any or as a zone that is written.** -/
theorem zoneName_mem (c : Config) (reference : Option String) :
    zoneName c reference = anyText ∨ ∃ z ∈ writtenZones c, z.name = zoneName c reference := by
  cases reference with
  | none => exact .inl rfl
  | some reference =>
    rw [zoneName]
    split
    · next h =>
      obtain ⟨z, hz, hname⟩ := List.any_eq_true.1 h
      exact .inr ⟨z, hz, beq_iff_eq.1 hname⟩
    · cases hzone : (c.findInterface? reference).bind fun i =>
          (writtenZones c).find? fun z => z.interfaces.contains i.name with
      | none => exact .inl rfl
      | some z =>
        obtain ⟨i, -, hfind⟩ := Option.bind_eq_some_iff.1 hzone
        exact .inr ⟨z, List.mem_of_find?_eq_some hfind, rfl⟩

/-- The zones of a translation rule are the ones that its interfaces mean. -/
theorem membersOf_natEntry (c : Config) (rule : NatRule) (source label : String) :
    membersOf "from" (natEntry c rule source label) = [zoneName c rule.sourceInterface]
      ∧ membersOf "to" (natEntry c rule source label) = [zoneName c rule.interface] := by
  cases hdescription : rule.description <;>
    simp [membersOf, natEntry, Node.childrenOf, memberList, Node.leaf, leaf?, hdescription]

/-- **The zones that rules name are there.** -/
theorem zonesResolve_rootElement (c : Config) : ZonesResolve (rootElement c) := by
  have hname (reference : Option String) : zoneName c reference = anyText
      ∨ ∃ z ∈ documentZones (rootElement c), z.name = zoneName c reference := by
    rw [documentZones_rootElement]
    refine (zoneName_mem c reference).imp_right ?_
    rintro ⟨z, hz, heq⟩
    exact ⟨_, List.mem_map_of_mem hz, heq⟩
  intro rule hrule tag htag name hmem
  rw [securityRules_rootElement, natRules_rootElement, natEntries_eq] at hrule
  have hmembers : ∃ reference, membersOf tag rule = [zoneName c reference] := by
    rcases List.mem_append.1 hrule with hrule | hrule
    · obtain ⟨⟨p, position⟩, -, rfl⟩ := List.mem_map.1 hrule
      simp only [List.mem_cons, List.not_mem_nil, or_false] at htag
      rcases htag with rfl | rfl
      · exact ⟨p.sourceZone, membersOf_securityEntry c _ p position (by simp [ruleLists])⟩
      · exact ⟨p.destinationZone, membersOf_securityEntry c _ p position (by simp [ruleLists])⟩
    · obtain ⟨⟨r, position⟩, -, rfl⟩ := List.mem_map.1 hrule
      have hlists := membersOf_natEntry c r (r.source.getD "") (r.label position)
      simp only [List.mem_cons, List.not_mem_nil, or_false] at htag
      rcases htag with rfl | rfl
      · exact ⟨r.sourceInterface, hlists.1⟩
      · exact ⟨r.interface, hlists.2⟩
  obtain ⟨reference, hlist⟩ := hmembers
  rw [hlist, List.mem_singleton] at hmem
  exact hmem ▸ hname reference

/-! ## Every interface in one zone -/

/-- The zone that stands in, with the interfaces that are put in it. -/
def fallbackZone (c : Config) (z : FallbackZone) : Zone where
  name := z.name
  interfaces := (c.interfaces.filter (FallbackZone.ofInterface · == z)).map (·.name)

/-- An interface is listed in the zone that it is put in, and in no other. -/
theorem contains_fallbackZone {c : Config} (hnames : (c.interfaces.map (·.name)).Nodup)
    {i : Interface} (hi : i ∈ c.interfaces) (z : FallbackZone) :
    (fallbackZone c z).interfaces.contains i.name = (z == FallbackZone.ofInterface i) := by
  rw [Bool.eq_iff_iff, List.contains_iff_mem, fallbackZone, List.mem_map, beq_iff_eq]
  constructor
  · rintro ⟨j, hj, hname⟩
    obtain ⟨hj, hzone⟩ := List.mem_filter.1 hj
    rw [← List.inj_on_of_nodup_map hnames hj hi hname]
    exact (beq_iff_eq.1 hzone).symm
  · rintro rfl
    exact ⟨i, List.mem_filter.2 ⟨hi, beq_self_eq_true _⟩, rfl⟩

/-- **Of the zones of a document, one lists an interface**: the one that it is put in. -/
theorem zonesListing_rootElement {c : Config} (hzones : c.zones = [])
    (hnames : (c.interfaces.map (·.name)).Nodup) {i : Interface} (hi : i ∈ c.interfaces) :
    zonesListing (rootElement c) i.name = [fallbackZone c (FallbackZone.ofInterface i)] := by
  have hwritten : writtenZones c = FallbackZone.all.map (fallbackZone c) :=
    writtenZones_eq hzones (List.ne_nil_of_mem hi)
  have hdocument : documentZones (rootElement c) = FallbackZone.all.map (fallbackZone c) := by
    rw [documentZones_rootElement, hwritten, List.map_map]
    rfl
  have hone : ∀ z : FallbackZone, FallbackZone.all.filter (· == z) = [z] := by
    intro z
    cases z <;> rfl
  have hlists : (fun z : Zone => z.interfaces.contains i.name) ∘ fallbackZone c
      = (· == FallbackZone.ofInterface i) := funext (contains_fallbackZone hnames hi)
  rw [zonesListing, hdocument, List.filter_map, hlists, hone, List.map_singleton]

/-- Where one zone lists an interface, that is its zone. -/
theorem zone_joinZone {zones : List Zone} {i : Interface} {z : Zone}
    (h : zones.filter (·.interfaces.contains i.name) = [z]) :
    (joinZone zones i).zone = some z.name := by
  have hlast : zones.reverse.find? (·.interfaces.contains i.name) = some z := by
    rw [← List.head?_filter, List.filter_reverse, h]
    rfl
  rw [joinZone, hlast]
  rfl

/-- **Zones divide the interfaces, and rules name zones that are there.**  What a rule of a written
document says in its lists of zones is any, or a zone of the document.  Where the configuration has
no zones and its interfaces have names of their own, each is in just one zone of the document, and
scanning the document gives the interfaces back, each in that zone. -/
theorem zoning_resolves (origin : Dialect) {c : Config} (hc : c.OneLine) :
    ZonesResolve (rootElement c)
      ∧ (c.zones = [] → (c.interfaces.map (·.name)).Nodup →
        (∀ i ∈ c.interfaces, ∃ z, zonesListing (rootElement c) i.name = [z]
            ∧ z.name = (FallbackZone.ofInterface i).name)
          ∧ (read (write origin c)).zones = documentZones (rootElement c)
          ∧ (read (write origin c)).interfaces.map (fun i => (i.name, i.zone))
            = c.interfaces.map fun i => (i.name, some (FallbackZone.ofInterface i).name)) := by
  refine ⟨zonesResolve_rootElement c, fun hzones hnames => ⟨fun i hi => ?_, ?_, ?_⟩⟩
  · exact ⟨_, zonesListing_rootElement hzones hnames hi, rfl⟩
  · exact zones_read_write origin hc
  · rw [interfaces_read_write origin hc hnames, zones_read_write origin hc, List.map_map]
    refine List.map_congr_left fun i hi => ?_
    have hlisting := zonesListing_rootElement hzones hnames hi
    rw [zonesListing, ← name_entryReadBack i] at hlisting
    have hzone : (joinZone (documentZones (rootElement c)) (entryReadBack i)).zone
        = some (FallbackZone.ofInterface i).name := zone_joinZone hlisting
    rw [Function.comp_apply, hzone, name_joinZone, name_entryReadBack]

/-- Two interfaces, a rule that is bound to one of them, and a translation between them. -/
def insideOutsideText : String :=
  Text.unlines
    ["interface GigabitEthernet0/0", " nameif INSIDE", "interface GigabitEthernet0/1",
     " nameif outside", "access-list A extended permit ip any any",
     "access-group A in interface INSIDE", "global (outside) 1 interface",
     "nat (INSIDE) 1 10.0.0.0 255.0.0.0"]

/-- Each of the two interfaces is in the zone that it is called after, and comes back in it. -/
theorem zoning_resolves_insideOutsideText :
    let c := Cisco.read .asa insideOutsideText
    c.OneLine ∧ c.zones = [] ∧ (c.interfaces.map (·.name)).Nodup
      ∧ (securityRules (rootElement c) ++ natRules (rootElement c)).map
          (fun rule => (membersOf "from" rule, membersOf "to" rule))
        = [(["trust"], ["any"]), (["trust"], ["any"])]
      ∧ ZonesResolve (rootElement c)
      ∧ (read (write .ciscoAsa c)).interfaces.map (fun i => (i.name, i.zone))
        = [("GigabitEthernet0/0", some "trust"), ("GigabitEthernet0/1", some "untrust")] := by
  intro c
  have hc : c.OneLine := Cisco.oneLine_read .asa insideOutsideText
  have hzones : c.zones = [] := Cisco.zones_read .asa insideOutsideText
  have hread : (c.interfaces.map (·.name)).Nodup
      ∧ (c.interfaces.map fun i => (i.name, some (FallbackZone.ofInterface i).name))
        = [("GigabitEthernet0/0", some "trust"), ("GigabitEthernet0/1", some "untrust")]
      ∧ (securityRules (rootElement c) ++ natRules (rootElement c)).map
          (fun rule => (membersOf "from" rule, membersOf "to" rule))
        = [(["trust"], ["any"]), (["trust"], ["any"])] := by
    dsimp only [c]
    rw [Cisco.read, insideOutsideText, Cisco.Reading.run_lines_unlines _ (by decide +kernel)]
    decide +kernel
  obtain ⟨hnames, hplaced, hlists⟩ := hread
  obtain ⟨hresolve, hpartition⟩ := zoning_resolves .ciscoAsa hc
  exact ⟨hc, hzones, hnames, hlists, hresolve, (hpartition hzones hnames).2.2.trans hplaced⟩

end FirewallConfig.PanOs
