import FirewallConfig.FortiOs.Writer
import FirewallConfig.Proofs.Config.OneLine
import FirewallConfig.Proofs.FortiOs.Line

/-!
# Proofs/FortiOs/Entries — every entry can be told apart from what is around it

Every entry has a name that is one word and settings whose keys are words, whatever the
configuration, as long as its texts hold no line feed.  The values may be anything.  The statements
follow the writer function by function.
-/

namespace FirewallConfig.FortiOs

/-! ## The shapes -/

theorem oneLine_of_isBareWord {word : String} (h : IsBareWord word.toList) : Text.OneLine word :=
  fun hmem => absurd (h.2 _ hmem).1 (by decide)

section Shapes

variable {key : String} (hkey : IsBareWord key.toList)
include hkey

theorem regular_bareSetting {values : List String} (h : ∀ s ∈ values, Text.OneLine s) :
    (bareSetting key values).Regular where
  key := hkey
  oneLine := List.forall_mem_cons.2 ⟨oneLine_of_isBareWord hkey, List.forall_mem_map.2 h⟩

theorem regular_quotedSetting {values : List String} (h : ∀ s ∈ values, Text.OneLine s) :
    (quotedSetting key values).Regular where
  key := hkey
  oneLine := List.forall_mem_cons.2 ⟨oneLine_of_isBareWord hkey, List.forall_mem_map.2 h⟩

theorem regular_quotedSetting? {value : Option String} (h : ∀ s ∈ value, Text.OneLine s) :
    ∀ s ∈ quotedSetting? key value, s.Regular :=
  List.forall_mem_map.2 fun s hs =>
    regular_quotedSetting hkey (List.forall_mem_singleton.2 (h s (Option.mem_toList.1 hs)))

theorem regular_quotedList? {values : List String} (h : ∀ s ∈ values, Text.OneLine s) :
    ∀ s ∈ quotedList? key values, s.Regular := by
  rw [quotedList?]
  split
  · exact List.forall_mem_nil _
  · exact List.forall_mem_singleton.2 (regular_quotedSetting hkey h)

theorem regular_secretSetting? {secret : Option String} (h : ∀ s ∈ secret, Text.OneLine s) :
    ∀ s ∈ secretSetting? key secret, s.Regular := by
  refine List.forall_mem_map.2 fun s hs => ⟨hkey, ?_⟩
  have htext : (Value.secret s).text = s := by
    rw [Value.secret]
    split
    · split <;> rfl
    · rfl
  have hsecret : Text.OneLine (Value.secret s).text := by
    rw [htext]
    exact h s (Option.mem_toList.1 hs)
  exact List.forall_mem_cons.2
    ⟨oneLine_of_isBareWord hkey, List.forall_mem_singleton.2 hsecret⟩

theorem regular_networkSetting {n : Network} (ha : Text.OneLine n.address)
    (hm : Text.OneLine n.mask) : (networkSetting key n).Regular :=
  regular_bareSetting hkey (List.forall_mem_cons.2 ⟨ha, List.forall_mem_singleton.2 hm⟩)

end Shapes

theorem regular_settingIf {applies : Bool} {s : Setting Value} (h : s.Regular) :
    ∀ t ∈ settingIf applies s, t.Regular := by
  rw [settingIf]
  split
  · exact List.forall_mem_singleton.2 h
  · exact List.forall_mem_nil _

theorem regular_entry {name : String} {settings : List (Setting Value)}
    (hname : Text.OneLine name) (h : ∀ s ∈ settings, s.Regular) :
    Entry.Regular { name := .quoted name, settings } :=
  .mk trivial hname h (List.forall_mem_nil _)

theorem regular_numberedEntry {n : Nat} {settings : List (Setting Value)}
    {children : List (Section Value)} (h : ∀ s ∈ settings, s.Regular)
    (hchildren : ∀ s ∈ children, s.Regular) :
    Entry.Regular { name := .number n, settings, children } :=
  .mk (Value.isWord_number n) (Text.oneLine_toString_nat n) h hchildren

/-! ## Interfaces, zones and routes -/

theorem regular_rootDomain : rootDomain.Regular :=
  regular_quotedSetting (by decide) (by decide)

theorem regular_interfaceEntry (c : Config) {i : Interface} (hi : i.OneLine) :
    (interfaceEntry c i).Regular := by
  have hkeywords : ∀ s ∈ accessKeywords c i, Text.OneLine s := by
    rw [accessKeywords, List.forall_mem_append]
    constructor <;> split <;> decide
  refine regular_entry hi.name ?_
  simp only [List.forall_mem_append, List.forall_mem_singleton, List.forall_mem_map]
  refine ⟨⟨⟨⟨⟨⟨regular_rootDomain, fun p hp => ?_⟩, ?_⟩, ?_⟩, ?_⟩, fun vlan _ => ?_⟩, ?_⟩
  · obtain ⟨hip, hmask⟩ := hi.address? (Option.mem_toList.1 hp)
    exact regular_networkSetting (n := ⟨p.1, p.2⟩) (by decide) hip hmask
  · exact regular_settingIf (regular_bareSetting (by decide) hkeywords)
  · exact regular_quotedSetting? (by decide) hi.nickname
  · exact regular_quotedSetting? (by decide) hi.comment
  · exact regular_bareSetting (by decide)
      (List.forall_mem_singleton.2 (Text.oneLine_toString_uInt16 vlan))
  · exact regular_settingIf (regular_bareSetting (by decide) (by decide))

theorem regular_zoneEntry {z : Zone} (hz : z.OneLine) : (zoneEntry z).Regular :=
  regular_entry hz.name (List.forall_mem_append.2
    ⟨regular_quotedList? (by decide) hz.interfaces, regular_quotedSetting? (by decide) hz.description⟩)

theorem regular_routeEntry {c : Config} (hc : c.OneLine) {r : Route} (hr : r.OneLine)
    (position : Nat) : (routeEntry c r position).Regular := by
  refine regular_numberedEntry ?_ (List.forall_mem_nil _)
  simp only [List.forall_mem_append, List.forall_mem_singleton, List.forall_mem_map]
  refine ⟨⟨⟨⟨?_, fun gateway hgateway => ?_⟩, ?_⟩, fun distance _ => ?_⟩, ?_⟩
  · exact regular_networkSetting (by decide) hr.network hr.mask
  · exact regular_bareSetting (by decide)
      (List.forall_mem_singleton.2 (hr.gateway gateway (Option.mem_toList.1 hgateway)))
  · refine regular_quotedSetting? (by decide) fun s hs => ?_
    obtain ⟨reference, hreference, rfl⟩ := Option.map_eq_some_iff.1 hs
    exact hc.deviceName (hr.interface reference hreference)
  · exact regular_bareSetting (by decide)
      (List.forall_mem_singleton.2 (Text.oneLine_toString_uInt16 distance))
  · refine regular_quotedSetting? (by decide) fun s hs => ?_
    rcases Option.or_eq_some_iff.1 hs with h | ⟨-, h⟩
    · exact hr.description s h
    · exact hr.name s h

/-! ## Addresses -/

theorem oneLine_networkOf {text : String} (h : Text.OneLine text) :
    Text.OneLine (networkOf text).address ∧ Text.OneLine (networkOf text).mask := by
  rw [networkOf]
  cases hread : Network.read? text with
  | none => exact ⟨h.trim, Netmask.oneLine_single⟩
  | some n => exact Network.oneLine_of_read? h hread

theorem oneLine_objectNetwork {o : AddressObject} (ho : o.OneLine) :
    Text.OneLine (objectNetwork o).address ∧ Text.OneLine (objectNetwork o).mask := by
  rw [objectNetwork]
  split
  · next mask hmask => exact ⟨ho.value, ho.mask mask hmask⟩
  · exact oneLine_networkOf ho.value

theorem oneLine_rangeEnds {s : String} (hs : Text.OneLine s) :
    Text.OneLine (Text.rangeEnds s).1 ∧ Text.OneLine (Text.rangeEnds s).2 := by
  rw [Text.rangeEnds]
  cases h : Text.cut '-' s with
  | none => exact ⟨hs, hs⟩
  | some ends => exact hs.cut h

theorem regular_addressEntry {o : AddressObject} (ho : o.OneLine) : (addressEntry o).Regular := by
  refine regular_entry ho.name (List.forall_mem_append.2
    ⟨?_, regular_quotedSetting? (by decide) ho.description⟩)
  rw [addressSettings]
  split
  · exact List.forall_mem_singleton.2 
      (regular_networkSetting (by decide) ho.value Netmask.oneLine_single)
  · obtain ⟨haddress, hmask⟩ := oneLine_objectNetwork ho
    exact List.forall_mem_singleton.2 (regular_networkSetting (by decide) haddress hmask)
  · obtain ⟨hfirst, hlast⟩ := oneLine_rangeEnds ho.value
    simp only [List.forall_mem_cons]
    exact ⟨regular_bareSetting (by decide) (by decide),
      regular_bareSetting (by decide) (List.forall_mem_singleton.2 hfirst),
      regular_bareSetting (by decide) (List.forall_mem_singleton.2 hlast), List.forall_mem_nil _⟩
  · exact List.forall_mem_cons.2 ⟨regular_bareSetting (by decide) (by decide),
      List.forall_mem_singleton.2
        (regular_quotedSetting (by decide) (List.forall_mem_singleton.2 ho.value))⟩

theorem oneLine_addressName {endpoint : String} (h : Text.OneLine endpoint) :
    Text.OneLine (addressName endpoint) := by
  have hall : Text.OneLine allName := by decide
  have hclass := Endpoint.oneLine_classify h
  rw [addressName]
  split
  · exact hall
  · next heq =>
    rw [heq] at hclass
    exact hclass
  · next heq =>
    rw [heq] at hclass
    simp only [Text.oneLine_append, Text.toString_text]
    exact ⟨hclass, by decide⟩
  · next heq =>
    rw [heq] at hclass
    split
    · exact hall
    · exact Network.oneLine_cidr hclass.1

theorem regular_groupEntry {g : AddressGroup} (hg : g.OneLine) : (groupEntry g).Regular :=
  regular_entry hg.name (List.forall_mem_append.2
    ⟨regular_quotedList? (by decide) (List.forall_mem_map.2 fun m hm =>
      oneLine_addressName (hg.members m hm)), regular_quotedSetting? (by decide) hg.description⟩)

theorem oneLine_usedEndpoints {c : Config} (hc : c.OneLine) :
    ∀ s ∈ usedEndpoints c, Text.OneLine s := by
  simp only [usedEndpoints, List.forall_mem_append, List.forall_mem_flatMap]
  refine ⟨fun g hg => (hc.addressGroups g hg).members, fun p hp => ?_⟩
  have hp := hc.effectivePolicies p hp
  exact ⟨Text.oneLine_orAny hp.source, Text.oneLine_orAny hp.destination⟩

theorem regular_impliedAddressEntry {c : Config} (hc : c.OneLine) {name : String} {n : Network}
    (h : (name, n) ∈ impliedAddresses c) : (impliedAddressEntry name n).Regular := by
  obtain ⟨endpoint, hmem, h⟩ := List.mem_filterMap.1 (mem_of_mem_eraseDupsBy h)
  obtain ⟨n', hn, heq⟩ := Option.map_eq_some_iff.1 h
  cases heq
  have hone := oneLine_usedEndpoints hc endpoint hmem
  have hclass := Endpoint.oneLine_classify hone
  refine regular_entry (oneLine_addressName hone) (List.forall_mem_singleton.2 ?_)
  rw [literalNetwork?] at hn
  split at hn
  · next heq =>
    cases hn
    rw [heq] at hclass
    exact regular_networkSetting (by decide) hclass Netmask.oneLine_single
  · next heq =>
    rw [heq] at hclass
    split at hn
    · cases hn
    · cases hn
      exact regular_networkSetting (by decide) hclass.1 hclass.2
  · cases hn
  · cases hn

/-! ## Services -/

theorem oneLine_portList {ports : String} (h : Text.OneLine ports) :
    Text.OneLine (portList ports) := by
  refine Text.oneLine_unwords fun w hw => ?_
  obtain ⟨p, hp, rfl⟩ := List.mem_map.1 (List.mem_filter.1 hw).1
  exact (h.of_mem_pieces hp).trim

/-- A protocol that has no port range of its own is written as those that have. -/
theorem regular_portSettings (protocol : String) {ports : String} (h : Text.OneLine ports) :
    ∀ s ∈ portSettings protocol ports, s.Regular := by
  have hkeys : ∀ p ∈ ["tcp", "udp", "sctp"], IsBareWord (s!"{p}-portrange").toList := by decide
  have hrange : ∀ p ∈ ["tcp", "udp", "sctp"],
      (bareSetting s!"{p}-portrange" [portList ports]).Regular := fun p hp =>
    regular_bareSetting (hkeys p hp) (List.forall_mem_singleton.2 (oneLine_portList h))
  rw [portSettings]
  split
  · next hp => exact List.forall_mem_singleton.2 (hrange protocol (List.contains_iff_mem.1 hp))
  · exact List.forall_mem_cons.2
      ⟨hrange "tcp" (by decide), List.forall_mem_singleton.2 (hrange "udp" (by decide))⟩

theorem regular_serviceEntry {o : ServiceObject} (ho : o.OneLine) : (serviceEntry o).Regular := by
  have hword {word : String} (hword : Text.OneLine word) :
      ∀ s ∈ [bareSetting "protocol" [word]], s.Regular :=
    List.forall_mem_singleton.2
      (regular_bareSetting (by decide) (List.forall_mem_singleton.2 hword))
  refine regular_entry ho.name (List.forall_mem_append.2
    ⟨?_, regular_quotedSetting? (by decide) ho.description⟩)
  rw [protocolSettings]
  split
  · exact hword (by decide)
  · exact hword (by decide)
  · exact hword (by decide)
  · next hports _ => exact regular_portSettings _ (ho.port _ hports)
  · exact regular_portSettings _ (by decide)

theorem regular_impliedServiceEntry {c : Config} (hc : c.OneLine) {o : ServiceObject}
    (ho : o ∈ c.literalServices predefinedService) : (impliedServiceEntry o).Regular := by
  have ho := (hc.literalServices predefinedService o ho).1
  exact regular_entry ho.name
    (regular_portSettings _ (Text.oneLine_getD ho.port (by decide)))

theorem oneLine_serviceName {r : ServiceRef} (hr : r.OneLine) : Text.OneLine (serviceName r) := by
  cases r with
  | any => exact (by decide : Text.OneLine "ALL")
  | protocol name =>
    unfold serviceName
    split <;> first | decide | contradiction
  | named name => exact hr name List.mem_cons_self
  | port protocol ports =>
    have hpredefined {name : String} (h : predefinedService protocol ports = some name) :
        Text.OneLine name := by
      unfold predefinedService at h
      split at h <;> cases h <;> decide
    exact Text.oneLine_getD (fun _ => hpredefined)
      (oneLine_literalName (hr protocol List.mem_cons_self)
        (hr ports (List.mem_cons_of_mem _ List.mem_cons_self)))

/-! ## Rules -/

section Rules

variable {c : Config} (hc : c.OneLine)
include hc

theorem oneLine_zoneName {zone : Option String} (h : ∀ s ∈ zone, Text.OneLine s) :
    Text.OneLine (zoneName c zone) := by
  cases zone with
  | none => exact Text.oneLine_anyText
  | some zone =>
    rw [zoneName]
    split
    · exact h zone rfl
    · refine Text.oneLine_getD (fun s hs => ?_) Text.oneLine_anyText
      obtain ⟨i, hi, rfl⟩ := Option.map_eq_some_iff.1 hs
      exact (hc.findInterface? hi).name

theorem regular_ruleEntry (rules : List Policy) {p : Policy} (hp : p.OneLine) (position : Nat) :
    (ruleEntry c rules p position).Regular := by
  have haddresses {texts : List String} (h : ∀ s ∈ texts, Text.OneLine s) :
      ∀ s ∈ (orAny texts).map addressName, Text.OneLine s :=
    List.forall_mem_map.2 fun s hs => oneLine_addressName (Text.oneLine_orAny h s hs)
  have hservices : ∀ s ∈ p.services.map fun s => serviceName (c.resolveService s),
      Text.OneLine s :=
    List.forall_mem_map.2 fun s hs =>
      oneLine_serviceName (c.oneLine_resolveService (Text.oneLine_orAny hp.service s hs))
  refine regular_numberedEntry ?_ (List.forall_mem_nil _)
  simp only [List.forall_mem_append, List.forall_mem_cons]
  refine ⟨⟨⟨⟨?_, ?_, ?_, ?_, ?_, ?_, ?_, ?_, List.forall_mem_nil _⟩, ?_⟩, ?_⟩, ?_⟩
  · exact regular_quotedSetting (by decide)
      (List.forall_mem_singleton.2 (hp.labelAmong rules position))
  · exact regular_quotedSetting (by decide)
      (List.forall_mem_singleton.2 (oneLine_zoneName hc hp.sourceZone))
  · exact regular_quotedSetting (by decide)
      (List.forall_mem_singleton.2 (oneLine_zoneName hc hp.destinationZone))
  · exact regular_quotedSetting (by decide) (haddresses hp.source)
  · exact regular_quotedSetting (by decide) (haddresses hp.destination)
  · refine regular_bareSetting (by decide) (List.forall_mem_singleton.2 ?_)
    split <;> decide
  · exact regular_quotedSetting (by decide) (by decide)
  · exact regular_quotedSetting (by decide) hservices
  · exact regular_settingIf (regular_bareSetting (by decide) (by decide))
  · exact regular_settingIf (regular_bareSetting (by decide) (by decide))
  · exact regular_quotedSetting? (by decide) hp.description

end Rules

/-! ## Address translation -/

/-- A translation rule is written as an entry, or as a remark of one line. -/
def NatForm.Regular : NatForm → Prop
  | .virtualAddress e => e.Regular
  | .pool e => e.Regular
  | .remark what => Text.OneLine what

theorem regular_poolEntry {label addresses : String} (hlabel : Text.OneLine label)
    (haddresses : Text.OneLine addresses) : (poolEntry label addresses).Regular := by
  obtain ⟨hfirst, hlast⟩ := oneLine_rangeEnds haddresses
  exact regular_entry hlabel (List.forall_mem_cons.2
    ⟨regular_bareSetting (by decide) (List.forall_mem_singleton.2 hfirst),
      List.forall_mem_singleton.2
        (regular_bareSetting (by decide) (List.forall_mem_singleton.2 hlast))⟩)

section Translation

variable {c : Config} (hc : c.OneLine)
include hc

theorem oneLine_mappedAddress? {source s : String} (hs : Text.OneLine source)
    (h : mappedAddress? c source = some s) : Text.OneLine s := by
  have hclass := Endpoint.oneLine_classify hs
  rw [mappedAddress?] at h
  split at h
  · next heq =>
    cases h
    rw [heq] at hclass
    exact hclass
  · obtain ⟨o, ho, rfl⟩ := Option.map_eq_some_iff.1 h
    have hmem := List.mem_of_find?_eq_some (Option.filter_eq_some_iff.1 ho).1
    exact (hc.addressObjects o hmem).value
  · cases h
  · cases h

theorem regular_virtualAddressEntry {label mapped outer : String} (hlabel : Text.OneLine label)
    (hmapped : Text.OneLine mapped) (houter : Text.OneLine outer) {r : NatRule} (hr : r.OneLine) :
    (virtualAddressEntry c label mapped outer r).Regular := by
  have hinterface : Text.OneLine ((r.interface.map c.deviceName).getD anyText) := by
    refine Text.oneLine_getD (fun s hs => ?_) Text.oneLine_anyText
    obtain ⟨reference, hreference, rfl⟩ := Option.map_eq_some_iff.1 hs
    exact hc.deviceName (hr.interface reference hreference)
  refine regular_entry hlabel ?_
  simp only [List.forall_mem_append, List.forall_mem_cons]
  refine ⟨⟨?_, ?_, ?_, List.forall_mem_nil _⟩, regular_quotedSetting? (by decide) hr.description⟩
  · exact regular_bareSetting (by decide) (List.forall_mem_singleton.2 houter)
  · exact regular_quotedSetting (by decide) (List.forall_mem_singleton.2 hmapped)
  · exact regular_quotedSetting (by decide) (List.forall_mem_singleton.2 hinterface)

theorem regular_natForm {r : NatRule} (hr : r.OneLine) (position : Nat) :
    (natForm c r position).Regular := by
  have hlabel := hr.label position
  have hremark {opening middle closing s t : String} (ho : Text.OneLine opening)
      (hm : Text.OneLine middle) (hcl : Text.OneLine closing) (hs : Text.OneLine s)
      (ht : Text.OneLine t) :
      Text.OneLine (opening ++ r.label position ++ middle ++ s ++ " -> " ++ t ++ closing) := by
    simp only [Text.oneLine_append]
    exact ⟨⟨⟨⟨⟨⟨ho, hlabel⟩, hm⟩, hs⟩, by decide⟩, ht⟩, hcl⟩
  rw [natForm]
  cases hkind : r.kind with
  | static =>
    simp only []
    split
    · next mapped outer hmapped houter =>
      obtain ⟨source, hsource, hmapped⟩ := Option.bind_eq_some_iff.1 hmapped
      exact regular_virtualAddressEntry hc hlabel
        (oneLine_mappedAddress? hc (hr.source source hsource) hmapped)
        (hr.translated outer houter) hr
    · exact hremark (by decide) (by decide) (by decide)
        (Text.oneLine_getD hr.source (by decide)) (Text.oneLine_getD hr.translated (by decide))
  | pool =>
    simp only []
    split
    · next addresses haddresses => exact regular_poolEntry hlabel (hr.translated _ haddresses)
    · exact Text.oneLine_append.2 ⟨Text.oneLine_append.2 ⟨by decide, hlabel⟩, by decide⟩
  | dynamic =>
    exact hremark (by decide) (by decide) (by decide)
      (Text.oneLine_getD hr.source Text.oneLine_anyText)
      (Text.oneLine_getD hr.translated (by decide))

end Translation

/-! ## Tunnels -/

/-- The texts of a selector that is written hold no line feed. -/
structure PhaseTwo.OneLine (p : PhaseTwo) : Prop where
  name : Text.OneLine p.name
  phaseOne : Text.OneLine p.phaseOne
  proposal : Text.OneLine p.proposal
  source : Text.OneLine p.source.address ∧ Text.OneLine p.source.mask
  destination : Text.OneLine p.destination.address ∧ Text.OneLine p.destination.mask

theorem oneLine_wholeNetwork :
    Text.OneLine wholeNetwork.address ∧ Text.OneLine wholeNetwork.mask := by decide

theorem oneLine_proposalOfSet {s : TransformSet} (hs : s.OneLine) :
    Text.OneLine (proposalOfSet s) := by
  refine Text.oneLine_append.2 ⟨Text.oneLine_append.2 ⟨?_, by decide⟩, ?_⟩
  · split
    · decide
    · decide
    · decide
    · exact hs.encryption
  · split
    · decide
    · decide
    · decide
    · decide
    · exact hs.hash

theorem PhaseTwo.oneLine_ofSelector {s : Selector} (hs : s.OneLine) :
    (PhaseTwo.ofSelector s).OneLine := by
  have hnetwork {text : Option String} (h : ∀ s ∈ text, Text.OneLine s) :
      Text.OneLine ((text.map networkOf).getD wholeNetwork).address
        ∧ Text.OneLine ((text.map networkOf).getD wholeNetwork).mask := by
    cases text with
    | none => exact oneLine_wholeNetwork
    | some s => exact oneLine_networkOf (h s rfl)
  exact
    { name := hs.name
      phaseOne := hs.tunnel
      proposal := Text.oneLine_getD hs.proposal (by decide)
      source := hnetwork hs.source
      destination := hnetwork hs.destination }

theorem regular_phaseTwoEntry {p : PhaseTwo} (hp : p.OneLine) : (phaseTwoEntry p).Regular := by
  refine regular_entry hp.name ?_
  simp only [List.forall_mem_cons]
  exact ⟨regular_quotedSetting (by decide) (List.forall_mem_singleton.2 hp.phaseOne),
    regular_bareSetting (by decide) (List.forall_mem_singleton.2 hp.proposal),
    regular_networkSetting (by decide) hp.source.1 hp.source.2,
    regular_networkSetting (by decide) hp.destination.1 hp.destination.2, List.forall_mem_nil _⟩

section Tunnels

variable {c : Config} (hc : c.OneLine)
include hc

theorem oneLine_tunnelProposal {t : Tunnel} (ht : t.OneLine) :
    Text.OneLine (tunnelProposal c t) := by
  have hdefault : Text.OneLine defaultProposal := by decide
  rw [tunnelProposal]
  split
  · exact hdefault
  · next proposal hproposal =>
    have hproposal := ht.proposal proposal (Option.filter_eq_some_iff.1 hproposal).1
    simp only []
    split
    · split
      · exact hproposal
      · exact hdefault
    · next sets hsets =>
      refine Text.oneLine_unwords (List.forall_mem_map.2 fun s hs => ?_)
      obtain ⟨w, -, hfind⟩ := List.mem_filterMap.1 hs
      exact oneLine_proposalOfSet (hc.vpn.transformSets s (List.mem_of_find?_eq_some hfind))

theorem regular_phaseOneEntry {t : Tunnel} (ht : t.OneLine) {peer : String}
    (hpeer : Text.OneLine peer) : (phaseOneEntry c t peer).Regular := by
  have hinterface : Text.OneLine (tunnelInterface c t) := by
    rw [tunnelInterface]
    split
    · next reference hreference => exact hc.deviceName (ht.interface reference hreference)
    · decide
  refine regular_entry ht.label ?_
  simp only [List.forall_mem_append, List.forall_mem_cons]
  refine ⟨⟨⟨?_, ?_, ?_, ?_, List.forall_mem_nil _⟩, ?_⟩, ?_⟩
  · exact regular_quotedSetting (by decide) (List.forall_mem_singleton.2 hinterface)
  · exact regular_bareSetting (by decide) (by decide)
  · exact regular_bareSetting (by decide)
      (List.forall_mem_singleton.2 (oneLine_tunnelProposal hc ht))
  · exact regular_bareSetting (by decide) (List.forall_mem_singleton.2 hpeer)
  · exact regular_secretSetting? (by decide) ht.preSharedKey
  · exact regular_quotedSetting? (by decide) ht.description

theorem oneLine_firstNetwork? {endpoints : List String} (h : ∀ s ∈ endpoints, Text.OneLine s)
    {n : Network} (hn : firstNetwork? c endpoints = some n) :
    Text.OneLine n.address ∧ Text.OneLine n.mask := by
  obtain ⟨endpoint, hhead, hn⟩ := Option.bind_eq_some_iff.1 hn
  have hclass := Endpoint.oneLine_classify (h endpoint (List.mem_of_head? hhead))
  split at hn
  · next heq =>
    cases hn
    rw [heq] at hclass
    exact ⟨hclass, Netmask.oneLine_single⟩
  · next heq =>
    cases hn
    rw [heq] at hclass
    exact hclass
  · obtain ⟨o, ho, rfl⟩ := Option.map_eq_some_iff.1 hn
    exact oneLine_objectNetwork (hc.addressObjects o (List.mem_of_find?_eq_some ho))
  · cases hn

theorem PhaseTwo.oneLine_ofTunnel {t : Tunnel} (ht : t.OneLine) :
    (PhaseTwo.ofTunnel c t).OneLine := by
  have hnetwork {ends : Policy → List String}
      (h : ∀ p ∈ c.policies, ∀ s ∈ ends p, Text.OneLine s) {rule : Option Policy}
      (hrule : ∀ p ∈ rule, p ∈ c.policies) :
      Text.OneLine ((rule.bind fun p => firstNetwork? c (ends p)).getD wholeNetwork).address
        ∧ Text.OneLine ((rule.bind fun p => firstNetwork? c (ends p)).getD wholeNetwork).mask := by
    cases hn : rule.bind fun p => firstNetwork? c (ends p) with
    | none => exact oneLine_wholeNetwork
    | some n =>
      obtain ⟨p, hp, hn⟩ := Option.bind_eq_some_iff.1 hn
      exact oneLine_firstNetwork? hc (h p (hrule p hp)) hn
  have hrule : ∀ p ∈ t.acl.bind fun acl => c.policies.find? (·.name == some acl),
      p ∈ c.policies := by
    intro p hp
    obtain ⟨acl, -, hfind⟩ := Option.bind_eq_some_iff.1 hp
    exact List.mem_of_find?_eq_some hfind
  exact
    { name := Text.oneLine_append.2 ⟨ht.label, by decide⟩
      phaseOne := ht.label
      proposal := oneLine_tunnelProposal hc ht
      source := hnetwork (fun p hp => (hc.policies p hp).source) hrule
      destination := hnetwork (fun p hp => (hc.policies p hp).destination) hrule }

theorem oneLine_addMissing {ts : List Tunnel} (hts : ∀ t ∈ ts, t.OneLine) {phases : List PhaseTwo}
    (h : ∀ p ∈ phases, p.OneLine) : ∀ p ∈ addMissing c phases ts, p.OneLine := by
  induction ts generalizing phases with
  | nil => exact h
  | cons t ts ih =>
    obtain ⟨ht, hts⟩ := List.forall_mem_cons.1 hts
    rw [addMissing]
    refine ih hts ?_
    split
    · exact h
    · exact List.forall_mem_append.2
        ⟨h, List.forall_mem_singleton.2 (PhaseTwo.oneLine_ofTunnel hc ht)⟩

theorem oneLine_phaseTwos : ∀ p ∈ phaseTwos c, p.OneLine := by
  refine oneLine_addMissing hc (List.forall_mem_map.2 ?_) (List.forall_mem_map.2 fun s hs =>
    PhaseTwo.oneLine_ofSelector (hc.vpn.selectors s hs))
  exact fun ⟨t, peer⟩ h => (hc.peeredTunnels h).1

end Tunnels

/-! ## Accounts and servers -/

theorem regular_adminEntry {u : User} (hu : u.OneLine) : (adminEntry u).Regular := by
  have hprofile : Text.OneLine (adminProfile u) :=
    Text.oneLine_getD hu.role (by split <;> decide)
  refine regular_entry hu.username (List.forall_mem_append.2
    ⟨List.forall_mem_cons.2 ⟨?_, List.forall_mem_singleton.2 regular_rootDomain⟩,
      regular_secretSetting? (by decide) hu.secret⟩)
  exact regular_quotedSetting (by decide) (List.forall_mem_singleton.2 hprofile)

theorem regular_localEntry {u : User} (hu : u.OneLine) : (localEntry u).Regular :=
  regular_entry hu.username (List.forall_mem_append.2
    ⟨List.forall_mem_singleton.2 (regular_bareSetting (by decide) (by decide)),
      regular_secretSetting? (by decide) hu.secret⟩)

theorem regular_serverEntry {s : AaaServer} (hs : s.OneLine) : (serverEntry s).Regular := by
  refine regular_entry hs.name ?_
  simp only [List.forall_mem_append, List.forall_mem_singleton]
  exact ⟨⟨regular_quotedSetting? (by decide) hs.host,
    regular_bareSetting (by decide) (List.forall_mem_singleton.2 hs.port)⟩,
    regular_quotedSetting? (by decide) hs.baseDn⟩

/-! ## Communities -/

theorem regular_hostEntry {host : String} (h : Text.OneLine host) (position : Nat) :
    (hostEntry host position).Regular :=
  regular_numberedEntry (List.forall_mem_singleton.2 (regular_bareSetting (by decide)
    (List.forall_mem_cons.2 ⟨h, List.forall_mem_singleton.2 Netmask.oneLine_single⟩)))
    (List.forall_mem_nil _)

theorem regular_communityEntry {community : String} (hcommunity : Text.OneLine community)
    {hosts : List String} (h : ∀ s ∈ hosts, Text.OneLine s) (position : Nat) :
    (communityEntry community hosts position).Regular := by
  have hpath : (Value.bare "hosts").IsPath :=
    Value.isPath_bare ["hosts"] (by decide) (by decide) (by decide)
  refine regular_numberedEntry (List.forall_mem_singleton.2
    (regular_quotedSetting (by decide) (List.forall_mem_singleton.2 hcommunity))) ?_
  split
  · exact List.forall_mem_nil _
  · refine List.forall_mem_singleton.2 (.mk hpath (by decide) (List.forall_mem_nil _)
      (List.forall_mem_map.2 fun p hp => ?_) (List.forall_mem_nil _))
    exact regular_hostEntry (h p.1 (List.fst_mem_of_mem_zipIdx hp)) p.2

theorem oneLine_communities {settings : List SnmpSetting} (h : ∀ s ∈ settings, s.OneLine) :
    ∀ p ∈ communities settings, Text.OneLine p.1 ∧ ∀ host ∈ p.2, Text.OneLine host := by
  refine List.forall_mem_map.2 fun community hcommunity => ⟨?_, fun host hhost => ?_⟩
  · obtain ⟨s, hs, rfl⟩ := List.mem_map.1 (List.mem_eraseDups.1 hcommunity)
    exact (h s hs).community
  · obtain ⟨s, hs, hhost⟩ := List.mem_filterMap.1 hhost
    exact (h s (List.mem_filter.1 hs).1).host host hhost

end FirewallConfig.FortiOs
