import FirewallConfig.Proofs.Cisco.CoreList
import FirewallConfig.Proofs.Config.ZoneBased
import FirewallConfig.Proofs.FortiOs.Line
import FirewallConfig.Proofs.FortiOs.OneLine
import FirewallConfig.Proofs.PanOs.OneLine
import Mathlib.Data.List.Forall2

/-!
# Proofs/Cisco/Expansion — a rule becomes the product of its members

A rule of a zone-based configuration says something about each of its sources with each of its
destinations and services (`flows`).  The managed product reads an entry for each of these back, in
the order of the rules and of the members, in the list of the zone that the rule starts in
(`ruleAcl`); and every list that has entries is bound once (`expansion_read_write`).
-/

namespace FirewallConfig.Cisco

open Text

/-! ## What a rule says, member by member -/

/-- A rule with one of its sources, one of its destinations and one of its services. -/
structure Flow where
  rule : Policy
  source : String
  destination : String
  service : String

/-- The flows of a rule: in the order of the sources, and of the destinations for each of them. -/
def flows (rule : Policy) : List Flow :=
  rule.sources.flatMap fun source => rule.destinations.flatMap fun destination =>
    rule.services.map fun service => ⟨rule, source, destination, service⟩

/-- The list that a rule is written in: that of the interface its zone is called by, or the one for
everything. -/
def ruleAcl (c : Config) (rule : Policy) : String :=
  match rule.sourceZone with
  | some zone => nameifOf c zone ++ "_access_in"
  | none => globalAcl

/-- How the list of a rule is bound: to the interface its zone is called by, or to all of them. -/
def ruleBinding (c : Config) (rule : Policy) : AccessBinding :=
  match rule.sourceZone with
  | some zone => ⟨ruleAcl c rule, "in", nameifOf c zone⟩
  | none => ⟨globalAcl, "global", ""⟩

/-- The protocol that the meaning of a service restricts traffic to. -/
def impliedProtocol : ServiceRef → String
  | .protocol name | .port name _ => name
  | .any | .named _ => "ip"

/-- The rule that was read is an entry for the flow: it is in the list of the flow's rule, it does
with its traffic what that rule does, and its only source, destination and service mean what those
of the flow mean. -/
structure IsEntryFor (c : Config) (entry : Policy) (f : Flow) : Prop where
  name : entry.name = some (ruleAcl c f.rule)
  action : entry.action = f.rule.action
  enabled : entry.enabled = f.rule.enabled
  log : entry.log = f.rule.log
  source : entry.sources.map Endpoint.classify = [(Endpoint.classify f.source).canonical]
  destination :
    entry.destinations.map Endpoint.classify = [(Endpoint.classify f.destination).canonical]
  protocol : entry.protocol = impliedProtocol (ServiceRef.classify f.service)
  service : entry.services.map ServiceRef.classify = [ServiceRef.classify f.service]
  sourceZone : entry.sourceZone = f.rule.sourceZone.map (nameifOf c)

/-! ## Configurations that are expanded -/

/-- The service is written as operands that are words: it is everything, one of three protocols, a
port or a range of ports of two of them, or the name of a service that has no list of ports. -/
def IsPlainServiceText (c : Config) (service : String) : Prop :=
  match ServiceRef.classify service with
  | .any => True
  | .protocol name => name ∈ ["tcp", "udp", "icmp"]
  | .port name ports => name ∈ ["tcp", "udp"] ∧ IsPorts ports
  | .named name => IsWord name ∧ ∃ o, c.service? name = some o ∧ ∀ p ∈ o.port, isPortList p = false

/-- The names of interfaces and zones are words, and so is what the rules refer to by name; masks
are those of prefixes. -/
structure IsPlainModel (c : Config) : Prop where
  interfaces : ∀ i ∈ c.interfaces,
    IsWord i.name ∧ (∀ n ∈ i.nickname, IsWord n) ∧ ∀ z ∈ i.zone, IsWord z
  sourceZone : ∀ p ∈ c.policies, ∀ z ∈ p.sourceZone, IsWord z
  source : ∀ p ∈ c.policies, ∀ s ∈ p.sources, (Endpoint.classify s).IsPlain
  destination : ∀ p ∈ c.policies, ∀ d ∈ p.destinations, (Endpoint.classify d).IsPlain
  service : ∀ p ∈ c.policies, ∀ s ∈ p.services, IsPlainServiceText c s

theorem mem_flows {rule : Policy} {f : Flow} (h : f ∈ flows rule) :
    f.rule = rule ∧ f.source ∈ rule.sources ∧ f.destination ∈ rule.destinations
      ∧ f.service ∈ rule.services := by
  obtain ⟨source, hsource, h⟩ := List.mem_flatMap.1 h
  obtain ⟨destination, hdestination, h⟩ := List.mem_flatMap.1 h
  obtain ⟨service, hservice, rfl⟩ := List.mem_map.1 h
  exact ⟨rfl, hsource, hdestination, hservice⟩

/-- The line of the entry for a flow. -/
def flowLine (c : Config) (f : Flow) : String :=
  (entryOf c (ruleAcl c f.rule) f.rule f.source f.destination f.service).line

/-- The entries of a rule are those for its flows. -/
theorem map_line_entries (c : Config) (rule : Policy) :
    (entries c (ruleAcl c rule) rule).map AccessEntry.line = (flows rule).map (flowLine c) := by
  rw [entries_eq, flows, List.map_flatMap, List.map_flatMap]
  refine List.flatMap_congr fun source _ => ?_
  rw [List.map_flatMap, List.map_flatMap]
  refine List.flatMap_congr fun destination _ => ?_
  rw [List.map_map, List.map_map]
  rfl

/-! ## Services -/

/-- **A service is written as what it means**, and what is read of that means the same. -/
theorem serviceOperands_eq {c : Config} {rule : Policy} (hrule : rule.protocol = "ip")
    {service : String} (h : IsPlainServiceText c service) :
    serviceOperands c rule service
        = literalOperands rule.protocol (ServiceRef.classify service)
      ∧ IsPlainService (ServiceRef.classify service)
      ∧ (entryService rule.protocol (ServiceRef.classify service)).1
        = impliedProtocol (ServiceRef.classify service)
      ∧ (orAny (entryService rule.protocol (ServiceRef.classify service)).2).map
          ServiceRef.classify
        = [ServiceRef.classify service] := by
  rw [IsPlainServiceText] at h
  rw [hrule]
  cases hclass : ServiceRef.classify service with
  | any =>
    have hoperands := serviceOperands_of_classify c rule hclass nofun
    rw [hrule] at hoperands
    exact ⟨hoperands, trivial, rfl, by decide⟩
  | protocol name =>
    rw [hclass] at h
    have hoperands := serviceOperands_of_classify c rule hclass nofun
    rw [hrule] at hoperands
    simp only [List.mem_cons, List.not_mem_nil, or_false] at h
    refine ⟨hoperands, ?_, rfl, ?_⟩
    · rw [IsPlainService]
      rcases h with rfl | rfl | rfl <;> decide
    · rcases h with rfl | rfl | rfl <;> decide
  | port name ports =>
    rw [hclass] at h
    have hoperands := serviceOperands_of_classify c rule hclass nofun
    rw [hrule] at hoperands
    have hname : name ∈ ServiceRef.protocols := by
      have hsubset : ["tcp", "udp"] ⊆ ServiceRef.protocols := by decide
      exact hsubset h.1
    refine ⟨hoperands, ⟨hname, h.2⟩, rfl, ?_⟩
    exact congrArg (fun ref => [ref]) (ServiceRef.classify_port hname h.2)
  | named name =>
    rw [hclass] at h
    obtain ⟨hword, o, ho, hports⟩ := h
    have hresolve : c.resolveService service = .named name := by
      rw [Config.resolveService, hclass]
      exact if_pos (by rw [ho]; rfl)
    have hlist : o.port.any isPortList = false := by
      cases hport : o.port with
      | none => rfl
      | some p => exact hports p hport
    have hoperands : serviceOperands c rule service = (s!"object {name}", none) := by
      unfold serviceOperands
      rw [hresolve]
      simp only [ho, hlist, Bool.false_eq_true, if_false]
    exact ⟨hoperands, hword, rfl,
      congrArg (fun ref => [ref]) (ServiceRef.classify_of_eq_named hclass)⟩

/-! ## Where a rule is written -/

/-- The binding that a place stands for. -/
def placeBinding : String × Option String → AccessBinding
  | (acl, some interface) => ⟨acl, "in", interface⟩
  | (acl, none) => ⟨acl, "global", ""⟩

section Model

variable {c : Config} (hzone : c.IsZoneBased) (hc : IsPlainModel c) {origin : Dialect}
  (horigin : origin.isCisco = false)

include hc in
theorem isWord_nameifOf {zone : String} (h : IsWord zone) : IsWord (nameifOf c zone) := by
  rw [nameifOf]
  split
  · next i hi =>
    obtain ⟨hname, hnickname, hizone⟩ := hc.interfaces i (Config.mem_of_findInterface? hi)
    rw [nameif]
    split
    · next h => exact hnickname _ (Option.filter_eq_some_iff.1 h).1
    · next h => exact hizone _ (Option.filter_eq_some_iff.1 h).1
    · refine ⟨?_, fun d hd => ?_⟩
      · rw [withoutSlashes, String.toList_ofList]
        exact mt List.map_eq_nil_iff.1 hname.1
      · rw [withoutSlashes, String.toList_ofList] at hd
        obtain ⟨e, he, rfl⟩ := List.mem_map.1 hd
        split
        · decide
        · exact hname.2 e he
  · exact h

include hzone horigin in
/-- A rule is in the list of its zone, whatever its name is. -/
theorem placement_eq (rule : Policy) :
    placement c origin rule = (ruleAcl c rule, rule.sourceZone.map (nameifOf c)) := by
  have hnone : rule.name.filter (fun name => c.accessBindings.any (·.acl == name)) = none := by
    rw [hzone.accessBindings]
    cases rule.name <;> rfl
  rw [placement, hnone, ruleAcl]
  cases rule.sourceZone with
  | some zone => rfl
  | none =>
    rw [horigin]
    cases rule.name <;> rfl

/-- The place of a rule stands for its binding. -/
theorem placeBinding_eq (rule : Policy) :
    placeBinding (ruleAcl c rule, rule.sourceZone.map (nameifOf c)) = ruleBinding c rule := by
  rw [ruleBinding, ruleAcl]
  cases rule.sourceZone <;> rfl

/-- The list of a zone is that of no other interface, and not the one for everything. -/
theorem sourceZone_eq_of_ruleAcl_eq {p q : Policy} (h : ruleAcl c p = ruleAcl c q) :
    p.sourceZone.map (nameifOf c) = q.sourceZone.map (nameifOf c) := by
  have hglobal {s : String} : s ++ "_access_in" ≠ globalAcl := fun heq => by
    have hends : endsIn "_access_in" globalAcl = true := endsIn_iff.2 ⟨s.toList, by
      rw [← heq, String.toList_append]⟩
    exact absurd hends (by decide)
  unfold ruleAcl at h
  split at h <;> split at h
  · next hp _ _ hq =>
    rw [hp, hq, Option.map_some, Option.map_some]
    have hlist := congrArg String.toList h
    rw [String.toList_append, String.toList_append] at hlist
    exact congrArg some (String.toList_inj.1 (List.append_cancel_right hlist))
  · exact absurd h hglobal
  · exact absurd h.symm hglobal
  · next hp _ hq => rw [hp, hq]

include hc in
theorem isWord_ruleAcl {p : Policy} (hp : p ∈ c.policies) : IsWord (ruleAcl c p) := by
  rw [ruleAcl]
  split
  · next zone hz =>
    exact (isWord_nameifOf hc (hc.sourceZone p hp zone hz)).append (by decide)
  · decide

/-! ## Reading the lines of the rules -/

/-- The rule is an entry for the flow, but for what its list is bound to. -/
structure IsUnboundEntryFor (c : Config) (entry : Policy) (f : Flow) : Prop where
  bound : ∀ zone, entry.sourceZone.or zone = f.rule.sourceZone.map (nameifOf c) →
    IsEntryFor c { entry with sourceZone := entry.sourceZone.or zone } f
  name : entry.name = some (ruleAcl c f.rule)
  sourceZone : entry.sourceZone = none

include hzone hc in
/-- **The line of a flow is read as an entry for it.** -/
theorem step_flowLine {p : Policy} (hp : p ∈ c.policies) {f : Flow} (hf : f ∈ flows p)
    (a : Access) :
    ∃ entry, IsUnboundEntryFor c entry f ∧ (a.step (flowLine c f)).policies = a.policies ++ [entry]
      ∧ (a.step (flowLine c f)).bindings = a.bindings := by
  obtain ⟨rfl, hsource, hdestination, hservice⟩ := mem_flows hf
  have hs := hc.source _ hp _ hsource
  have hd := hc.destination _ hp _ hdestination
  obtain ⟨hoperands, hplain, himplied, hmeaning⟩ :=
    serviceOperands_eq (hzone.protocol _ hp) (hc.service _ hp _ hservice)
  have htext {s : String} (h : (Endpoint.classify s).IsPlain) :
      [(Endpoint.classify s).canonical.text].map Endpoint.classify
        = [(Endpoint.classify s).canonical] :=
    congrArg (fun e => [e]) (Endpoint.classify_text (Endpoint.isCanonical_canonical h))
  rw [flowLine, step_entryOf (isWord_ruleAcl hc hp) hs hd hoperands hplain, writtenRule]
  generalize entryService f.rule.protocol (ServiceRef.classify f.service) = written
    at himplied hmeaning ⊢
  refine ⟨_, ⟨fun zone hbound => ?_, rfl, rfl⟩, rfl, rfl⟩
  exact
    { name := rfl
      action := rfl
      enabled := rfl
      log := rfl
      source := htext hs
      destination := htext hd
      protocol := himplied
      service := hmeaning
      sourceZone := hbound }

include hzone hc in
theorem foldl_flowLines {p : Policy} (hp : p ∈ c.policies) {fs : List Flow}
    (hfs : ∀ f ∈ fs, f ∈ flows p) (a : Access) :
    ∃ read, List.Forall₂ (IsUnboundEntryFor c) read fs
      ∧ ((fs.map (flowLine c)).foldl Access.step a).policies = a.policies ++ read
      ∧ ((fs.map (flowLine c)).foldl Access.step a).bindings = a.bindings := by
  induction fs generalizing a with
  | nil => exact ⟨[], .nil, (List.append_nil _).symm, rfl⟩
  | cons f fs ih =>
    obtain ⟨hf, hfs⟩ := List.forall_mem_cons.1 hfs
    obtain ⟨entry, hentry, hpolicies, hbindings⟩ := step_flowLine hzone hc hp hf a
    obtain ⟨read, hread, hrest, hrestBindings⟩ := ih hfs (a.step (flowLine c f))
    refine ⟨entry :: read, .cons hentry hread, ?_, ?_⟩
    · rw [List.map_cons, List.foldl_cons, hrest, hpolicies, List.append_assoc]
      rfl
    · rw [List.map_cons, List.foldl_cons, hrestBindings, hbindings]

/-- The lines before the entries of a rule are remarks. -/
theorem exists_eq_of_mem_remarkLines (acl : String) (rule : Policy) :
    ∀ l ∈ remarkLines acl rule, ∃ text : String, l = s!"access-list {acl} remark {text}" := by
  rw [remarkLines]
  refine List.forall_mem_append.2 ⟨List.forall_mem_map.2 fun text _ => ⟨text, rfl⟩, ?_⟩
  split
  · exact List.forall_mem_nil _
  · refine List.forall_mem_singleton.2 ⟨"applications: " ++ ", ".intercalate rule.application, ?_⟩
    apply String.toList_inj.1
    simp

/-- Remarks add no entry. -/
theorem foldl_remarkLines {acl : String} (hacl : IsWord acl) (rule : Policy) (a : Access) :
    ∃ remark, (remarkLines acl rule).foldl Access.step a = { a with remark } := by
  have hremarks := exists_eq_of_mem_remarkLines acl rule
  generalize remarkLines acl rule = ls at hremarks
  induction ls generalizing a with
  | nil => exact ⟨a.remark, rfl⟩
  | cons l ls ih =>
    obtain ⟨⟨text, rfl⟩, hls⟩ := List.forall_mem_cons.1 hremarks
    obtain ⟨remark, h⟩ := ih (a.step s!"access-list {acl} remark {text}") hls
    refine ⟨remark, ?_⟩
    rw [List.foldl_cons, h, Access.step_remark hacl]

include hzone hc horigin in
/-- **The lines of rules are read as entries for their flows**, in order. -/
theorem foldl_ruleLines (rules : List Policy) (hrules : ∀ p ∈ rules, p ∈ c.policies) (a : Access) :
    ∃ read, List.Forall₂ (IsUnboundEntryFor c) read (rules.flatMap flows)
      ∧ ((rules.flatMap (ruleLines c origin)).foldl Access.step a).policies = a.policies ++ read
      ∧ ((rules.flatMap (ruleLines c origin)).foldl Access.step a).bindings = a.bindings := by
  induction rules generalizing a with
  | nil => exact ⟨[], .nil, (List.append_nil _).symm, rfl⟩
  | cons p rules ih =>
    obtain ⟨hp, hrules⟩ := List.forall_mem_cons.1 hrules
    have hacl : (placement c origin p).1 = ruleAcl c p := by rw [placement_eq hzone horigin]
    obtain ⟨remark, hremark⟩ := foldl_remarkLines (isWord_ruleAcl hc hp) p a
    obtain ⟨first, hfirst, hpolicies, hbindings⟩ :=
      foldl_flowLines hzone hc hp (fun _ h => h) { a with remark }
    obtain ⟨rest, hrest, hrestPolicies, hrestBindings⟩ :=
      ih hrules ((ruleLines c origin p).foldl Access.step a)
    have hlines : (ruleLines c origin p).foldl Access.step a
        = ((flows p).map (flowLine c)).foldl Access.step { a with remark } := by
      rw [ruleLines_eq hacl, List.foldl_append, hremark, map_line_entries]
    refine ⟨first ++ rest, ?_, ?_, ?_⟩
    · rw [List.flatMap_cons]
      exact List.rel_append hfirst hrest
    · rw [List.flatMap_cons, List.foldl_append, hrestPolicies, hlines, hpolicies,
        List.append_assoc]
    · rw [List.flatMap_cons, List.foldl_append, hrestBindings, hlines, hbindings]

/-! ## Reading the lines of the bindings -/

/-- The bindings that are written: one for each list, in the order of the rules. -/
def writtenRuleBindings (c : Config) : List AccessBinding :=
  ((c.policies.map fun p => (ruleAcl c p, p.sourceZone.map (nameifOf c))).eraseDupsBy
    fun p q => p.1 == q.1).map placeBinding

theorem acl_placeBinding (place : String × Option String) : (placeBinding place).acl = place.1 := by
  obtain ⟨acl, interface⟩ := place
  cases interface <;> rfl

/-- **Each list with rules is bound exactly once**, and as its rules want it. -/
theorem filter_writtenRuleBindings {p : Policy} (hp : p ∈ c.policies) :
    (writtenRuleBindings c).filter (·.acl == ruleAcl c p) = [ruleBinding c p] := by
  have hfilter : (fun place : String × Option String => (placeBinding place).acl == ruleAcl c p)
      = fun place => place.1 == ruleAcl c p := funext fun place => by rw [acl_placeBinding]
  have hsome : ((c.policies.map fun p => (ruleAcl c p, p.sourceZone.map (nameifOf c))).find?
      fun place => place.1 == ruleAcl c p).isSome :=
    List.find?_isSome.2 ⟨_, List.mem_map_of_mem hp, beq_self_eq_true _⟩
  obtain ⟨place, hplace⟩ := Option.isSome_iff_exists.1 hsome
  obtain ⟨q, -, rfl⟩ := List.mem_map.1 (List.mem_of_find?_eq_some hplace)
  have hacl : ruleAcl c q = ruleAcl c p := by simpa using List.find?_some hplace
  rw [writtenRuleBindings, List.filter_map, Function.comp_def, hfilter,
    filter_eraseDupsBy Prod.fst, hplace, hacl, sourceZone_eq_of_ruleAcl_eq hacl]
  exact congrArg (fun b => [b]) (placeBinding_eq p)

include hc in
/-- The place of a rule is written as its binding. -/
theorem placedBindingLine_eq {p : Policy} (hp : p ∈ c.policies) :
    placedBindingLine (ruleAcl c p, p.sourceZone.map (nameifOf c))
        = some (bindingLine (ruleBinding c p))
      ∧ IsCoreBinding (ruleBinding c p) := by
  have hacl := isWord_ruleAcl hc hp
  rw [ruleBinding]
  split
  · next zone hz =>
    have hinterface := isWord_nameifOf hc (hc.sourceZone p hp zone hz)
    refine ⟨?_, .interface hacl (.inl rfl) hinterface⟩
    have hdirection : ("in" == "global") = false := by decide
    rw [hz, bindingLine, hinterface.isEmpty_eq, hdirection]
    refine congrArg some (String.toList_inj.1 ?_)
    simp
  · next hz =>
    have hglobal : ruleAcl c p = globalAcl := by rw [ruleAcl, hz]
    refine ⟨?_, .all (by decide)⟩
    rw [hz, hglobal]
    rfl

include hzone hc horigin in
/-- **The lines of the bindings are read as one binding for each list.** -/
theorem says_writtenRuleBindings (a : Access) :
    Says (bindingLines c origin c.policies) a
      { a with bindings := a.bindings ++ writtenRuleBindings c } := by
  have hplaces : c.policies.map (placement c origin)
      = c.policies.map fun p => (ruleAcl c p, p.sourceZone.map (nameifOf c)) :=
    List.map_congr_left fun p _ => placement_eq hzone horigin p
  have hplace : ∀ place ∈ (c.policies.map fun p =>
      (ruleAcl c p, p.sourceZone.map (nameifOf c))).eraseDupsBy fun p q => p.1 == q.1,
        placedBindingLine place = some (bindingLine (placeBinding place))
          ∧ IsCoreBinding (placeBinding place) := by
    intro place hplace
    obtain ⟨p, hp, rfl⟩ := List.mem_map.1 (mem_of_mem_eraseDupsBy hplace)
    rw [placeBinding_eq]
    exact placedBindingLine_eq hc hp
  have hlines : bindingLines c origin c.policies = (writtenRuleBindings c).map bindingLine := by
    rw [bindingLines, hzone.accessBindings, List.isEmpty_nil, if_pos rfl, hplaces,
      writtenRuleBindings, List.map_map,
      List.filterMap_congr fun place hmem => (hplace place hmem).1]
    exact congrFun (List.filterMap_eq_map (f := bindingLine ∘ placeBinding)) _
  rw [hlines]
  exact says_bindingLines (List.forall_mem_map.2 fun place hmem => (hplace place hmem).2) a

/-! ## The whole text -/

include hzone hc horigin in
/-- **What is read back of access lists are entries for all flows, and one binding for each
list.** -/
theorem accessOf_write_eq (hone : c.OneLine) :
    List.Forall₂ (IsUnboundEntryFor c) (accessOf (write .ftd origin c)).policies
        (c.policies.flatMap flows)
      ∧ (accessOf (write .ftd origin c)).bindings = writtenRuleBindings c := by
  rw [accessOf_write hone origin hzone.securityProfiles]
  unfold accessLines
  rw [hzone.effectivePolicies_eq]
  split
  · next hnil => rw [writtenRuleBindings, hnil]; exact ⟨.nil, rfl⟩
  · obtain ⟨read, hread, hpolicies, hbindings⟩ :=
      foldl_ruleLines hzone hc horigin c.policies (fun _ h => h) {}
    have hbang (a : Access) : ["!"].foldl Access.step a = a :=
      foldl_step_of_isQuiet (List.forall_mem_singleton.2 (by decide)) a
    rw [block, List.foldl_append, List.foldl_append, hbang,
      (says_writtenRuleBindings hzone hc horigin _).foldl, hpolicies, hbindings]
    exact ⟨hread, rfl⟩

/-- The list of a rule gives its entries back the interface of its zone. -/
theorem map_interface_find?_writtenRuleBindings {p : Policy} (hp : p ∈ c.policies) :
    ((writtenRuleBindings c).find? fun b =>
        b.direction == "in" && some (ruleAcl c p) == some b.acl).map (·.interface)
      = p.sourceZone.map (nameifOf c) := by
  have hfind : ((writtenRuleBindings c).find? fun b =>
        b.direction == "in" && some (ruleAcl c p) == some b.acl)
      = ((writtenRuleBindings c).filter (·.acl == ruleAcl c p)).find? (·.direction == "in") := by
    rw [List.find?_filter]
    refine congrArg (fun f => (writtenRuleBindings c).find? f) (funext fun b => ?_)
    rw [Bool.and_comm, Option.some_beq_some, BEq.comm, Bool.decide_and, Bool.decide_eq_true,
      Bool.decide_eq_true]
  rw [hfind, filter_writtenRuleBindings hp, ruleBinding]
  cases p.sourceZone <;> rfl

include hzone hc horigin in
/-- **Every rule is read back as the entries for its flows.** -/
theorem forall₂_policies_read_write (hone : c.OneLine) :
    List.Forall₂ (IsEntryFor c) (read .ftd (write .ftd origin c)).policies
      (c.policies.flatMap flows) := by
  obtain ⟨hread, hbindings⟩ := accessOf_write_eq hzone hc horigin hone
  rw [policies_read, hbindings, List.forall₂_map_left_iff]
  have hmem : List.Forall₂ (fun _ f => f.rule ∈ c.policies)
      (accessOf (write .ftd origin c)).policies (c.policies.flatMap flows) := by
    refine List.forall₂_iff_get.2 ⟨hread.length_eq, fun i _ hi => ?_⟩
    obtain ⟨p, hp, hf⟩ := List.mem_flatMap.1 (List.get_mem (c.policies.flatMap flows) ⟨i, hi⟩)
    rw [(mem_flows hf).1]
    exact hp
  refine List.Forall₂.mp (fun entry f hentry hrule => ?_) hread hmem
  refine hentry.bound _ ?_
  rw [hentry.sourceZone, Option.none_or, hentry.name]
  exact map_interface_find?_writtenRuleBindings hrule

end Model

/-- The flows of the rules in a list are the flows that are in it. -/
theorem flatMap_flows_filter (c : Config) (acl : String) (rules : List Policy) :
    (rules.filter (ruleAcl c · == acl)).flatMap flows
      = (rules.flatMap flows).filter fun f => ruleAcl c f.rule == acl := by
  induction rules with
  | nil => rfl
  | cons p rules ih =>
    rw [List.flatMap_cons, List.filter_append, ← ih, List.filter_cons]
    split
    · next hacl =>
      have hall : (flows p).filter (fun f => ruleAcl c f.rule == acl) = flows p :=
        List.filter_eq_self.2 fun f hf => by rw [(mem_flows hf).1]; exact hacl
      rw [hall, List.flatMap_cons]
    · next hacl =>
      have hnone : (flows p).filter (fun f => ruleAcl c f.rule == acl) = [] :=
        List.filter_eq_nil_iff.2 fun f hf => by rw [(mem_flows hf).1]; exact hacl
      rw [hnone, List.nil_append]

theorem exists_of_forall₂ {α β : Type} {R : α → β → Prop} {as : List α} {bs : List β}
    (h : List.Forall₂ R as bs) : ∀ a ∈ as, ∃ b ∈ bs, R a b := by
  induction h with
  | nil => exact List.forall_mem_nil _
  | cons hab _ ih =>
    refine List.forall_mem_cons.2 ⟨⟨_, List.mem_cons_self, hab⟩, fun a ha => ?_⟩
    obtain ⟨b, hb, hr⟩ := ih a ha
    exact ⟨b, List.mem_cons_of_mem _ hb, hr⟩

/-- **A rule becomes the product of its members**, in order and in a list that is bound as it
should be.  What the managed product reads back of a list are the entries for the flows of the rules
that are in it; a rule with a zone is in the list of that zone alone, one without is in the list for
everything, and each list with rules is bound once. -/
theorem expansion_read_write {origin : Dialect} (horigin : origin = .fortiGate ∨ origin = .paloAlto)
    (text : String) (hplain : IsPlainModel (origin.read text)) :
    let c := origin.read text
    let back := Dialect.ciscoFtd.read (Dialect.ciscoFtd.write origin c)
    (∀ acl, List.Forall₂ (IsEntryFor c) (back.policies.filter (·.name == some acl))
        ((c.policies.filter (ruleAcl c · == acl)).flatMap flows))
      ∧ (∀ entry ∈ back.policies, ∃ p ∈ c.policies, entry.name = some (ruleAcl c p))
      ∧ ∀ p ∈ c.policies, back.accessBindings.filter (·.acl == ruleAcl c p) = [ruleBinding c p] := by
  intro c back
  have hcisco : origin.isCisco = false := by rcases horigin with rfl | rfl <;> rfl
  have hone : c.OneLine := by
    rcases horigin with rfl | rfl
    · exact FortiOs.oneLine_read text
    · exact PanOs.oneLine_read text
  have hzone : c.IsZoneBased := Dialect.isZoneBased_read hcisco text
  have hentries : List.Forall₂ (IsEntryFor c) back.policies (c.policies.flatMap flows) :=
    forall₂_policies_read_write hzone hplain hcisco hone
  refine ⟨fun acl => ?_, fun entry hentry => ?_, fun p hp => ?_⟩
  · rw [flatMap_flows_filter]
    refine List.rel_filter (fun {entry f} hentry => ?_) hentries
    have hname := hentry.name
    simp [hname]
  · obtain ⟨f, hf, hentry⟩ := exists_of_forall₂ hentries entry hentry
    obtain ⟨p, hp, hf⟩ := List.mem_flatMap.1 hf
    exact ⟨p, hp, (mem_flows hf).1 ▸ hentry.name⟩
  · have hbindings : back.accessBindings = writtenRuleBindings c :=
      (accessBindings_read .ftd _).trans (accessOf_write_eq hzone hplain hcisco hone).2
    rw [hbindings]
    exact filter_writtenRuleBindings hp

/-- A text with a rule of two sources and two services in the list of a zone, and a rule without a
zone that is switched off. -/
def zonedText : String :=
  "config system interface\nedit port1\nset ip 10.0.0.1 255.255.255.0\nset alias lan\nnext\nend\n"
    ++ "config firewall service custom\nedit app\nset tcp-portrange 8080-8081\nnext\nend\n"
    ++ "config firewall policy\nedit 1\nset srcintf port1\nset srcaddr web \"10.0.1.0 0.0.0.0\"\n"
    ++ "set dstaddr all\nset action accept\nset service app HTTPS\nset logtraffic all\nnext\n"
    ++ "edit 2\nset status disable\nnext\nend\n"

/-- The lines of that text. -/
def zonedLines : List String :=
  ["config system interface", "edit port1", "set ip 10.0.0.1 255.255.255.0", "set alias lan", "next",
   "end", "config firewall service custom", "edit app", "set tcp-portrange 8080-8081", "next", "end",
   "config firewall policy", "edit 1", "set srcintf port1", "set srcaddr web \"10.0.1.0 0.0.0.0\"",
   "set dstaddr all", "set action accept", "set service app HTTPS", "set logtraffic all", "next",
   "edit 2", "set status disable", "next", "end"]

theorem zonedText_eq : zonedText = unlines zonedLines := by decide +kernel

/-- What is read of that text. -/
def zonedConfig : Config where
  interfaces :=
    [{ name := "port1", ip := some "10.0.0.1", mask := some "255.255.255.0", nickname := some "lan"
       zone := some "untrust" }]
  services := [{ name := "app", protocol := "tcp", port := some "8080-8081" }]
  policies :=
    [{ id := some 1, action := .permit, source := ["web", "10.0.1.0 0.0.0.0"]
       destination := ["any"], service := ["app", "tcp/443"], sourceZone := some "port1"
       log := true },
     { id := some 2, enabled := false }]

theorem isPlainModel_zonedConfig : IsPlainModel zonedConfig where
  interfaces := by decide
  sourceZone := by decide
  source := by decide +kernel
  destination := by decide +kernel
  service := by
    have happ : IsPlainServiceText zonedConfig "app" := by
      have hclass : ServiceRef.classify "app" = .named "app" := by decide +kernel
      rw [IsPlainServiceText, hclass]
      exact ⟨by decide, _, rfl, by decide⟩
    have hhttps : IsPlainServiceText zonedConfig "tcp/443" := by
      have hclass : ServiceRef.classify "tcp/443" = .port "tcp" "443" := by decide +kernel
      rw [IsPlainServiceText, hclass]
      exact ⟨by decide, .port (isNumeral_toString 443)⟩
    have hany : IsPlainServiceText zonedConfig anyText := by
      have hclass : ServiceRef.classify anyText = .any := by decide
      rw [IsPlainServiceText, hclass]
      trivial
    refine List.forall_mem_cons.2 ⟨List.forall_mem_cons.2 ⟨happ, List.forall_mem_singleton.2 hhttps⟩,
      List.forall_mem_singleton.2 (List.forall_mem_singleton.2 hany)⟩

/-- The first rule comes back as four entries in the list of the zone, the second one as one entry in
the list for everything. -/
theorem expansion_read_write_zonedText :
    IsPlainModel (Dialect.fortiGate.read zonedText)
      ∧ (let c := Dialect.fortiGate.read zonedText
        let back := Dialect.ciscoFtd.read (Dialect.ciscoFtd.write .fortiGate c)
        (∀ acl, List.Forall₂ (IsEntryFor c) (back.policies.filter (·.name == some acl))
            ((c.policies.filter (ruleAcl c · == acl)).flatMap flows))
          ∧ (∀ entry ∈ back.policies, ∃ p ∈ c.policies, entry.name = some (ruleAcl c p))
          ∧ ∀ p ∈ c.policies,
            back.accessBindings.filter (·.acl == ruleAcl c p) = [ruleBinding c p]) := by
  have hread : Dialect.fortiGate.read zonedText = zonedConfig := by
    rw [Dialect.read, FortiOs.read, zonedText_eq,
      FortiOs.readForest_unlines_eq (by decide +kernel)]
    decide +kernel
  have hplain : IsPlainModel (Dialect.fortiGate.read zonedText) := hread ▸ isPlainModel_zonedConfig
  exact ⟨hplain, expansion_read_write (.inl rfl) zonedText hplain⟩

end FirewallConfig.Cisco
