import FirewallConfig.Proofs.Cisco.Entry
import FirewallConfig.Proofs.FortiOs.Rules
import FirewallConfig.Proofs.PanOs.Rules

/-!
# Proofs/Cisco/Restriction — what becomes of the protocol of an entry

An entry restricts traffic to a protocol, and a rule keeps that protocol apart from its services.  The
writers look at the services; where there is none, each has protocols of its own that it writes, and
any other one becomes everything.  `restriction_kept_iff` says for each writer when the restriction is
kept.
-/

namespace FirewallConfig

open Text

/-! ## Names of services -/

/-- A name with a slash is not known beforehand. -/
theorem wellKnownService_eq_none {name : String} (h : '/' ∈ name.toList) :
    wellKnownService name = none := by
  have hlower := slash_mem_lower.2 h
  unfold wellKnownService
  generalize lower name = small at hlower
  split
  all_goals first | rfl | exact absurd hlower (by decide)

/-- A name made of a protocol and its ports has a dash in it. -/
theorem literalName_ne {protocol ports word : String} (h : '-' ∉ word.toList) :
    literalName protocol ports ≠ word := by
  rintro rfl
  refine h ?_
  simp [literalName]

theorem FortiOs.serviceName_port_ne (protocol ports : String) :
    FortiOs.serviceName (.port protocol ports) ≠ "ALL" := by
  rw [FortiOs.serviceName]
  unfold FortiOs.predefinedService
  split
  case h_12 => exact literalName_ne (by decide)
  all_goals decide

theorem PanOs.serviceName_port_ne (protocol ports : String) :
    PanOs.serviceName (.port protocol ports) ≠ anyText := by
  rw [PanOs.serviceName]
  unfold PanOs.predefinedService
  split
  case h_3 => exact literalName_ne (by decide)
  all_goals decide

namespace Cisco

/-! ## What the protocol of a rule is -/

/-- What every rule of an access list has: its protocol is one word in small letters, and it names no
application. -/
structure IsAccessRule (rule : Policy) : Prop where
  protocol : IsWord rule.protocol
  small : lower rule.protocol = rule.protocol
  application : rule.application = []

theorem isAccessRule_of_readEntryOperands {action : Action} {protocol : String}
    (hprotocol : IsWord protocol) (hsmall : lower protocol = protocol) {named ws : List String}
    {rule : Policy} (h : readEntryOperands action protocol named ws = some rule) :
    IsAccessRule rule := by
  rw [readEntryOperands] at h
  split at h
  · cases h
  · split at h
    · cases h
    · cases h
      exact ⟨hprotocol, hsmall, rfl⟩

theorem isAccessRule_of_readEntry {ws : List String} (hws : ∀ w ∈ ws, IsWord w) {rule : Policy}
    (h : readEntry ws = some rule) : IsAccessRule rule := by
  unfold readEntry at h
  split at h
  · cases h
  · split at h
    · split at h
      · exact isAccessRule_of_readEntryOperands (by decide) (by decide) h
      · exact isAccessRule_of_readEntryOperands (by decide) (by decide) h
      · have hword := hws _ (List.mem_cons_of_mem _ List.mem_cons_self)
        exact isAccessRule_of_readEntryOperands hword.lower (lower_lower _) h
      · cases h
    · cases h

/-- Every rule of an access list is one. -/
theorem isAccessRule_of_mem_policies {flavor : Flavor} {text : String} {rule : Policy}
    (h : rule ∈ (read flavor text).policies) : IsAccessRule rule := by
  obtain ⟨raw, -, acl, entry, hread, id, description, sourceZone, rfl⟩ :=
    exists_entry_of_mem_policies h
  obtain ⟨ws, hws, hentry | ⟨action, hentry⟩⟩ := exists_readEntry_of_read hread
  · have hrule := isAccessRule_of_readEntry (fun w hw => isWord_of_mem_words (hws hw)) hentry
    exact ⟨hrule.protocol, hrule.small, hrule.application⟩
  · obtain ⟨operand, -, rfl⟩ := Option.map_eq_some_iff.1 hentry
    have hip : IsWord "ip" ∧ lower "ip" = "ip" := by decide
    exact ⟨hip.1, hip.2, rfl⟩

/-! ## Rules that name no service -/

/-- The only service of the rule is ports of its protocol. -/
def HasPorts (rule : Policy) : Prop := ∃ ports, rule.service = [rule.protocol ++ "/" ++ ports]

/-- The rule has no service but its protocol, with or without ports, and nothing is declared under
that name. -/
structure NamesNoService (c : Config) (rule : Policy) : Prop where
  service : rule.service = bareService rule.protocol ∨ HasPorts rule
  undeclared : ∀ s ∈ rule.service, ∀ name, ServiceRef.classify s = .named name →
    c.service? name = none

/-! ## Where the restriction is kept -/

/-- No entry that the rule is written as is about every protocol. -/
def KeptInAccessList (c : Config) (rule : Policy) : Prop :=
  ∀ acl, ∀ e ∈ entries c acl rule, e.protocol ≠ "ip"

/-- Wherever the rule stands, the services it is written with are not `ALL`. -/
def KeptInServices (c : Config) (rule : Policy) : Prop :=
  ∀ position, "ALL" ∉ FortiOs.valuesOf
    (FortiOs.ruleEntry c c.effectivePolicies rule position).readBack.settings "service"

/-- The rule is not written with every service and every application. -/
def KeptInApplications (c : Config) (rule : Policy) : Prop :=
  ¬ (anyText ∈ PanOs.ruleServices c rule ∧ anyText ∈ PanOs.ruleApplications rule)

/-- What the service of a rule that names none resolves to. -/
inductive IsRestriction (c : Config) (rule : Policy) : ServiceRef → Prop
  | any (hports : ¬ HasPorts rule) (h : rule.protocol ∉ ["tcp", "udp", "icmp"]) :
    IsRestriction c rule .any
  | protocol (hports : ¬ HasPorts rule) (h : rule.protocol ∈ ["tcp", "udp", "icmp"]) :
    IsRestriction c rule (.protocol rule.protocol)
  | port {protocol ports : String} (hports : HasPorts rule)
    (hip : protocol = "ip" ↔ beginsWith "ip/" rule.protocol = true) :
    IsRestriction c rule (.port protocol ports)
  | named {name : String} (hports : HasPorts rule) (hip : beginsWith "ip/" rule.protocol = false)
    (hslash : '/' ∈ name.toList) (hname : c.service? name = none) :
    IsRestriction c rule (.named name)

section Rule

variable {c : Config} {rule : Policy} (hrule : IsAccessRule rule) (hprotocol : rule.protocol ≠ "ip")
  (hservice : NamesNoService c rule)
include hrule hprotocol hservice

/-- **A rule that names no service has one service**, which restricts it to its protocol or not at
all. -/
theorem exists_isRestriction :
    ∃ s ref, rule.services = [s] ∧ ServiceRef.classify s = ref ∧ c.resolveService s = ref
      ∧ IsRestriction c rule ref := by
  rcases hservice.service with hbare | hports
  · have hnone : ¬ HasPorts rule := by
      rintro ⟨ports, hports⟩
      rw [hbare, bareService] at hports
      split at hports
      · have hlist := congrArg String.toList (List.cons.inj hports).1
        rw [String.append_assoc, String.toList_append] at hlist
        exact absurd (List.self_eq_append_right.1 hlist) (by simp)
      · cases hports
    rw [bareService] at hbare
    split at hbare
    · next h =>
      have hmem := List.contains_iff_mem.1 h
      have hclass : ServiceRef.classify rule.protocol = .protocol rule.protocol := by
        generalize rule.protocol = protocol at hmem
        simp only [List.mem_cons, List.not_mem_nil, or_false] at hmem
        rcases hmem with rfl | rfl | rfl <;> rfl
      exact ⟨rule.protocol, _, by rw [Policy.services, hbare]; rfl, hclass,
        by rw [Config.resolveService, hclass], .protocol hnone hmem⟩
    · next h =>
      exact ⟨anyText, .any, by rw [Policy.services, hbare]; rfl, rfl, rfl,
        .any hnone (mt List.contains_iff_mem.2 h)⟩
  · obtain ⟨ports, hservices⟩ := id hports
    obtain ⟨q, hclass⟩ := ServiceRef.classify_ports hrule.protocol hrule.small ports
    have hundeclared := hservice.undeclared _ (by rw [hservices]; exact List.mem_cons_self)
    refine ⟨rule.protocol ++ "/" ++ ports, ?_⟩
    rw [Policy.services, hservices, Config.resolveService]
    cases href : ServiceRef.ofPort? (rule.protocol ++ "/" ++ lower q) with
    | some ref =>
      obtain ⟨protocol, number, rfl, hip⟩ := ServiceRef.ofPort?_eq_some hprotocol href
      rw [hclass, href]
      exact ⟨_, rfl, rfl, rfl, .port hports hip⟩
    | none =>
      rw [href] at hclass
      have hslash : '/' ∈ (rule.protocol ++ "/" ++ q).toList := by simp
      have hname := hundeclared _ hclass
      rw [hclass]
      simp only [Option.getD_none, hname, Option.isSome_none, Bool.false_eq_true, if_false,
        wellKnownService_eq_none hslash]
      exact ⟨_, rfl, rfl, rfl,
        .named hports (ServiceRef.beginsWith_eq_false_of_ofPort?_eq_none href) hslash hname⟩

/-! ## What the writers make of it -/

/-- An access list keeps the protocol of entries with ports, and five others. -/
theorem keptInAccessList_iff :
    KeptInAccessList c rule
      ↔ HasPorts rule ∧ beginsWith "ip/" rule.protocol = false
        ∨ rule.protocol ∈ restrictingProtocols := by
  obtain ⟨s, ref, hservices, -, href, hs⟩ := exists_isRestriction hrule hprotocol hservice
  have hentries : KeptInAccessList c rule ↔ (serviceOperands c rule s).1 ≠ "ip" := by
    simp only [KeptInAccessList, entries_eq, List.mem_flatMap, List.mem_map]
    refine ⟨fun h => ?_, ?_⟩
    · obtain ⟨source, hsource⟩ := List.exists_mem_of_ne_nil _ (PanOs.ne_nil_orAny rule.source)
      obtain ⟨destination, hdestination⟩ :=
        List.exists_mem_of_ne_nil _ (PanOs.ne_nil_orAny rule.destination)
      have hentry := h globalAcl _ ⟨source, hsource, destination, hdestination, s,
        by rw [hservices]; exact List.mem_singleton_self s, rfl⟩
      rw [entryOf_eq] at hentry
      exact hentry
    · rintro h acl e ⟨source, -, destination, -, t, ht, rfl⟩
      rw [hservices, List.mem_singleton] at ht
      rw [entryOf_eq, ht]
      exact h
  rw [hentries]
  unfold serviceOperands
  rw [href]
  cases hs with
  | any hports h =>
    rw [or_iff_right (fun hkept => hports hkept.1), ← List.contains_iff_mem]
    dsimp only [literalOperands]
    split
    · next hmem => exact iff_of_true hprotocol hmem
    · next hmem => exact iff_of_false (not_not_intro rfl) hmem
  | protocol hports h =>
    have hsubset : ["tcp", "udp", "icmp"] ⊆ restrictingProtocols := by decide
    exact iff_of_true hprotocol (.inr (hsubset h))
  | port hports hip =>
    have hnone : ∀ p ∈ restrictingProtocols, beginsWith "ip/" p = false := by decide
    dsimp only [literalOperands]
    rw [ne_eq, hip, Bool.not_eq_true, or_iff_left_of_imp fun h => ⟨hports, hnone _ h⟩]
    exact (and_iff_right hports).symm
  | @named name hports hip hslash hname =>
    have hobject : "object " ++ name ≠ "ip" := fun h => by
      have hlist := congrArg String.toList h
      rw [String.toList_append] at hlist
      cases hlist
    simp only [hname]
    exact iff_of_true hobject (.inl ⟨hports, hip⟩)

/-- A list of services keeps ports, and three protocols. -/
theorem keptInServices_iff :
    KeptInServices c rule ↔ HasPorts rule ∨ rule.protocol ∈ ["tcp", "udp", "icmp"] := by
  obtain ⟨s, ref, hservices, -, href, hs⟩ := exists_isRestriction hrule hprotocol hservice
  have hmem (position : Nat) : (⟨"service", [FortiOs.serviceName ref]⟩ : FortiOs.Setting String)
      ∈ FortiOs.ruleSettings c rule position := by
    rw [FortiOs.ruleSettings, hservices, List.map_singleton, href]
    simp
  have hvalues (position : Nat) : FortiOs.valuesOf
      (FortiOs.ruleEntry c c.effectivePolicies rule position).readBack.settings "service"
      = [FortiOs.serviceName ref] := by
    rw [FortiOs.readBack_ruleEntry]
    exact FortiOs.valuesOf_eq (FortiOs.nodup_ruleSettings c rule position) (hmem position)
  simp only [KeptInServices, hvalues, List.mem_singleton, forall_const]
  cases hs with
  | any hports h => exact iff_of_false (not_not_intro rfl) (not_or_intro hports h)
  | protocol hports h =>
    refine iff_of_true ?_ (.inr h)
    generalize rule.protocol = protocol at h
    simp only [List.mem_cons, List.not_mem_nil, or_false] at h
    rcases h with rfl | rfl | rfl <;> decide
  | port hports hip =>
    exact iff_of_true (FortiOs.serviceName_port_ne _ _).symm (.inl hports)
  | @named name hports hip hslash hname =>
    refine iff_of_true ?_ (.inl hports)
    rintro rfl
    exact absurd hslash (by decide)

/-- Services and applications together keep ports, and one protocol. -/
theorem keptInApplications_iff :
    KeptInApplications c rule ↔ HasPorts rule ∨ rule.protocol = "icmp" := by
  obtain ⟨s, ref, hservices, hclass, href, hs⟩ := exists_isRestriction hrule hprotocol hservice
  have happlications : anyText ∈ PanOs.ruleApplications rule ↔ ref ≠ .protocol "icmp" := by
    rw [PanOs.ruleApplications, hservices, hrule.application, List.any_cons, List.any_nil, hclass]
    cases hicmp : ref == .protocol "icmp" with
    | true => exact iff_of_false (by decide) (not_not_intro (beq_iff_eq.1 hicmp))
    | false => exact iff_of_true (by decide) (beq_eq_false_iff_ne.1 hicmp)
  rw [KeptInApplications, PanOs.ruleServices, hservices, List.map_singleton, href,
    List.mem_eraseDups, List.mem_singleton, happlications]
  cases hs with
  | any hports h =>
    have hicmp : rule.protocol ≠ "icmp" := fun hicmp => h (by rw [hicmp]; decide)
    exact iff_of_false (not_not_intro ⟨rfl, nofun⟩) (not_or_intro hports hicmp)
  | protocol hports h =>
    have hany : anyText = PanOs.serviceName (.protocol rule.protocol) := rfl
    rw [and_iff_right hany, or_iff_right hports, Classical.not_not, ServiceRef.protocol.injEq]
  | port hports hip =>
    exact iff_of_true (fun hany => PanOs.serviceName_port_ne _ _ hany.1.symm) (.inl hports)
  | @named name hports hip hslash hname =>
    refine iff_of_true ?_ (.inl hports)
    rintro ⟨rfl, -⟩
    exact absurd hslash (by decide)

end Rule

/-- **When the protocol of an entry is kept.**  For every rule of an access list that is restricted to
a protocol and names no service: the rule is written, and each of the three kinds of writers keeps the
restriction exactly if the entry has ports or the protocol is one of those it has a word for. -/
theorem restriction_kept_iff (flavor : Flavor) (text : String) {rule : Policy}
    (hrule : rule ∈ (read flavor text).policies) (hprotocol : rule.protocol ≠ "ip")
    (hservice : NamesNoService (read flavor text) rule) :
    rule ∈ (read flavor text).effectivePolicies
      ∧ (KeptInAccessList (read flavor text) rule
        ↔ HasPorts rule ∧ beginsWith "ip/" rule.protocol = false
          ∨ rule.protocol ∈ ["tcp", "udp", "icmp", "esp", "gre"])
      ∧ (KeptInServices (read flavor text) rule
        ↔ HasPorts rule ∨ rule.protocol ∈ ["tcp", "udp", "icmp"])
      ∧ (KeptInApplications (read flavor text) rule
        ↔ HasPorts rule ∨ rule.protocol = "icmp") := by
  have haccess := isAccessRule_of_mem_policies hrule
  have hwritten := Config.effectivePolicies_of_ne_nil (List.ne_nil_of_mem hrule)
  exact ⟨hwritten ▸ hrule, keptInAccessList_iff haccess hprotocol hservice,
    keptInServices_iff haccess hprotocol hservice, keptInApplications_iff haccess hprotocol hservice⟩

/-- An entry with a port. -/
def portText : String := "access-list A extended permit tcp any any eq 443"

/-- What is read of that entry. -/
def portRule : Policy where
  name := some "A"
  id := some 1
  action := .permit
  protocol := "tcp"
  source := ["any"]
  destination := ["any"]
  service := ["tcp/443"]

theorem restriction_kept_iff_portText :
    portRule ∈ (read .asa portText).policies ∧ portRule.protocol ≠ "ip"
      ∧ NamesNoService (read .asa portText) portRule
      ∧ KeptInAccessList (read .asa portText) portRule
      ∧ KeptInServices (read .asa portText) portRule
      ∧ KeptInApplications (read .asa portText) portRule := by
  have hread : read .asa portText = { policies := [portRule] } := by decide +kernel
  have hrule : portRule ∈ (read .asa portText).policies := by
    rw [hread]
    exact List.mem_singleton_self _
  have hports : HasPorts portRule := ⟨"443", by decide⟩
  have hservice : NamesNoService (read .asa portText) portRule := by
    rw [hread]
    exact ⟨.inr hports, fun _ _ _ _ => rfl⟩
  obtain ⟨-, haccess, hservices, happlications⟩ :=
    restriction_kept_iff .asa portText hrule (by decide) hservice
  exact ⟨hrule, by decide, hservice, haccess.2 (.inl ⟨hports, by decide⟩), hservices.2 (.inl hports),
    happlications.2 (.inl hports)⟩

/-- An entry for a protocol that no writer has a word for. -/
def ospfText : String := "access-list A extended permit ospf any any"

/-- What is read of that entry. -/
def ospfRule : Policy where
  name := some "A"
  id := some 1
  action := .permit
  protocol := "ospf"
  source := ["any"]
  destination := ["any"]

/-- **A protocol without a word of its own becomes everything** in all that is written. -/
theorem not_kept_ospfText :
    ospfRule ∈ (read .asa ospfText).policies ∧ ospfRule.action = .permit
      ∧ ospfRule.protocol ≠ "ip" ∧ NamesNoService (read .asa ospfText) ospfRule
      ∧ ¬ KeptInAccessList (read .asa ospfText) ospfRule
      ∧ ¬ KeptInServices (read .asa ospfText) ospfRule
      ∧ ¬ KeptInApplications (read .asa ospfText) ospfRule := by
  have hread : read .asa ospfText = { policies := [ospfRule] } := by decide +kernel
  rw [hread]
  refine ⟨List.mem_singleton_self _, rfl, by decide, ⟨.inl (by decide), nofun⟩, fun h => ?_,
    fun h => ?_, fun h => h (by decide)⟩
  · exact h "A" _ List.mem_cons_self (by decide +kernel)
  · exact h 0 (by decide +kernel)

end Cisco

end FirewallConfig
