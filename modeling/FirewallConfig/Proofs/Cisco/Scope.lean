import FirewallConfig.Proofs.Cisco.Expansion

/-!
# Proofs/Cisco/Scope — an entry reaches no further than its rule

An access list tells its operands apart by blanks alone, and the names of a dialect that quotes them
may hold blanks.  Where a rule calls everything by one word, each of its entries is read as an entry
with the action of the rule, which is about every address only where the rule is
(`extendedLine_read`).  A name of two words moves the operands behind it (`extendedLine_spacedText`).
-/

namespace FirewallConfig.Cisco

open Text

/-! ## The protocol of an entry -/

/-- The operand stands for a protocol: it is one, or it names a service by one word. -/
inductive IsProtocolOperand : String → Prop
  | protocol {name : String} (hname : name ∈ ServiceRef.protocols) : IsProtocolOperand name
  | object {name : String} (hname : IsWord name) : IsProtocolOperand s!"object {name}"

/-- The operand of a protocol is passed over, and the addresses follow it. -/
theorem IsProtocolOperand.exists_readEntry {operand : String} (h : IsProtocolOperand operand)
    (action : Action) :
    ∃ protocol named, ∀ ws, readEntry (action.text :: (words operand ++ ws))
      = readEntryOperands action protocol named ws := by
  cases h with
  | protocol hname =>
    refine ⟨operand, [], fun ws => ?_⟩
    rw [words_of_mem_protocols hname, List.singleton_append, readEntry_protocol action hname]
  | @object name hname =>
    refine ⟨"ip", [name], fun ws => ?_⟩
    have hwords : words s!"object {name}" = ["object", name] := words_objectText hname
    rw [hwords]
    exact readEntry_object action name ws

/-! ## Rules that call everything by one word -/

/-- Whatever the rule is written with has no blank in its name. -/
structure HasWordNames (c : Config) (rule : Policy) : Prop where
  acl : IsWord (ruleAcl c rule)
  source : ∀ s ∈ rule.sources, (Endpoint.classify s).IsSpelled
  destination : ∀ d ∈ rule.destinations, (Endpoint.classify d).IsSpelled
  service : ∀ s ∈ rule.services, ∀ name, c.resolveService s = .named name → IsWord name

section Rule

variable {c : Config} {rule : Policy} (hnames : HasWordNames c rule)
  (hservices : ∀ o ∈ c.services, o.protocol ∈ ServiceRef.protocols)
include hnames hservices

theorem isProtocolOperand_serviceOperands {service : String} (hservice : service ∈ rule.services) :
    IsProtocolOperand (serviceOperands c rule service).1 := by
  have hname := hnames.service service hservice
  have hprotocol := @mem_protocols_of_resolveService c service
  unfold serviceOperands
  generalize c.resolveService service = ref at hname hprotocol
  cases ref with
  | any => exact .protocol (mem_protocols_literalOperands_any rule.protocol)
  | protocol name => exact .protocol (hprotocol rfl)
  | port name ports => exact .protocol (hprotocol rfl)
  | named name =>
    dsimp only
    split
    · next o ho =>
      split
      · exact .protocol (hservices o (List.mem_of_find?_eq_some ho))
      · exact .object (hname name rfl)
    · exact .object (hname name rfl)

/-- **The line of a flow is read as an entry** with the action of its rule and with what the text of
its source and its destination means, whatever its ports are. -/
theorem exists_step_flowLine {f : Flow} (hf : f ∈ flows rule) :
    ∃ entry : Policy, entry.action = rule.action
      ∧ entry.source = [(Endpoint.classify f.source).canonical.text]
      ∧ entry.destination = [(Endpoint.classify f.destination).canonical.text]
      ∧ ∀ a : Access, a.step (flowLine c f) = a.addEntry (ruleAcl c rule) entry := by
  obtain ⟨rfl, hsource, hdestination, hservice⟩ := mem_flows hf
  obtain ⟨protocol, named, hread⟩ :=
    (isProtocolOperand_serviceOperands hnames hservices hservice).exists_readEntry f.rule.action
  have hs := readsAddress_addressOperand c (s := f.source) (hnames.source _ hsource)
  have hd := readsAddress_addressOperand c (s := f.destination) (hnames.destination _ hdestination)
  rw [flowLine, entryOf_eq]
  refine ⟨_, ?_, ?_, ?_, Access.step_entry hnames.acl
    ((hread _).trans (readEntryOperands_eq hs hd f.rule.action protocol named _))⟩
  all_goals rfl

end Rule

/-! ## Reading a line of a rule -/

/-- The entry says no more than the rule: it does with its traffic what the rule does, and it is about
every address only where the rule is. -/
structure IsWithin (entry rule : Policy) : Prop where
  action : entry.action = rule.action
  source : (∃ s ∈ entry.sources, (Endpoint.classify s).IsEverything) →
    ∃ s ∈ rule.sources, (Endpoint.classify s).IsEverything
  destination : (∃ d ∈ entry.destinations, (Endpoint.classify d).IsEverything) →
    ∃ d ∈ rule.destinations, (Endpoint.classify d).IsEverything

/-- The line is read as one more entry, whatever is read before it, and that entry says no more than
the rule. -/
def IsReadWithin (rule : Policy) (line : String) : Prop :=
  ∀ before : List String, (∀ l ∈ before, OneLine l) →
    ∃ entry, IsWithin entry rule
      ∧ (Dialect.ciscoAsa.read (unlines (before ++ [line]))).policies
        = (Dialect.ciscoAsa.read (unlines before)).policies ++ [entry]

/-- The services of this dialect have protocols that services are spelled with. -/
theorem protocol_mem_of_mem_services (text : String) :
    ∀ o ∈ (FortiOs.read text).services, o.protocol ∈ ServiceRef.protocols := by
  have hports (settings : List (FortiOs.Setting String)) :
      (FortiOs.readServicePorts settings).1 ∈ ServiceRef.protocols := by
    rw [FortiOs.readServicePorts]
    have hnames : "tcp" ∈ ServiceRef.protocols ∧ "udp" ∈ ServiceRef.protocols := by decide
    split
    · exact hnames.1
    · exact hnames.2
    · split <;> decide
  rw [FortiOs.read, FortiOs.ofForest]
  dsimp only
  rw [foldl_putAddressObject_eq, foldl_putInterface_eq]
  exact List.forall_mem_map.2 fun e _ => hports e.settings

/-- An entry is read wherever its line stands. -/
theorem exists_policies_read_append {acl line : String} {entry : Policy} (hline : OneLine line)
    (h : ∀ a : Access, a.step line = a.addEntry acl entry) {before : List String}
    (hbefore : ∀ l ∈ before, OneLine l) :
    ∃ name id description sourceZone,
      (Dialect.ciscoAsa.read (unlines (before ++ [line]))).policies
        = (Dialect.ciscoAsa.read (unlines before)).policies
          ++ [{ entry with name, id, description, sourceZone }] := by
  have hlines : ∀ l ∈ before ++ [line], OneLine l :=
    List.forall_mem_append.2 ⟨hbefore, List.forall_mem_singleton.2 hline⟩
  have hread := policies_read .asa (unlines (before ++ [line]))
  rw [Access.accessOf_unlines hlines, List.foldl_append, List.foldl_cons, List.foldl_nil, h,
    ← Access.accessOf_unlines hbefore, Access.addEntry, List.map_append, List.map_singleton] at hread
  have hbeforeRead := policies_read .asa (unlines before)
  exact ⟨_, _, _, _, hread.trans (congrArg (· ++ _) hbeforeRead.symm)⟩

/-- **Each line of an entry is read as an entry that says no more than its rule**, for rules that call
everything by one word. -/
theorem isReadWithin_extendedLine (text : String) {p : Policy}
    (hp : p ∈ (Dialect.fortiGate.read text).policies)
    (hnames : HasWordNames (Dialect.fortiGate.read text) p) {line : String}
    (hline : line ∈ ruleLines (Dialect.fortiGate.read text) .fortiGate p)
    (hextended : (words line)[2]? = some "extended") :
    IsReadWithin p line := by
  have hzone : (Dialect.fortiGate.read text).IsZoneBased := FortiOs.isZoneBased_read text
  have honeLine : (Dialect.fortiGate.read text).OneLine := FortiOs.oneLine_read text
  have hservices := protocol_mem_of_mem_services text
  have hplain : OneLine line :=
    oneLine_ruleLines honeLine .fortiGate (honeLine.policies p hp) line hline
  have hacl : (placement (Dialect.fortiGate.read text) .fortiGate p).1
      = ruleAcl (Dialect.fortiGate.read text) p := by
    rw [placement_eq hzone rfl]
  rw [ruleLines_eq hacl, List.mem_append, map_line_entries] at hline
  rcases hline with hremark | hline
  · obtain ⟨remark, rfl⟩ := exists_eq_of_mem_remarkLines _ _ line hremark
    rw [Access.words_remarkLine hnames.acl] at hextended
    exact absurd (Option.some.inj hextended) (by decide)
  · obtain ⟨f, hf, rfl⟩ := List.mem_map.1 hline
    obtain ⟨-, hsource, hdestination, -⟩ := mem_flows hf
    obtain ⟨entry, haction, hs, hd, hstep⟩ := exists_step_flowLine hnames hservices hf
    intro before hbefore
    obtain ⟨name, id, description, sourceZone, hread⟩ :=
      exists_policies_read_append hplain hstep hbefore
    have hscope {members : List String} {s : String} (hmem : s ∈ members)
        (hspelled : (Endpoint.classify s).IsSpelled) {texts : List String}
        (htexts : texts = [(Endpoint.classify s).canonical.text]) :
        (∃ t ∈ orAny texts, (Endpoint.classify t).IsEverything) →
          ∃ s ∈ members, (Endpoint.classify s).IsEverything := by
      rintro ⟨t, ht, heverything⟩
      rw [htexts] at ht
      rw [List.mem_singleton.1 ht] at heverything
      exact ⟨s, hmem, (Endpoint.isEverything_classify_text hspelled).1 heverything⟩
    exact ⟨{ entry with name, id, description, sourceZone },
      { action := haction
        source := hscope hsource (hnames.source _ hsource) hs
        destination := hscope hdestination (hnames.destination _ hdestination) hd }, hread⟩

/-- A rule from one object to everything. -/
def wordText : String :=
  "config firewall policy\nedit 1\nset srcaddr web\nset dstaddr all\nset action accept\nend\n"

/-- What is read of that rule. -/
def wordRule : Policy where
  id := some 1
  action := .permit
  source := ["web"]
  destination := ["any"]

theorem isReadWithin_extendedLine_wordText :
    wordRule ∈ (Dialect.fortiGate.read wordText).policies
      ∧ HasWordNames (Dialect.fortiGate.read wordText) wordRule
      ∧ IsReadWithin wordRule "access-list global_access extended permit ip object web any" := by
  have htext : wordText = unlines ["config firewall policy", "edit 1", "set srcaddr web",
      "set dstaddr all", "set action accept", "end"] := by
    decide +kernel
  have hread : Dialect.fortiGate.read wordText = { policies := [wordRule] } := by
    rw [Dialect.read, FortiOs.read, htext, FortiOs.readForest_unlines_eq (by decide +kernel)]
    decide +kernel
  have hp : wordRule ∈ (Dialect.fortiGate.read wordText).policies := by
    rw [hread]
    exact List.mem_singleton_self _
  have hnames : HasWordNames (Dialect.fortiGate.read wordText) wordRule := by
    rw [hread]
    exact
      { acl := by decide
        source := by decide +kernel
        destination := by decide
        service := List.forall_mem_singleton.2 fun _ h => by cases h }
  have hline : "access-list global_access extended permit ip object web any"
      ∈ ruleLines (Dialect.fortiGate.read wordText) .fortiGate wordRule := by
    rw [hread]
    decide +kernel
  exact ⟨hp, hnames, isReadWithin_extendedLine wordText hp hnames hline (by decide +kernel)⟩

/-- A rule from one object to another one, of which the first has a name of two words. -/
def spacedText : String :=
  "config firewall policy\nedit 1\nset srcaddr \"x any\"\nset dstaddr web\nset action accept\nend\n"

/-- What is read of that rule. -/
def spacedRule : Policy where
  id := some 1
  action := .permit
  source := ["x any"]
  destination := ["web"]

/-- **A name of two words moves the operands behind it**: the second word is read as the destination
of the entry, which is about every address then. -/
theorem not_isReadWithin_spacedText :
    ¬ ∀ p ∈ (Dialect.fortiGate.read spacedText).policies,
      ∀ line ∈ ruleLines (Dialect.fortiGate.read spacedText) .fortiGate p,
        (words line)[2]? = some "extended" → IsReadWithin p line := by
  have htext : spacedText = unlines ["config firewall policy", "edit 1", "set srcaddr \"x any\"",
      "set dstaddr web", "set action accept", "end"] := by
    decide +kernel
  have hread : Dialect.fortiGate.read spacedText = { policies := [spacedRule] } := by
    rw [Dialect.read, FortiOs.read, htext, FortiOs.readForest_unlines_eq (by decide +kernel)]
    decide +kernel
  have hline : "access-list global_access extended permit ip object x any object web"
      ∈ ruleLines { policies := [spacedRule] } .fortiGate spacedRule := by
    decide +kernel
  have hback : (Dialect.ciscoAsa.read (unlines
        ["access-list global_access extended permit ip object x any object web"])).policies
      = [{ name := some "global_access", id := some 1, action := .permit, source := ["x"]
           destination := ["any"], service := ["web"] }] := by
    rw [Dialect.read, Cisco.read, Reading.run_lines_unlines _ (by decide +kernel)]
    decide +kernel
  intro h
  rw [hread] at h
  obtain ⟨entry, hwithin, hpolicies⟩ :=
    h spacedRule (List.mem_singleton_self _) _ hline (by decide +kernel) [] (List.forall_mem_nil _)
  rw [List.nil_append, hback] at hpolicies
  obtain rfl := (List.cons.inj hpolicies).1
  exact absurd (hwithin.destination ⟨"any", by decide, by decide⟩) (by decide +kernel)

end FirewallConfig.Cisco
