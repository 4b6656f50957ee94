import FirewallConfig.Proofs.Cisco.Access
import FirewallConfig.Proofs.Cisco.Operand

/-!
# Proofs/Cisco/Entry — a rule is written as entries that are read back

One source, one destination and one service of a rule make an entry (`entryOf`), and the line of
that entry is read as `writtenRule`: a rule with these three alone, each in the one form that it is
read in.
-/

namespace FirewallConfig.Cisco

open Text

/-- The entry of one source, one destination and one service of a rule. -/
def entryOf (c : Config) (acl : String) (rule : Policy) (source destination service : String) :
    AccessEntry :=
  let (protocol, ports) := serviceOperands c rule service
  { acl, protocol, ports
    action := rule.action
    source := addressOperand c source
    destination := addressOperand c destination
    log := rule.log
    inactive := !rule.enabled }

/-- The operands of an entry, one by one. -/
theorem entryOf_eq (c : Config) (acl : String) (rule : Policy)
    (source destination service : String) :
    entryOf c acl rule source destination service
      = { acl
          action := rule.action
          protocol := (serviceOperands c rule service).1
          source := addressOperand c source
          destination := addressOperand c destination
          ports := (serviceOperands c rule service).2
          log := rule.log
          inactive := !rule.enabled } := by
  rw [entryOf]

/-- **The entries of a rule are the product of its sources, destinations and services**, in the
order of the sources, and of the destinations for each of them. -/
theorem entries_eq (c : Config) (acl : String) (rule : Policy) :
    entries c acl rule = rule.sources.flatMap fun source =>
      rule.destinations.flatMap fun destination =>
        rule.services.map (entryOf c acl rule source destination) := rfl

/-- The lines of a rule are its remarks and its entries, all of one list. -/
theorem ruleLines_eq {c : Config} {origin : Dialect} {rule : Policy} {acl : String}
    (h : (placement c origin rule).1 = acl) :
    ruleLines c origin rule = remarkLines acl rule ++ (entries c acl rule).map AccessEntry.line := by
  subst h
  rfl

/-- The rule that an entry is read as. -/
def writtenRule (rule : Policy) (source destination : Endpoint) (service : ServiceRef) : Policy where
  action := rule.action
  protocol := (entryService rule.protocol service).1
  source := [source.canonical.text]
  destination := [destination.canonical.text]
  service := (entryService rule.protocol service).2
  log := rule.log
  enabled := rule.enabled

theorem ruleOf_flags (e : AccessEntry) (action : Action) (protocol source destination : String)
    (service : List String) :
    ruleOf action protocol source destination service e.flags
      = { action, protocol, service, source := [source], destination := [destination]
          log := e.log, enabled := !e.inactive } := by
  rw [ruleOf, AccessEntry.flags]
  cases e.log <;> cases e.inactive <;> rfl

theorem isFlags_flags (e : AccessEntry) : IsFlags e.flags := by
  rw [AccessEntry.flags]
  cases e.log <;> cases e.inactive <;> simp [IsFlags]

/-- **The line of an entry is read as the rule that was written**, for operands that are words. -/
theorem step_entryOf {c : Config} {acl : String} (hacl : IsWord acl) {rule : Policy}
    {source destination service : String} (hs : (Endpoint.classify source).IsPlain)
    (hd : (Endpoint.classify destination).IsPlain) {ref : ServiceRef}
    (hservice : serviceOperands c rule service = literalOperands rule.protocol ref)
    (href : IsPlainService ref) (a : Access) :
    a.step (entryOf c acl rule source destination service).line
      = a.addEntry acl
        (writtenRule rule (Endpoint.classify source) (Endpoint.classify destination) ref) := by
  have hread := readEntry_literalOperands rule.action (readsAddress_addressOperand c hs.isSpelled)
    (readsAddress_addressOperand c hd.isSpelled)
    (isFlags_flags (entryOf c acl rule source destination service)) rule.protocol href
  rw [ruleOf_flags, ← hservice] at hread
  have hrule : writtenRule rule (Endpoint.classify source) (Endpoint.classify destination) ref
      = { action := rule.action
          protocol := (entryService rule.protocol ref).1
          service := (entryService rule.protocol ref).2
          source := [(Endpoint.classify source).canonical.text]
          destination := [(Endpoint.classify destination).canonical.text]
          log := rule.log
          enabled := !(!rule.enabled) } := by
    rw [writtenRule, Bool.not_not]
  rw [entryOf_eq] at hread ⊢
  rw [hrule]
  exact Access.step_entry hacl hread a

end FirewallConfig.Cisco
