import FirewallConfig.Cisco.Writer.Nameif
import FirewallConfig.Cisco.Writer.Operand
import FirewallConfig.Dialect

/-!
# Cisco/Writer/Access — security rules as access lists

A rule becomes one entry for every source, destination and service it has.  `placement` says which
list the entries are in and which interface that list is bound to.
-/

namespace FirewallConfig.Cisco

/-- An entry of an access list, its operands as text. -/
structure AccessEntry where
  acl : String
  action : Action
  protocol : String
  source : String
  destination : String
  ports : Option String
  log : Bool
  inactive : Bool
deriving DecidableEq, Repr

/-- The line of an entry. -/
def AccessEntry.line (e : AccessEntry) : String :=
  Text.unwords
    (["access-list", e.acl, "extended", e.action.text, e.protocol, e.source, e.destination]
      ++ e.ports.toList ++ (if e.log then ["log"] else [])
      ++ (if e.inactive then ["inactive"] else []))

/-- The access list of the rules that have neither an interface nor a list of their own. -/
def globalAcl : String := "global_access"

/-- The access list that the entries of a rule are in, and the interface it is bound to.  A list
that the configuration binds keeps its rules; else the zone of the source names the list; else the
list keeps its name if it was an access list from the start. -/
def placement (c : Config) (origin : Dialect) (rule : Policy) : String × Option String :=
  let zone := rule.sourceZone.map (nameifOf c)
  match rule.name.filter fun name => c.accessBindings.any (·.acl == name), zone with
  | some name, zone => (name, zone)
  | none, some zone => (s!"{zone}_access_in", some zone)
  | none, none =>
    ((rule.name.filter fun _ => origin.isCisco).getD globalAcl, none)

/-- The entries of a rule: every source with every destination with every service. -/
def entries (c : Config) (acl : String) (rule : Policy) : List AccessEntry :=
  rule.sources.flatMap fun source =>
    rule.destinations.flatMap fun destination =>
      rule.services.map fun service =>
        let (protocol, ports) := serviceOperands c rule service
        { acl, protocol, ports
          action := rule.action
          source := addressOperand c source
          destination := addressOperand c destination
          log := rule.log
          inactive := !rule.enabled }

/-- The remarks that stand before the entries of a rule. -/
def remarkLines (acl : String) (rule : Policy) : List String :=
  (rule.description.toList.map fun text => s!"access-list {acl} remark {text}")
    ++ (if rule.application.isEmpty then []
      else
        let applications := ", ".intercalate rule.application
        [s!"access-list {acl} remark applications: {applications}"])

/-- The lines of a rule. -/
def ruleLines (c : Config) (origin : Dialect) (rule : Policy) : List String :=
  let acl := (placement c origin rule).1
  remarkLines acl rule ++ (entries c acl rule).map AccessEntry.line

/-- The line that binds a list to the interface of the first rule in it, if it is to be bound. -/
def placedBindingLine : String × Option String → Option String
  | (acl, some interface) => some s!"access-group {acl} in interface {interface}"
  | (acl, none) => if acl == globalAcl then some s!"access-group {acl} global" else none

/-- The line of a binding. -/
def bindingLine (b : AccessBinding) : String :=
  if b.direction == "global" || b.interface.isEmpty then s!"access-group {b.acl} global"
  else s!"access-group {b.acl} {b.direction} interface {b.interface}"

/-- The lines that bind the lists: the bindings of the configuration, or else one for each list. -/
def bindingLines (c : Config) (origin : Dialect) (rules : List Policy) : List String :=
  if c.accessBindings.isEmpty then
    ((rules.map (placement c origin)).eraseDupsBy fun p q => p.1 == q.1).filterMap
      placedBindingLine
  else c.accessBindings.map bindingLine

/-- The lines of all rules. -/
def accessLines (c : Config) (origin : Dialect) : List String :=
  match c.effectivePolicies with
  | [] => []
  | rules => block (rules.flatMap (ruleLines c origin) ++ bindingLines c origin rules)

end FirewallConfig.Cisco
