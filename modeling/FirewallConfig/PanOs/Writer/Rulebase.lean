import FirewallConfig.PanOs.Writer.Element
import FirewallConfig.PanOs.Writer.Zoning
import FirewallConfig.Service.Literal

/-!
# PanOs/Writer/Rulebase — services, security rules and translation rules
-/

namespace FirewallConfig.PanOs

open Xml (Node)

/-! ## Services -/

/-- The names of ports that are defined beforehand. -/
def predefinedService : String → String → Option String
  | "tcp", "80" => some "service-http"
  | "tcp", "443" => some "service-https"
  | _, _ => none

/-- The name that a service of a rule is referred to by.  A protocol without ports is no service
here. -/
def serviceName : ServiceRef → String
  | .port protocol ports => (predefinedService protocol ports).getD (literalName protocol ports)
  | .named name => name
  | .any | .protocol _ => anyText

/-- The element of a protocol with its ports. -/
def protocolElement (protocol ports : String) : Node :=
  nested "protocol" [protocol] [.leaf "port" ports]

/-- The protocols that a service may have. -/
def serviceProtocols : List String := ["tcp", "udp", "sctp"]

/-- The service has a place in the dialect. -/
def hasPlace (s : ServiceObject) : Bool := serviceProtocols.contains (Text.lower s.protocol)

/-- A declared service. -/
def serviceEntry (s : ServiceObject) : Node :=
  entry s.name
    (protocolElement (Text.lower s.protocol) (s.port.getD "1-65535")
      :: leaf? "description" s.description)

/-- The entries of all services: the declared ones that have a place, and those that rules spell
out. -/
def serviceEntries (c : Config) : List Node :=
  (c.services.filter hasPlace).map serviceEntry
    ++ (c.literalServices predefinedService).map fun s =>
      entry s.name [protocolElement s.protocol (s.port.getD "")]

/-- The remarks on the services that have no place. -/
def serviceNotes (c : Config) : List String :=
  (c.services.filter (!hasPlace ·)).map fun s =>
    let protocol := Text.lower s.protocol
    s!"{protocol} service {s.name}"

/-! ## Security rules -/

/-- The services that a rule names, each once. -/
def ruleServices (c : Config) (rule : Policy) : List String :=
  (rule.services.map fun s => serviceName (c.resolveService s)).eraseDups

/-- The applications that a rule names: `icmp` is one, and it is added where it is a service. -/
def ruleApplications (rule : Policy) : List String :=
  let isIcmp := rule.services.any fun s => ServiceRef.classify s == .protocol "icmp"
  orAny <|
    if isIcmp && !rule.application.contains "icmp" then rule.application ++ ["icmp"]
    else rule.application

/-- A security rule. -/
def securityEntry (c : Config) (rules : List Policy) (rule : Policy) (position : Nat) : Node :=
  entry (rule.labelAmong rules position)
    ([memberList "from" [zoneName c rule.sourceZone],
      memberList "to" [zoneName c rule.destinationZone],
      memberList "source" (rule.sources.map Endpoint.normalize),
      memberList "destination" (rule.destinations.map Endpoint.normalize),
      memberList "service" (ruleServices c rule),
      memberList "application" (ruleApplications rule),
      Node.leaf "action" (if rule.action.isPermit then "allow" else "deny")]
      ++ (if rule.log then [Node.leaf "log-end" "yes"] else [])
      ++ (if rule.enabled then [] else [Node.leaf "disabled" "yes"])
      ++ leaf? "description" rule.description)

/-- The security rules that are written. -/
def securityEntries (c : Config) : List Node :=
  let rules := c.effectivePolicies
  rules.zipIdx.map fun (rule, position) => securityEntry c rules rule position

/-! ## Translation rules -/

/-- The element that says how the source is translated. -/
def translationElement (c : Config) (rule : NatRule) : Node :=
  let translated := (rule.translated.or (c.pairedPool? rule)).getD "interface"
  match rule.kind with
  | .static =>
    .branch "static-ip"
      [.leaf "translated-address" translated, .leaf "bi-directional" "yes"]
  | .dynamic | .pool =>
    .branch "dynamic-ip-and-port"
      [if translated == "interface" then
        .branch "interface-address"
          (leaf? "interface" ((rule.interface.bind c.findInterface?).map (·.name)))
      else memberList "translated-address" [translated]]

/-- A translation rule. -/
def natEntry (c : Config) (rule : NatRule) (source label : String) : Node :=
  entry label
    ([memberList "from" [zoneName c rule.sourceInterface],
      memberList "to" [zoneName c rule.interface],
      memberList "source" [Endpoint.normalize source],
      memberList "destination" [Endpoint.normalize (rule.destination.getD anyText)],
      Node.leaf "service" anyText,
      Node.branch "source-translation" [translationElement c rule]]
      ++ leaf? "description" rule.description)

/-- The entry of a rule at a position, or the remark on it; a pool that a rule takes its addresses
from has neither. -/
def natForm (c : Config) (rule : NatRule) (position : Nat) : List (Node ⊕ String) :=
  let label := rule.label position
  match rule.kind, rule.source with
  | .pool, _ =>
    let addresses := rule.translated.getD ""
    if c.isPoolPaired rule then [] else [.inr s!"address pool {label} {addresses}"]
  | _, some source => [.inl (natEntry c rule source label)]
  | _, none => [.inr s!"NAT rule {label} without a real address"]

/-- The entries of all translation rules, or the remarks on them, in order. -/
def natForms (c : Config) : List (Node ⊕ String) :=
  c.nat.zipIdx.flatMap fun (rule, position) => natForm c rule position

/-- The entries of all translation rules. -/
def natEntries (c : Config) : List Node := (natForms c).filterMap Sum.getLeft?

/-- The remarks on rules and pools that have no place. -/
def natNotes (c : Config) : List String := (natForms c).filterMap Sum.getRight?

end FirewallConfig.PanOs
