import FirewallConfig.Service.Literal

/-!
# Cisco/Writer/Operand — addresses, services and ports as operands of a line
-/

namespace FirewallConfig.Cisco

/-- The lines of a block, which a bang ends. -/
def block (lines : List String) : List String := lines ++ ["!"]

/-- The lines of a part of the text, which a bang ends if there are any. -/
def part (lines : List String) : List String := if lines.isEmpty then [] else block lines

/-- A remark that something is left out. -/
def notConverted (what : String) : String := "! not converted: " ++ what

/-- The test that a port or a range of ports is written as. -/
def portTest (ports : String) : String :=
  match Text.cut '-' ports with
  | some (first, last) => s!"range {first} {last}"
  | none => s!"eq {ports}"

/-- The member of an object group that an endpoint is written as. -/
def memberLine (c : Config) (member : String) : String :=
  match Endpoint.classify member with
  | .any => " network-object 0.0.0.0 0.0.0.0"
  | .host address => s!" network-object host {address}"
  | .network n => s!" network-object {n.address} {n.mask}"
  | .named name =>
    if (c.addressGroup? name).isSome then s!" group-object {name}"
    else s!" network-object object {name}"

/-- The operand of an access list that an endpoint is written as. -/
def addressOperand (c : Config) (endpoint : String) : String :=
  match Endpoint.classify endpoint with
  | .any => anyText
  | .host address => s!"host {address}"
  | .network n =>
    if n.mask == Netmask.everything then anyText
    else if n.mask == Netmask.single then s!"host {n.address}"
    else s!"{n.address} {n.mask}"
  | .named name =>
    if (c.addressGroup? name).isSome then s!"object-group {name}" else s!"object {name}"

/-- The protocols that a rule may restrict every service to. -/
def restrictingProtocols : List String := ["tcp", "udp", "icmp", "esp", "gre"]

/-- The protocol operand of an access list and the operand for the ports that a service which is no
name is written as. -/
def literalOperands (protocol : String) : ServiceRef → String × Option String
  | .any => (if restrictingProtocols.contains protocol then protocol else "ip", none)
  | .protocol name => (name, none)
  | .port name ports => (name, some (portTest ports))
  | .named name => (s!"object {name}", none)

/-- A list of ports, which takes an object group of its own. -/
def isPortList (ports : String) : Bool := ports.toList.contains ','

/-- The protocol operand and the operand for the ports that one service of a rule is written as. -/
def serviceOperands (c : Config) (rule : Policy) (service : String) : String × Option String :=
  match c.resolveService service with
  | .named name =>
    match c.service? name with
    | some s =>
      if s.port.any isPortList then (s.protocol, some s!"object-group {name}")
      else (s!"object {name}", none)
    | none => (s!"object {name}", none)
  | ref => literalOperands rule.protocol ref

end FirewallConfig.Cisco
