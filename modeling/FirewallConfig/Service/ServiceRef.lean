import FirewallConfig.Address.Endpoint

/-!
# Service/ServiceRef — what the text of a rule's service means

A rule holds its services as text: everything, a protocol, a protocol with a port or a range of
ports, or the name of a service.  Protocols and ports are read in small letters; a name keeps its
case.
-/

namespace FirewallConfig

/-- What the text of a service means. -/
inductive ServiceRef where
  /-- Every service. -/
  | any
  /-- All of a protocol. -/
  | protocol (name : String)
  /-- A port, a range `a-b` or a list of them, of a protocol. -/
  | port (protocol ports : String)
  /-- Whatever the name stands for. -/
  | named (name : String)
deriving DecidableEq, Repr

namespace ServiceRef

/-- The protocols that a service is spelled with. -/
def protocols : List String := ["tcp", "udp", "icmp", "ip", "esp", "gre"]

/-- Reads `protocol/port` in small letters. -/
def ofPort? (s : String) : Option ServiceRef :=
  match Text.cut '/' s with
  | some (name, ports) =>
    if protocols.contains name && !ports.isEmpty then some (.port name ports) else none
  | none => none

/-- Reads the text of a service. -/
def classify (s : String) : ServiceRef :=
  let s := Text.trim s
  let small := Text.lower s
  if s.isEmpty || Text.sameIgnoringCase s anyText then .any
  else
    match ofPort? small with
    | some ref => ref
    | none =>
      if small == "ip" then .any
      else if protocols.contains small then .protocol small
      else .named s

/-- The text of a service. -/
def text : ServiceRef → String
  | .any => anyText
  | .protocol name => name
  | .port name ports => name ++ "/" ++ ports
  | .named name => name

end ServiceRef

end FirewallConfig
