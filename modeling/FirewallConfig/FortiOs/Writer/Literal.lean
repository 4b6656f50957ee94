import FirewallConfig.Service.Literal

/-!
# FortiOs/Writer/Literal — addresses and services that a rule spells out

A rule or a group refers to addresses and services by name only.  An address or a port that is
spelled out is referred to by a name made of its own text, and an entry of that name is written
beside the ones that the configuration declares; `impliedAddresses` collects those of addresses,
each name once.
-/

namespace FirewallConfig.FortiOs

/-- The name that means everything. -/
def allName : String := "all"

/-- The name that an endpoint is referred to by. -/
def addressName (endpoint : String) : String :=
  match Endpoint.classify endpoint with
  | .any => allName
  | .named name => name
  | .host address => s!"{address}/32"
  | .network n => if n.mask == Netmask.everything then allName else n.cidr

/-- The network that an endpoint spells out, if it spells out one that is not everything. -/
def literalNetwork? (endpoint : String) : Option Network :=
  match Endpoint.classify endpoint with
  | .host address => some ⟨address, Netmask.single⟩
  | .network n => if n.mask == Netmask.everything then none else some n
  | .any | .named _ => none

/-- The names of ports that are defined beforehand. -/
def predefinedService : String → String → Option String
  | "tcp", "80" => some "HTTP"
  | "tcp", "443" => some "HTTPS"
  | "tcp", "22" => some "SSH"
  | "tcp", "23" => some "TELNET"
  | "tcp", "21" => some "FTP"
  | "tcp", "25" => some "SMTP"
  | "udp", "53" => some "DNS"
  | "udp", "123" => some "NTP"
  | "udp", "161" => some "SNMP"
  | "tcp", "3389" => some "RDP"
  | "tcp", "389" => some "LDAP"
  | _, _ => none

/-- The name that a service is referred to by. -/
def serviceName : ServiceRef → String
  | .any => "ALL"
  | .protocol "tcp" => "ALL_TCP"
  | .protocol "udp" => "ALL_UDP"
  | .protocol "icmp" => "ALL_ICMP"
  | .protocol _ => "ALL"
  | .port protocol ports => (predefinedService protocol ports).getD (literalName protocol ports)
  | .named name => name

/-! ## What is implied -/

/-- Every endpoint that groups and rules use, in the order of use. -/
def usedEndpoints (c : Config) : List String :=
  c.addressGroups.flatMap (·.members)
    ++ c.effectivePolicies.flatMap fun p => p.sources ++ p.destinations

/-- The networks that are spelled out, by the name that refers to them. -/
def impliedAddresses (c : Config) : List (String × Network) :=
  ((usedEndpoints c).filterMap fun endpoint =>
    (literalNetwork? endpoint).map fun n => (addressName endpoint, n)).eraseDupsBy
      fun a b => a.1 == b.1

end FirewallConfig.FortiOs
