import FirewallConfig.Cisco.Line
import FirewallConfig.Cisco.Writer.Access
import FirewallConfig.Cisco.Writer.Crypto
import FirewallConfig.Cisco.Writer.Translation
import FirewallConfig.Text.Lines

/-!
# Cisco/Writer — writing a whole configuration

The parts of a configuration are written in a fixed order, and each is left out if it is empty.
What one of the products leaves to its management center, and what has no place in the dialect, is
remarked on.
-/

namespace FirewallConfig.Cisco

namespace Flavor

/-- The dialect of the flavor. -/
def dialect : Flavor → Dialect
  | .asa => .ciscoAsa
  | .ftd => .ciscoFtd

/-- The hostname that stands for a missing one. -/
def defaultHostname : Flavor → String
  | .asa => "asa-converted"
  | .ftd => "ftd-converted"

end Flavor

/-! ## Parts that both products have -/

/-- The lines that name the device.  Only one of the products keeps passwords here; a time zone has
no place in either. -/
def identityLines (flavor : Flavor) (c : Config) : List String :=
  let hostname := c.hostnameOr flavor.defaultHostname
  let passwords :=
    match flavor with
    | .asa =>
      c.device.enablePassword.toList.map ("enable password " ++ ·)
        ++ c.device.password.toList.map ("passwd " ++ ·)
    | .ftd => []
  block
    (s!"hostname {hostname}" :: c.device.domain.toList.map ("domain-name " ++ ·)
      ++ passwords
      ++ c.device.timezone.toList.map fun zone => notConverted s!"timezone {zone}")

/-- The lines of an interface, which always has a nickname. -/
def interfaceLines (c : Config) (i : Interface) : List String :=
  let name := nameif c i
  let address :=
    match i.address? with
    | some (ip, mask) => s!" ip address {ip} {mask}"
    | none => " no ip address"
  block
    (s!"interface {i.name}" :: i.comment.toList.map (" description " ++ ·)
      ++ (i.vlan.toList.map fun vlan => s!" vlan {vlan}")
      ++ [s!" nameif {name}"]
      ++ ((securityLevel c i).toList.map fun level => s!" security-level {level}")
      ++ [address]
      ++ (if i.enabled then [] else [" shutdown"]))

/-- The address and the mask of a subnet. -/
def subnetOf (o : AddressObject) : Network :=
  match o.mask with
  | some mask => ⟨o.value, mask⟩
  | none => (Network.read? o.value).getD ⟨o.value, Netmask.single⟩

/-- The line of the value of an address object. -/
def objectValueLine (o : AddressObject) : String :=
  match o.kind with
  | .host => s!" host {o.value}"
  | .subnet =>
    let n := subnetOf o
    s!" subnet {n.address} {n.mask}"
  | .range =>
    let (first, last) := Text.rangeEnds o.value
    s!" range {first} {last}"
  | .fqdn => s!" fqdn {o.value}"

/-- The line of a description. -/
def descriptionLines (description : Option String) : List String :=
  description.toList.map (" description " ++ ·)

/-- The lines of an address object. -/
def objectLines (o : AddressObject) : List String :=
  block
    ([s!"object network {o.name}", objectValueLine o] ++ descriptionLines o.description)

/-- The lines of an address group. -/
def groupLines (c : Config) (g : AddressGroup) : List String :=
  block
    (s!"object-group network {g.name}" :: descriptionLines g.description
      ++ g.members.map (memberLine c))

/-- The lines of the protocol and the ports of a service. -/
def servicePortLines (s : ServiceObject) : List String :=
  let protocol := if s.protocol.isEmpty then "tcp" else s.protocol
  match s.port with
  | some ports =>
    if isPortList ports then
      s!"object-group service {s.name} {protocol}"
        :: (((Text.pieces ',' ports).map Text.trim).filter (!·.isEmpty)).map
          (" port-object " ++ portTest ·)
    else
      let test := portTest ports
      [s!"object service {s.name}", s!" service {protocol} destination {test}"]
  | none => [s!"object service {s.name}", s!" service {protocol}"]

/-- The lines of a service. -/
def serviceLines (s : ServiceObject) : List String :=
  block (servicePortLines s ++ descriptionLines s.description)

/-- The line of a route; one without a gateway has no place here. -/
def routeLine (c : Config) (r : Route) : String :=
  let interface := nameifOr c egress r.interface
  match r.gateway, r.distance with
  | some gateway, some distance => s!"route {interface} {r.network} {r.mask} {gateway} {distance}"
  | some gateway, none => s!"route {interface} {r.network} {r.mask} {gateway}"
  | none, _ => notConverted s!"route {r.network} {r.mask} via {interface} has no gateway"

/-- The line of an account; a sealed password is not written. -/
def userLine (u : User) : String :=
  match u.secret.filter (!isSealed ·) with
  | some secret => s!"username {u.username} password {secret} privilege {u.privilege}"
  | none => s!"username {u.username} nopassword privilege {u.privilege}"

/-! ## Servers, and what the management center keeps -/

/-- The lines of a server, which has settings only if it has a host. -/
def serverLines (c : Config) (s : AaaServer) : List String :=
  let interface := nameifOr c managementInterface s.interface
  block
    (s!"aaa-server {s.name} protocol {s.protocol}" :: s.host.toList.flatMap fun host =>
      [s!"aaa-server {s.name} ({interface}) host {host}", s!" server-port {s.port}"]
        ++ s.baseDn.toList.map (" ldap-base-dn " ++ ·))

/-- The remarks on tunnels and servers where the management center keeps them. -/
def managedElsewhereLines (c : Config) : List String :=
  part
    ((c.vpn.tunnels.map fun t =>
        let peer := t.peer.getD "unknown peer"
        notConverted s!"VPN tunnel {t.name} to {peer} is managed by FMC")
      ++ c.aaaServers.map fun s =>
        notConverted s!"AAA server {s.name} ({s.protocol}) is managed by FMC")

/-! ## The management plane -/

/-- The log targets that take a severity. -/
def levelledTargets : List String :=
  ["buffered", "console", "monitor", "trap", "asdm", "history", "mail"]

/-- The line of a log target, if it says enough. -/
def logLine (c : Config) (l : LogTarget) : Option String :=
  match l.target, l.host with
  | "host", some host =>
    let interface := nameifOr c managementInterface l.interface
    some s!"logging host {interface} {host}"
  | "host", none => none
  | target, _ =>
    some (if levelledTargets.contains target then s!"logging {target} {l.level}"
      else s!"logging {target}")

/-- The line of a community, or of a host that it is sent to. -/
def snmpLine (c : Config) (s : SnmpSetting) : String :=
  match s.host with
  | some host =>
    let interface := nameifOr c managementInterface s.interface
    s!"snmp-server host {interface} {host} community {s.community} version {s.version}"
  | none => s!"snmp-server community {s.community}"

/-- The line of a setting of a way of management. -/
def accessSettingLine (command : String) : AccessSetting → String
  | .allow address mask interface => s!"{command} {address} {mask} {interface}"
  | .option key value => Text.trimEnd s!"{command} {key} {value}"

/-- Logging has to be switched on for the hosts that are logged to. -/
def lacksLogging (m : Management) : Bool :=
  m.logging.any (·.target == "host") && !m.logging.any (·.target == "enable")

/-- The lines of the management plane. -/
def managementLines (c : Config) : List String :=
  let m := c.management
  if m.isEmpty then []
  else
    block
      ((if lacksLogging m then ["logging enable"] else [])
        ++ m.logging.filterMap (logLine c)
        ++ m.snmp.map (snmpLine c)
        ++ m.ssh.map (accessSettingLine "ssh")
        ++ m.http.map (accessSettingLine "http")
        ++ m.clock.map fun s => s!"clock {s.key} {s.value}")

/-! ## Profiles, and what has no place here -/

/-- The lines of a security profile, as they were read. -/
def profileLines (p : SecurityProfile) : List String :=
  block (s!"{p.kind} {p.name}" :: p.lines.map (" " ++ ·))

/-- The remarks on applications and on categories of web addresses. -/
def unmappedLines (c : Config) : List String :=
  part
    ((c.applications.map fun a =>
        match a.category with
        | some category => notConverted s!"application {a.name} ({category})"
        | none => notConverted s!"application {a.name}")
      ++ c.urlCategories.map fun u =>
        let count := u.urls.length
        notConverted s!"URL category {u.name} ({count} entries)")

/-! ## The whole configuration -/

/-- The lines that say what the text is and where it comes from. -/
def headerLines (flavor : Flavor) (origin : Dialect) : List String :=
  block ["! " ++ flavor.dialect.product ++ " Configuration",
    "! Generated from " ++ origin.product ++ " configuration"]

/-- The lines of a configuration that comes from a dialect. -/
def writeLines (flavor : Flavor) (origin : Dialect) (c : Config) : List String :=
  headerLines flavor origin
    ++ identityLines flavor c
    ++ c.interfaces.flatMap (interfaceLines c)
    ++ c.addressObjects.flatMap objectLines
    ++ c.addressGroups.flatMap (groupLines c)
    ++ c.services.flatMap serviceLines
    ++ accessLines c origin
    ++ part (c.routes.map (routeLine c))
    ++ c.nat.flatMap (natLines c)
    ++ (match flavor with
      | .asa => cryptoLines c ++ c.aaaServers.flatMap (serverLines c)
      | .ftd => managedElsewhereLines c)
    ++ part (c.users.map userLine)
    ++ managementLines c
    ++ c.securityProfiles.flatMap profileLines
    ++ unmappedLines c

/-- Writes a configuration that comes from a dialect. -/
def write (flavor : Flavor) (origin : Dialect) (c : Config) : String :=
  Text.unlines (writeLines flavor origin c)

end FirewallConfig.Cisco
