import FirewallConfig.Dialect
import FirewallConfig.FortiOs.Reader
import FirewallConfig.FortiOs.Writer.Literal
import FirewallConfig.FortiOs.Writer.Tunnel
import FirewallConfig.Text.Lines

/-!
# FortiOs/Writer — writing a whole configuration

Every category is a section with one entry for each of its members, in a fixed order; a category
without members is left out.  What has no place in the dialect is remarked on, in lines that begin
with `#`.
-/

namespace FirewallConfig.FortiOs

/-! ## Interfaces and zones -/

/-- The ways of management that some settings allow on an interface. -/
def allowsAccess (i : Interface) (settings : List AccessSetting) : Bool :=
  settings.any fun
    | .allow _ _ interface => interface == i.name || some interface == i.nickname
    | .option .. => false

/-- The keywords of the ways of management that are allowed on an interface. -/
def accessKeywords (c : Config) (i : Interface) : List String :=
  (if allowsAccess i c.management.http then ["https"] else [])
    ++ (if allowsAccess i c.management.ssh then ["ssh"] else [])

/-- The virtual domain that everything is in. -/
def rootDomain : Setting Value := quotedSetting "vdom" ["root"]

/-- An interface. -/
def interfaceEntry (c : Config) (i : Interface) : Entry Value :=
  let access := accessKeywords c i
  { name := .quoted i.name
    settings :=
      [rootDomain]
        ++ (i.address?.toList.map fun (ip, mask) => bareSetting "ip" [ip, mask])
        ++ settingIf (!access.isEmpty) (bareSetting "allowaccess" access)
        ++ quotedSetting? "alias" i.nickname
        ++ quotedSetting? "description" i.comment
        ++ (i.vlan.toList.map fun vlan => bareSetting "vlanid" [toString vlan])
        ++ settingIf (!i.enabled) (bareSetting "status" ["down"]) }

/-- A zone with the interfaces that are in it. -/
def zoneEntry (z : Zone) : Entry Value where
  name := .quoted z.name
  settings := quotedList? "interface" z.interfaces ++ quotedSetting? "description" z.description

/-! ## Addresses and services -/

/-- The settings of the value of an address. -/
def addressSettings (o : AddressObject) : List (Setting Value) :=
  match o.kind with
  | .host => [networkSetting "subnet" ⟨o.value, Netmask.single⟩]
  | .subnet => [networkSetting "subnet" (objectNetwork o)]
  | .range =>
    let (first, last) := Text.rangeEnds o.value
    [bareSetting "type" ["iprange"], bareSetting "start-ip" [first], bareSetting "end-ip" [last]]
  | .fqdn => [bareSetting "type" ["fqdn"], quotedSetting "fqdn" [o.value]]

/-- A declared address. -/
def addressEntry (o : AddressObject) : Entry Value where
  name := .quoted o.name
  settings := addressSettings o ++ quotedSetting? "comment" o.description

/-- An address that is spelled out somewhere, under the name that refers to it. -/
def impliedAddressEntry (name : String) (n : Network) : Entry Value where
  name := .quoted name
  settings := [networkSetting "subnet" n]

/-- A group of addresses, all of them by name. -/
def groupEntry (g : AddressGroup) : Entry Value where
  name := .quoted g.name
  settings :=
    quotedList? "member" (g.members.map addressName) ++ quotedSetting? "comment" g.description

/-- The ports of a list, with blanks between them. -/
def portList (ports : String) : String :=
  Text.unwords (((Text.pieces ',' ports).map Text.trim).filter (!·.isEmpty))

/-- The settings of the ports of a protocol; a protocol that has no ports of its own stands for
both that have. -/
def portSettings (protocol ports : String) : List (Setting Value) :=
  let range := fun protocol => bareSetting s!"{protocol}-portrange" [portList ports]
  if ["tcp", "udp", "sctp"].contains protocol then [range protocol]
  else [range "tcp", range "udp"]

/-- The settings of the protocol and the ports of a service. -/
def protocolSettings (s : ServiceObject) : List (Setting Value) :=
  match Text.lower s.protocol, s.port with
  | "icmp", _ => [bareSetting "protocol" ["ICMP"]]
  | "ip", none | "", none => [bareSetting "protocol" ["IP"]]
  | protocol, some ports => portSettings protocol ports
  | protocol, none => portSettings protocol "1-65535"

/-- A declared service. -/
def serviceEntry (s : ServiceObject) : Entry Value where
  name := .quoted s.name
  settings := protocolSettings s ++ quotedSetting? "comment" s.description

/-- A service that is spelled out somewhere, under the name that refers to it. -/
def impliedServiceEntry (s : ServiceObject) : Entry Value where
  name := .quoted s.name
  settings := portSettings s.protocol (s.port.getD "")

/-! ## Rules -/

/-- The interface or zone that a zone of a rule is written as: the zone if it is written, else the
interface that it means, else any. -/
def zoneName (c : Config) (zone : Option String) : String :=
  match zone with
  | none => anyText
  | some zone =>
    if c.zones.any (·.name == zone) then zone
    else ((c.findInterface? zone).map (·.name)).getD anyText

/-- A rule.  Entries are numbered from 1 on in the order of the rules. -/
def ruleEntry (c : Config) (rules : List Policy) (rule : Policy) (position : Nat) :
    Entry Value where
  name := .number (position + 1)
  settings :=
    [quotedSetting "name" [rule.labelAmong rules position],
     quotedSetting "srcintf" [zoneName c rule.sourceZone],
     quotedSetting "dstintf" [zoneName c rule.destinationZone],
     quotedSetting "srcaddr" (rule.sources.map addressName),
     quotedSetting "dstaddr" (rule.destinations.map addressName),
     bareSetting "action" [if rule.action.isPermit then "accept" else "deny"],
     quotedSetting "schedule" ["always"],
     quotedSetting "service" (rule.services.map fun s => serviceName (c.resolveService s))]
      ++ settingIf rule.log (bareSetting "logtraffic" ["all"])
      ++ settingIf (!rule.enabled) (bareSetting "status" ["disable"])
      ++ quotedSetting? "comments" rule.description

/-- The rules that are written. -/
def ruleEntries (c : Config) : List (Entry Value) :=
  let rules := c.effectivePolicies
  rules.zipIdx.map fun (rule, position) => ruleEntry c rules rule position

/-! ## Routes -/

/-- A route.  Its name has no place of its own, and so it is a comment where there is no other. -/
def routeEntry (c : Config) (r : Route) (position : Nat) : Entry Value where
  name := .number (position + 1)
  settings :=
    [networkSetting "dst" ⟨r.network, r.mask⟩]
      ++ (r.gateway.toList.map fun gateway => bareSetting "gateway" [gateway])
      ++ quotedSetting? "device" (r.interface.map c.deviceName)
      ++ (r.distance.toList.map fun distance => bareSetting "distance" [toString distance])
      ++ quotedSetting? "comment" (r.description.or r.name)

/-! ## Address translation -/

/-- How a translation rule is written. -/
inductive NatForm where
  | virtualAddress (e : Entry Value)
  | pool (e : Entry Value)
  /-- It has no place in the dialect. -/
  | remark (what : String)

/-- The address that a static rule maps to: an address, or the value of an object that is one
address or a range. -/
def mappedAddress? (c : Config) (source : String) : Option String :=
  match Endpoint.classify source with
  | .host address => some address
  | .named name =>
    ((c.addressObject? name).filter fun o => o.kind == .host || o.kind == .range).map (·.value)
  | .any | .network _ => none

/-- A static rule: the outer address stands for the mapped one. -/
def virtualAddressEntry (c : Config) (label mapped outer : String) (rule : NatRule) :
    Entry Value where
  name := .quoted label
  settings :=
    [bareSetting "extip" [outer], quotedSetting "mappedip" [mapped],
     quotedSetting "extintf" [(rule.interface.map c.deviceName).getD anyText]]
      ++ quotedSetting? "comment" rule.description

/-- A pool of addresses, from the first to the last. -/
def poolEntry (label addresses : String) : Entry Value :=
  let (first, last) := Text.rangeEnds addresses
  { name := .quoted label
    settings := [bareSetting "startip" [first], bareSetting "endip" [last]] }

/-- How the rule at a position is written. -/
def natForm (c : Config) (rule : NatRule) (position : Nat) : NatForm :=
  let label := rule.label position
  match rule.kind with
  | .static =>
    match rule.source.bind (mappedAddress? c), rule.translated with
    | some mapped, some outer => .virtualAddress (virtualAddressEntry c label mapped outer rule)
    | _, _ =>
      let source := rule.source.getD "?"
      let translated := rule.translated.getD "?"
      .remark s!"static NAT {label} ({source} -> {translated})"
  | .pool =>
    match rule.translated with
    | some addresses => .pool (poolEntry label addresses)
    | none => .remark s!"address pool {label} without addresses"
  | .dynamic =>
    let source := rule.source.getD anyText
    let translated := rule.translated.getD "interface"
    .remark
      s!"dynamic NAT {label} ({source} -> {translated}), enable NAT on the matching policy"

/-- The lines of all translation rules; an empty line follows the remarks, if there are any. -/
def natLines (c : Config) : List String :=
  let forms := c.nat.zipIdx.map fun (rule, position) => natForm c rule position
  let remarks := forms.filterMap fun
    | .remark what => some (notConverted what)
    | _ => none
  listing "firewall vip" (forms.filterMap fun
      | .virtualAddress e => some e
      | _ => none)
    ++ listing "firewall ippool" (forms.filterMap fun
      | .pool e => some e
      | _ => none)
    ++ remarks ++ (if remarks.isEmpty then [] else [""])

/-! ## Accounts and servers -/

/-- The account is no administrator. -/
def isLocal (u : User) : Bool := u.role == some localRole

/-- The profile of an administrator. -/
def adminProfile (u : User) : String :=
  u.role.getD (if User.fullPrivilege ≤ u.privilege then "super_admin" else "prof_admin")

/-- An administrator. -/
def adminEntry (u : User) : Entry Value where
  name := .quoted u.username
  settings :=
    [quotedSetting "accprofile" [adminProfile u], rootDomain]
      ++ secretSetting? "password" u.secret

/-- An account that is no administrator. -/
def localEntry (u : User) : Entry Value where
  name := .quoted u.username
  settings := [bareSetting "type" ["password"]] ++ secretSetting? "passwd" u.secret

/-- A server that speaks LDAP. -/
def serverEntry (s : AaaServer) : Entry Value where
  name := .quoted s.name
  settings :=
    quotedSetting? "server" s.host ++ [bareSetting "port" [s.port]] ++ quotedSetting? "dn" s.baseDn

/-- The lines of all accounts: administrators first. -/
def userLines (c : Config) : List String :=
  listing "system admin" ((c.users.filter (!isLocal ·)).map adminEntry)
    ++ listing "user local" ((c.users.filter isLocal).map localEntry)

/-- The lines of all servers; only those that speak LDAP have a place. -/
def serverLines (c : Config) : List String :=
  listing "user ldap" ((c.aaaServers.filter (·.isLdap)).map serverEntry)
    ++ (c.aaaServers.filter (!·.isLdap)).map fun s => notConverted s!"{s.protocol} server {s.name}"

/-! ## The management plane -/

/-- The number of syslog servers that there is place for. -/
def syslogPlaces : Nat := 4

/-- The path of the section of the syslog server at a position. -/
def syslogPath (position : Nat) : String :=
  if position = 0 then "log syslogd setting" else s!"log syslogd{position + 1} setting"

/-- The lines of the first hosts that are logged to. -/
def syslogLines (c : Config) : List String :=
  let hosts := (c.management.logging.filterMap (·.host)).take syslogPlaces
  hosts.zipIdx.flatMap fun (host, position) =>
    settingsSection (syslogPath position)
      [bareSetting "status" ["enable"], quotedSetting "server" [host]]

/-- The hosts of each community, in the order in which the communities come. -/
def communities (settings : List SnmpSetting) : List (String × List String) :=
  (settings.map (·.community)).eraseDups.map fun community =>
    (community, (settings.filter (·.community == community)).filterMap (·.host))

/-- A host of a community. -/
def hostEntry (host : String) (position : Nat) : Entry Value where
  name := .number (position + 1)
  settings := [bareSetting "ip" [host, Netmask.single]]

/-- A community with its hosts. -/
def communityEntry (community : String) (hosts : List String) (position : Nat) : Entry Value where
  name := .number (position + 1)
  settings := [quotedSetting "name" [community]]
  children :=
    if hosts.isEmpty then []
    else [{ path := .bare "hosts"
            entries := hosts.zipIdx.map fun (host, position) => hostEntry host position }]

/-- The lines of all communities. -/
def snmpLines (c : Config) : List String :=
  listing "system snmp community" <|
    (communities c.management.snmp).zipIdx.map fun ((community, hosts), position) =>
      communityEntry community hosts position

/-! ## What has no place -/

/-- The remarks on the options of a way of management. -/
def accessRemarks (command : String) (settings : List AccessSetting) : List String :=
  settings.filterMap fun
    | .option key value => some (Text.trimEnd s!"{command} {key} {value}")
    | .allow .. => none

/-- The remark on the applications of a rule, which the dialect has no place for. -/
def applicationRemark (rule : Policy) (position : Nat) : Option String :=
  if rule.application.isEmpty then none
  else
    let label := rule.label position
    let applications := ", ".intercalate rule.application
    some s!"policy {label} applications {applications}"

/-- The remarks on everything that has no place in the dialect. -/
def unmapped (c : Config) : List String :=
  (c.device.timezone.toList.map fun zone => s!"timezone {zone}")
    ++ (c.effectivePolicies.zipIdx.filterMap fun (rule, position) =>
      applicationRemark rule position)
    ++ accessRemarks "ssh" c.management.ssh
    ++ accessRemarks "http" c.management.http
    ++ (c.management.clock.map fun s => s!"clock {s.key} {s.value}")
    ++ (c.securityProfiles.map fun p => s!"{p.kind} {p.name}")
    ++ (c.applications.map fun a => s!"application {a.name}")
    ++ c.urlCategories.map fun u =>
      let count := u.urls.length
      s!"URL category {u.name} ({count} entries)"

/-! ## The whole configuration -/

/-- The lines of a configuration that comes from a dialect. -/
def writeLines (origin : Dialect) (c : Config) : List String :=
  ["# FortiGate Configuration", "# Generated from " ++ origin.product ++ " configuration", ""]
    ++ settingsSection "system global"
      [quotedSetting "hostname" [c.hostnameOr "fortigate-converted"]]
    ++ listing "system interface" (c.interfaces.map (interfaceEntry c))
    ++ listing "system zone" (c.zones.map zoneEntry)
    ++ listing "firewall address"
      (c.addressObjects.map addressEntry
        ++ (impliedAddresses c).map fun (name, n) => impliedAddressEntry name n)
    ++ listing "firewall addrgrp" (c.addressGroups.map groupEntry)
    ++ listing "firewall service custom"
      (c.services.map serviceEntry ++ (c.literalServices predefinedService).map impliedServiceEntry)
    ++ listing "firewall policy" (ruleEntries c)
    ++ listing "router static"
      (c.routes.zipIdx.map fun (route, position) => routeEntry c route position)
    ++ natLines c
    ++ tunnelLines c
    ++ userLines c
    ++ serverLines c
    ++ syslogLines c
    ++ snmpLines c
    ++ (unmapped c).map notConverted

/-- Writes a configuration that comes from a dialect. -/
def write (origin : Dialect) (c : Config) : String := Text.unlines (writeLines origin c)

end FirewallConfig.FortiOs
