import FirewallConfig.Dialect
import FirewallConfig.PanOs.Reader
import FirewallConfig.PanOs.Writer.Network
import FirewallConfig.PanOs.Writer.Rulebase
import FirewallConfig.Xml.Writer

/-!
# PanOs/Writer — writing a whole configuration

The configuration becomes one document.  What has no place in it is remarked on in the comment at
its head.
-/

namespace FirewallConfig.PanOs

open Xml (Node)

/-! ## Objects -/

/-- An address. -/
def addressEntry (o : AddressObject) : Node :=
  let value :=
    match o.kind with
    | .host => Node.leaf "ip-netmask" o.value
    | .subnet => Node.leaf "ip-netmask" o.cidr
    | .range => Node.leaf "ip-range" o.value
    | .fqdn => Node.leaf "fqdn" o.value
  entry o.name (value :: leaf? "description" o.description)

/-- A group of addresses, those that are spelled out in their normal form. -/
def groupEntry (g : AddressGroup) : Node :=
  entry g.name
    (memberList "static" (g.members.map Endpoint.normalize) :: leaf? "description" g.description)

/-- A zone with its interfaces. -/
def zoneEntry (z : Zone) : Node :=
  entry z.name [.branch "network" [memberList "layer3" z.interfaces]]

/-- An application. -/
def applicationEntry (a : Application) : Node :=
  entry a.name (leaf? "category" a.category ++ leaf? "description" a.description)

/-- A category of web addresses. -/
def urlCategoryEntry (u : UrlCategory) : Node :=
  entry u.name
    (memberList "list" u.urls :: Node.leaf "type" "URL List" :: leaf? "description" u.description)

/-! ## The device -/

/-- The community that may poll the device; there is place for one. -/
def snmpElement (s : SnmpSetting) : Node :=
  nested "snmp-setting" ["access-setting", "version", "v2c"]
    [.leaf "snmp-community-string" s.community]

/-- The networks from which the device may be managed, each once. -/
def permittedNetworks (m : Management) : List String :=
  ((m.ssh ++ m.http).filterMap fun
    | .allow address mask _ => some (Network.mk address mask).cidr
    | .option .. => none).eraseDups

/-- The name of the device and the settings of its management. -/
def deviceElement (c : Config) : Node :=
  nested "deviceconfig" ["system"]
    (Node.leaf "hostname" (c.hostnameOr "palo-alto-converted")
      :: leaf? "domain" c.device.domain
      ++ leaf? "timezone" c.device.timezone
      ++ c.management.snmp.head?.toList.map snmpElement
      ++ branch? "permitted-ip" ((permittedNetworks c.management).map fun n => entry n []))

/-! ## Accounts and servers -/

/-- The role that is written for an account: its own, if it is one of the dialect, else the one that
its privilege gives. -/
def writtenRole (u : User) : String :=
  match u.role.filter roles.contains with
  | some role => role
  | none => if User.fullPrivilege ≤ u.privilege then "superuser" else "superreader"

/-- An account with its role. -/
def userEntry (u : User) : Node :=
  entry u.username
    (leaf? "phash" u.secret ++ [nested "permissions" ["role-based"] [.leaf (writtenRole u) "yes"]])

/-- A server that speaks LDAP. -/
def ldapEntry (s : AaaServer) : Node :=
  let server := s.host.toList.map fun host =>
    Node.branch "server" [entry host [.leaf "address" host, .leaf "port" s.port]]
  entry s.name (server ++ leaf? "base" s.baseDn)

/-- A host that is logged to. -/
def syslogEntry (host : String) : Node := entry host [.leaf "server" host]

/-- The elements of servers. -/
def sharedElements (c : Config) : List Node :=
  let hosts := c.management.logging.filterMap (·.host)
  branch? "server-profile" (branch? "ldap" ((c.aaaServers.filter (·.isLdap)).map ldapEntry))
    ++ (if hosts.isEmpty then []
      else
        [nested "log-settings" ["syslog"]
          [entry "syslog" [.branch "server" (hosts.map syslogEntry)]]])

/-! ## What has no place -/

/-- The remarks on the options of a way of management. -/
def accessNotes (command : String) (settings : List AccessSetting) : List String :=
  settings.filterMap fun
    | .option key value => some (Text.trimEnd s!"{command} {key} {value}")
    | .allow .. => none

/-- The remark on the communities that there is no place for. -/
def snmpNotes (settings : List SnmpSetting) : List String :=
  if 1 < settings.length then [s!"{settings.length - 1} additional SNMP communities"] else []

/-- The remarks on everything that has no place in the document. -/
def notes (c : Config) : List String :=
  tunnelNotes c
    ++ serviceNotes c
    ++ natNotes c
    ++ ((c.aaaServers.filter (!·.isLdap)).map fun s => s!"{s.protocol} server {s.name}")
    ++ (c.securityProfiles.map fun p => s!"{p.kind} {p.name}")
    ++ accessNotes "ssh" c.management.ssh
    ++ accessNotes "http" c.management.http
    ++ (c.management.clock.map fun s => s!"clock {s.key} {s.value}")
    ++ snmpNotes c.management.snmp

/-! ## The document -/

/-- The elements of the virtual system that holds all objects and rules. -/
def systemElements (c : Config) : List Node :=
  branch? "zone" ((writtenZones c).map zoneEntry)
    ++ branch? "address" (c.addressObjects.map addressEntry)
    ++ branch? "address-group" (c.addressGroups.map groupEntry)
    ++ branch? "service" (serviceEntries c)
    ++ branch? "application" (c.applications.map applicationEntry)
    ++ branch? "profiles" (branch? "custom-url-category" (c.urlCategories.map urlCategoryEntry))
    ++ branch? "rulebase"
      (branch? "security" (branch? "rules" (securityEntries c))
        ++ branch? "nat" (branch? "rules" (natEntries c)))

/-- The root of the document. -/
def rootElement (c : Config) : Node :=
  let device :=
    deviceElement c :: branch? "network" (networkElements c)
      ++ [Node.branch "vsys" [entry "vsys1" (systemElements c)]]
  (Node.branch "config"
    (branch? "mgt-config" (branch? "users" (c.users.map userEntry))
      ++ branch? "shared" (sharedElements c)
      ++ [.branch "devices" [entry "localhost.localdomain" device]])).withAttribute "version" "10.0"

/-- The comment at the head of the document. -/
def headComment (origin : Dialect) (c : Config) : String :=
  "Palo Alto Configuration, generated from " ++ origin.product ++ " configuration"
    ++ String.join ((notes c).map ("\n  not converted: " ++ ·))

/-- Writes a configuration that comes from a dialect. -/
def write (origin : Dialect) (c : Config) : String :=
  Xml.document (rootElement c) (some (headComment origin c))

end FirewallConfig.PanOs
