import FirewallConfig.Config.Basic
import FirewallConfig.Json.Value

/-!
# Json/Encode — a configuration as JSON

Every field of a configuration is written, in the order of the report format; what is not known is
null.  The names of the fields are those of the report format.
-/

namespace FirewallConfig

def Interface.toJson (i : Interface) : Json :=
  .obj [("name", .str i.name), ("ip", .optional i.ip), ("mask", .optional i.mask),
    ("description", .optional i.nickname), ("comment", .optional i.comment),
    ("security_level", .optionalNum (i.securityLevel.map UInt8.toNat)),
    ("zone", .optional i.zone), ("vlan", .optionalNum (i.vlan.map UInt16.toNat)),
    ("enabled", .bool i.enabled)]

def Zone.toJson (z : Zone) : Json :=
  .obj [("name", .str z.name), ("interfaces", .strings z.interfaces),
    ("description", .optional z.description)]

def Route.toJson (r : Route) : Json :=
  .obj [("name", .optional r.name), ("network", .str r.network), ("mask", .str r.mask),
    ("gateway", .optional r.gateway), ("interface", .optional r.interface),
    ("distance", .optionalNum (r.distance.map UInt16.toNat)),
    ("description", .optional r.description)]

def AddressObject.toJson (o : AddressObject) : Json :=
  .obj [("name", .str o.name), ("kind", .str o.kind.text), ("value", .str o.value),
    ("mask", .optional o.mask), ("description", .optional o.description)]

def AddressGroup.toJson (g : AddressGroup) : Json :=
  .obj [("name", .str g.name), ("members", .strings g.members),
    ("description", .optional g.description)]

def ServiceObject.toJson (s : ServiceObject) : Json :=
  .obj [("name", .str s.name), ("protocol", .str s.protocol), ("port", .optional s.port),
    ("description", .optional s.description)]

def Policy.toJson (p : Policy) : Json :=
  .obj [("name", .optional p.name), ("id", .optionalNum (p.id.map UInt32.toNat)),
    ("action", .str p.action.text), ("protocol", .str p.protocol), ("source", .strings p.source),
    ("destination", .strings p.destination), ("service", .strings p.service),
    ("source_zone", .optional p.sourceZone), ("destination_zone", .optional p.destinationZone),
    ("application", .strings p.application), ("description", .optional p.description),
    ("enabled", .bool p.enabled), ("log", .bool p.log)]

def AccessBinding.toJson (b : AccessBinding) : Json :=
  .obj [("acl", .str b.acl), ("direction", .str b.direction), ("interface", .str b.interface)]

def NatRule.toJson (r : NatRule) : Json :=
  .obj [("kind", .str r.kind.text), ("name", .optional r.name), ("source", .optional r.source),
    ("destination", .optional r.destination), ("translated", .optional r.translated),
    ("source_interface", .optional r.sourceInterface), ("interface", .optional r.interface),
    ("nat_id", .optional r.natId), ("description", .optional r.description)]

def Tunnel.toJson (t : Tunnel) : Json :=
  .obj [("name", .str t.name), ("sequence", .optionalNum (t.sequence.map UInt32.toNat)),
    ("interface", .optional t.interface), ("peer", .optional t.peer),
    ("proposal", .optional t.proposal), ("pre_shared_key", .optional t.preSharedKey),
    ("acl", .optional t.acl), ("description", .optional t.description)]

def IkePolicy.toJson (p : IkePolicy) : Json :=
  .obj [("priority", .str p.priority), ("authentication", .str p.authentication),
    ("encryption", .str p.encryption), ("hash", .str p.hash), ("group", .str p.group),
    ("lifetime", .str p.lifetime)]

def TransformSet.toJson (t : TransformSet) : Json :=
  .obj [("name", .str t.name), ("protocol", .str t.protocol), ("encryption", .str t.encryption),
    ("hash", .str t.hash)]

def Selector.toJson (s : Selector) : Json :=
  .obj [("name", .str s.name), ("phase1_name", .str s.tunnel), ("proposal", .optional s.proposal),
    ("src_subnet", .optional s.source), ("dst_subnet", .optional s.destination)]

def GroupPolicy.toJson (g : GroupPolicy) : Json :=
  .obj [("name", .str g.name), ("kind", .optional g.kind),
    ("vpn_protocols", .optional g.vpnProtocols), ("dns_server", .optional g.dnsServer)]

def TunnelGroup.toJson (g : TunnelGroup) : Json :=
  .obj [("name", .str g.name), ("kind", .optional g.kind),
    ("default_group_policy", .optional g.defaultGroupPolicy),
    ("pre_shared_key", .optional g.preSharedKey)]

def Vpn.toJson (v : Vpn) : Json :=
  .obj [("tunnels", .arr (v.tunnels.map Tunnel.toJson)),
    ("ike_policies", .arr (v.ikePolicies.map IkePolicy.toJson)),
    ("transform_sets", .arr (v.transformSets.map TransformSet.toJson)),
    ("phase2", .arr (v.selectors.map Selector.toJson)),
    ("group_policies", .arr (v.groupPolicies.map GroupPolicy.toJson)),
    ("tunnel_groups", .arr (v.tunnelGroups.map TunnelGroup.toJson))]

def Device.toJson (d : Device) : Json :=
  .obj [("enable_password", .optional d.enablePassword), ("password", .optional d.password),
    ("domain", .optional d.domain), ("timezone", .optional d.timezone)]

def User.toJson (u : User) : Json :=
  .obj [("username", .str u.username), ("secret", .optional u.secret),
    ("privilege", .num u.privilege.toNat), ("role", .optional u.role)]

def AaaServer.toJson (s : AaaServer) : Json :=
  .obj [("name", .str s.name), ("protocol", .str s.protocol), ("interface", .optional s.interface),
    ("host", .optional s.host), ("port", .str s.port), ("base_dn", .optional s.baseDn),
    ("description", .optional s.description)]

def LogTarget.toJson (l : LogTarget) : Json :=
  .obj [("target", .str l.target), ("level", .str l.level), ("host", .optional l.host),
    ("interface", .optional l.interface)]

def SnmpSetting.toJson (s : SnmpSetting) : Json :=
  .obj [("community", .str s.community), ("version", .str s.version), ("host", .optional s.host),
    ("interface", .optional s.interface)]

def AccessSetting.toJson : AccessSetting → Json
  | .allow address mask interface =>
    .obj [("kind", .str "allow"), ("address", .str address), ("mask", .str mask),
      ("interface", .str interface)]
  | .option key value => .obj [("kind", .str "option"), ("key", .str key), ("value", .str value)]

def ClockSetting.toJson (c : ClockSetting) : Json :=
  .obj [("key", .str c.key), ("value", .str c.value)]

def Management.toJson (m : Management) : Json :=
  .obj [("logging", .arr (m.logging.map LogTarget.toJson)),
    ("snmp", .arr (m.snmp.map SnmpSetting.toJson)),
    ("ssh", .arr (m.ssh.map AccessSetting.toJson)),
    ("http", .arr (m.http.map AccessSetting.toJson)),
    ("clock", .arr (m.clock.map ClockSetting.toJson))]

def SecurityProfile.toJson (p : SecurityProfile) : Json :=
  .obj [("name", .str p.name), ("kind", .str p.kind), ("lines", .strings p.lines)]

def Application.toJson (a : Application) : Json :=
  .obj [("name", .str a.name), ("category", .optional a.category),
    ("description", .optional a.description)]

def UrlCategory.toJson (c : UrlCategory) : Json :=
  .obj [("name", .str c.name), ("urls", .strings c.urls), ("description", .optional c.description)]

/-- The fields of a configuration, in the order of the report format. -/
def Config.jsonFields (c : Config) : List (String × Json) :=
  [("hostname", .optional c.hostname), ("device", c.device.toJson),
   ("interfaces", .arr (c.interfaces.map Interface.toJson)),
   ("address_objects", .arr (c.addressObjects.map AddressObject.toJson)),
   ("address_groups", .arr (c.addressGroups.map AddressGroup.toJson)),
   ("services", .arr (c.services.map ServiceObject.toJson)),
   ("policies", .arr (c.policies.map Policy.toJson)),
   ("access_groups", .arr (c.accessBindings.map AccessBinding.toJson)),
   ("nat", .arr (c.nat.map NatRule.toJson)), ("routes", .arr (c.routes.map Route.toJson)),
   ("vpn", c.vpn.toJson), ("users", .arr (c.users.map User.toJson)),
   ("aaa_servers", .arr (c.aaaServers.map AaaServer.toJson)), ("system", c.management.toJson),
   ("security_profiles", .arr (c.securityProfiles.map SecurityProfile.toJson)),
   ("applications", .arr (c.applications.map Application.toJson)),
   ("url_categories", .arr (c.urlCategories.map UrlCategory.toJson)),
   ("zones", .arr (c.zones.map Zone.toJson))]

/-- A configuration as JSON. -/
def Config.toJson (c : Config) : Json := .obj c.jsonFields

end FirewallConfig
