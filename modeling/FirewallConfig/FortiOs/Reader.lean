import FirewallConfig.Config.Basic
import FirewallConfig.FortiOs.Section

/-!
# FortiOs/Reader — what the sections of a configuration mean

Each function here says what one entry means, and `read` collects the entries of every section it
knows, wherever the section stands.  An entry that lacks what it cannot do without is left out.
-/

namespace FirewallConfig.FortiOs

/-! ## Values -/

/-- Reads a network from the values of a setting: an address and a mask, or one of the spellings
of both together. -/
def networkOfValues : List String → Option Network
  | address :: mask :: _ => some ⟨address, mask⟩
  | [value] => Network.read? value
  | [] => none

/-- The endpoint that a name means: `all`, in any case, is everything. -/
def endpointText (name : String) : String :=
  if Text.sameIgnoringCase name "all" then anyText else name

/-- The service that a predefined name means, in any case; any other name stays as it is.  `ALL`
means every service, and so it adds nothing to a list. -/
def serviceText (name : String) : Option String :=
  match Text.upper name with
  | "ALL" => none
  | "ALL_TCP" => some "tcp"
  | "ALL_UDP" => some "udp"
  | "ALL_ICMP" | "PING" => some "icmp"
  | "HTTP" => some "tcp/80"
  | "HTTPS" => some "tcp/443"
  | "SSH" => some "tcp/22"
  | "TELNET" => some "tcp/23"
  | "FTP" => some "tcp/21"
  | "SMTP" => some "tcp/25"
  | "DNS" => some "udp/53"
  | "NTP" => some "udp/123"
  | "SNMP" => some "udp/161"
  | "RDP" => some "tcp/3389"
  | "LDAP" => some "tcp/389"
  | _ => some name

/-- The destination ports of a range, whose source ports follow a colon. -/
def destinationPorts (range : String) : String := ((Text.cut ':' range).map Prod.fst).getD range

/-- A range whose ends are the same is that end alone. -/
def collapseRange (value : String) : String :=
  match Text.cut '-' value with
  | some (first, last) => if first == last then first else value
  | none => value

/-! ## Entries -/

/-- The zone that interfaces are put in. -/
def defaultZone : String := "untrust"

/-- An interface, which must have an address. -/
def readInterface (e : Entry String) : Option Interface :=
  (networkOfValues (valuesOf e.settings "ip")).map fun n =>
    { name := e.name
      ip := some n.address
      mask := some n.mask
      nickname := valueOf e.settings "alias"
      comment := valueOf e.settings "description"
      zone := some defaultZone
      vlan := (valueOf e.settings "vlanid").bind Text.readUInt16
      enabled := valueOf e.settings "status" != some "down" }

/-- The kind and the value of an address. -/
def readAddressValue (e : Entry String) : Option AddressObject :=
  match (valueOf e.settings "type").getD "ipmask" with
  | "iprange" =>
    (valueOf e.settings "start-ip").map fun first =>
      let last := (valueOf e.settings "end-ip").getD first
      { name := e.name, kind := .range, value := s!"{first}-{last}" }
  | "fqdn" =>
    (valueOf e.settings "fqdn").map fun value => { name := e.name, kind := .fqdn, value }
  | "ipmask" =>
    (networkOfValues (valuesOf e.settings "subnet")).map fun n =>
      if n.mask == Netmask.single then { name := e.name, kind := .host, value := n.address }
      else { name := e.name, kind := .subnet, value := n.address, mask := some n.mask }
  | _ => none

/-- An address, which must have a value. -/
def readAddress (e : Entry String) : Option AddressObject :=
  (readAddressValue e).map fun o => { o with description := valueOf e.settings "comment" }

/-- A group of addresses, which must have members. -/
def readGroup (e : Entry String) : Option AddressGroup :=
  match valuesOf e.settings "member" with
  | [] => none
  | members =>
    some
      { name := e.name
        members := members.map endpointText
        description := valueOf e.settings "comment" }

/-- The protocol and the ports of a service. -/
def readServicePorts (settings : List (Setting String)) : String × Option String :=
  match valueOf settings "tcp-portrange", valueOf settings "udp-portrange" with
  | some range, _ => ("tcp", some (destinationPorts range))
  | none, some range => ("udp", some (destinationPorts range))
  | none, none =>
    if (valueOf settings "protocol").any (Text.sameIgnoringCase · "icmp") then ("icmp", none)
    else ("ip", none)

/-- A service. -/
def readService (e : Entry String) : ServiceObject :=
  let (protocol, port) := readServicePorts e.settings
  { name := e.name, protocol, port, description := valueOf e.settings "comment" }

/-- The zone that a rule names, of which `any` is none. -/
def readZone (settings : List (Setting String)) (key : String) : Option String :=
  (valueOf settings key).filter (· != anyText)

/-- A rule.  An empty list of services means every service, and so does `ALL`. -/
def readPolicy (e : Entry String) : Policy where
  name := valueOf e.settings "name"
  id := Text.readUInt32 e.name
  action := .ofText ((valueOf e.settings "action").getD "deny")
  source := (valuesOf e.settings "srcaddr").map endpointText
  destination := (valuesOf e.settings "dstaddr").map endpointText
  service := (valuesOf e.settings "service").filterMap serviceText
  sourceZone := readZone e.settings "srcintf"
  destinationZone := readZone e.settings "dstintf"
  application := valuesOf e.settings "application"
  description := valueOf e.settings "comments"
  enabled := valueOf e.settings "status" != some "disable"
  log := ["all", "utm"].any fun word => valueOf e.settings "logtraffic" == some word

/-- A virtual address, which must have both addresses. -/
def readVip (e : Entry String) : Option NatRule :=
  match valueOf e.settings "extip", valueOf e.settings "mappedip" with
  | some outer, some inner =>
    some
      { kind := .static
        name := some e.name
        source := some (collapseRange inner)
        translated := some (collapseRange outer)
        interface := valueOf e.settings "extintf"
        description := valueOf e.settings "comment" }
  | _, _ => none

/-- A pool of addresses, which must have a first one. -/
def readPool (e : Entry String) : Option NatRule :=
  (valueOf e.settings "startip").map fun first =>
    let last := (valueOf e.settings "endip").getD first
    { kind := .pool
      name := some e.name
      translated := some (if last == first then first else s!"{first}-{last}")
      description := valueOf e.settings "comments" }

/-- A route, which must have a gateway or an interface. -/
def readRoute (e : Entry String) : Option Route :=
  let gateway := valueOf e.settings "gateway"
  let interface := valueOf e.settings "device"
  if gateway.isNone && interface.isNone then none
  else
    let n := (networkOfValues (valuesOf e.settings "dst")).getD ⟨"0.0.0.0", "0.0.0.0"⟩
    some
      { name := some e.name
        network := n.address
        mask := n.mask
        gateway
        interface
        distance := (valueOf e.settings "distance").bind Text.readUInt16
        description := valueOf e.settings "comment" }

/-- A tunnel, which must have a peer. -/
def readTunnel (e : Entry String) : Option Tunnel :=
  (valueOf e.settings "remote-gw").map fun peer =>
    { name := e.name
      interface := valueOf e.settings "interface"
      peer := some peer
      proposal := joinedValues e.settings "proposal"
      preSharedKey := joinedValues e.settings "psksecret"
      description := valueOf e.settings "comments" }

/-- A selector, which must name its tunnel. -/
def readSelector (e : Entry String) : Option Selector :=
  (valueOf e.settings "phase1name").map fun tunnel =>
    { name := e.name
      tunnel
      proposal := joinedValues e.settings "proposal"
      source := joinedValues e.settings "src-subnet"
      destination := joinedValues e.settings "dst-subnet" }

/-- An administrator; a profile other than `super_admin` may only read. -/
def readAdmin (e : Entry String) : User :=
  let profile := valueOf e.settings "accprofile"
  { username := e.name
    secret := joinedValues e.settings "password"
    privilege :=
      if (profile.getD "super_admin") == "super_admin" then User.fullPrivilege
      else User.readOnlyPrivilege
    role := profile }

/-- The role of an account that is no administrator. -/
def localRole : String := "local"

/-- An account that is no administrator. -/
def readLocalUser (e : Entry String) : User where
  username := e.name
  secret := joinedValues e.settings "passwd"
  privilege := User.readOnlyPrivilege
  role := some localRole

/-- A server, which speaks LDAP. -/
def readLdapServer (e : Entry String) : AaaServer where
  name := e.name
  host := valueOf e.settings "server"
  port := (valueOf e.settings "port").getD "389"
  baseDn := valueOf e.settings "dn"
  interface := valueOf e.settings "interface"

/-- A syslog server, if it is not switched off. -/
def readSyslog (s : Section String) : Option LogTarget :=
  if valueOf s.settings "status" == some "disable" then none
  else
    (valueOf s.settings "server").map fun host =>
      { target := "host", host := some host, interface := valueOf s.settings "interface" }

/-- The SNMP settings of a community: one for each of its hosts, or one without a host. -/
def readCommunity (e : Entry String) : List SnmpSetting :=
  let community := (valueOf e.settings "name").getD "public"
  match (e.children.filter (·.path == "hosts")).flatMap (·.entries) with
  | [] => [{ community }]
  | hosts =>
    hosts.map fun h =>
      { community
        host := (valueOf h.settings "ip").bind fun ip => (Text.words ip).head?
        interface := valueOf h.settings "interface" }

/-! ## The whole configuration -/

/-- The last hostname that a `system global` section gives, even if it gives none. -/
def readHostname (forest : List (Section String)) : Option String :=
  (sectionsAt "system global" forest).getLast?.bind fun s => valueOf s.settings "hostname"

/-- The last time zone that a `system global` section gives. -/
def readTimezone (forest : List (Section String)) : Option String :=
  ((sectionsAt "system global" forest).filterMap fun s => valueOf s.settings "timezone").getLast?

/-- What the sections of a configuration mean. -/
def ofForest (forest : List (Section String)) : Config :=
  let entries := fun path => entriesAt path forest
  let base : Config :=
    { hostname := readHostname forest
      device := { timezone := readTimezone forest }
      addressGroups := (entries "firewall addrgrp").filterMap readGroup
      services := (entries "firewall service custom").map readService
      policies := (entries "firewall policy").map readPolicy
      nat :=
        (entries "firewall vip").filterMap readVip ++ (entries "firewall ippool").filterMap readPool
      routes := (entries "router static").filterMap readRoute
      vpn :=
        { tunnels := (entries "vpn ipsec phase1-interface").filterMap readTunnel
          selectors := (entries "vpn ipsec phase2-interface").filterMap readSelector }
      users := (entries "system admin").map readAdmin ++ (entries "user local").map readLocalUser
      aaaServers := (entries "user ldap").map readLdapServer
      management :=
        { logging := (sectionsAt "log syslogd setting" forest).filterMap readSyslog
          snmp := (entries "system snmp community").flatMap readCommunity } }
  let withInterfaces :=
    ((entries "system interface").filterMap readInterface).foldl Config.putInterface base
  ((entries "firewall address").filterMap readAddress).foldl Config.putAddressObject withInterfaces

/-- Reads a configuration. -/
def read (text : String) : Config := ofForest (readForest text)

end FirewallConfig.FortiOs
