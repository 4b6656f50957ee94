import FirewallConfig.Config.Basic
import FirewallConfig.PanOs.Block
import FirewallConfig.Text.Lines

/-!
# PanOs/Reader — reading a whole configuration

The document is scanned line by line.  Between entries, the tag of an area says what the entries
that follow are; an entry is collected up to the line that closes it, and then read as a block.
Markup that puts several elements on a line is not understood.
-/

namespace FirewallConfig.PanOs

/-- What the entries of a part of the document are. -/
inductive Area where
  | interfaces
  | zones
  | addresses
  | addressGroups
  | services
  | security
  | nat
  | routes
  | ikeGateways
  | ipsecTunnels
  | admins
  | applications
  | urlCategories
deriving DecidableEq, Repr

namespace Area

/-- Every area. -/
def all : List Area :=
  [.interfaces, .zones, .addresses, .addressGroups, .services, .security, .nat, .routes,
   .ikeGateways, .ipsecTunnels, .admins, .applications, .urlCategories]

/-- The tag of the element that the area is the content of. -/
def tag : Area → String
  | .interfaces => "ethernet"
  | .zones => "zone"
  | .addresses => "address"
  | .addressGroups => "address-group"
  | .services => "service"
  | .security => "security"
  | .nat => "nat"
  | .routes => "static-route"
  | .ikeGateways => "gateway"
  | .ipsecTunnels => "ipsec"
  | .admins => "users"
  | .applications => "application"
  | .urlCategories => "custom-url-category"

/-- The area that a line opens. -/
def opened? (line : String) : Option Area := all.find? fun a => line == openTag a.tag

/-- The line closes the area. -/
def isClosedBy (a : Area) (line : String) : Bool := line == closeTag a.tag

end Area

/-! ## What an entry means -/

/-- An interface or a unit of one. -/
def readInterface (b : Block) (name : String) : Interface :=
  let n := (b.entryAfter "ip").bind Network.read?
  { name
    ip := n.map (·.address)
    mask := n.map (·.mask)
    nickname := b.leaf "comment" }

/-- The units inside an interface; only they carry a VLAN tag. -/
def readUnits (b : Block) : List Interface :=
  b.children.filterMap fun unit =>
    unit.name.map fun name =>
      { readInterface unit name with vlan := (unit.leaf "tag").bind Text.readUInt16 }

/-- An address, which must have a value. -/
def readAddress (b : Block) (name : String) : Option AddressObject :=
  let description := b.leaf "description"
  match b.leaf "ip-netmask", b.leaf "ip-range", b.leaf "fqdn" with
  | some value, _, _ =>
    some <|
      match Network.ofCidr? value with
      | some n =>
        if n.mask == Netmask.single then { name, kind := .host, value := n.address, description }
        else { name, kind := .subnet, value := n.address, mask := some n.mask, description }
      | none => { name, kind := .host, value, description }
  | none, some value, _ => some { name, kind := .range, value, description }
  | none, none, some value => some { name, kind := .fqdn, value, description }
  | none, none, none => none

/-- A group of addresses. -/
def readGroup (b : Block) (name : String) : AddressGroup where
  name := name
  members := b.members "static"
  description := b.leaf "description"

/-- A service; where neither protocol with ports stands in it, it is any. -/
def readService (b : Block) (name : String) : ServiceObject where
  name := name
  protocol := (["tcp", "udp"].find? b.hasTag).getD "ip"
  port := b.leaf "port"
  description := b.leaf "description"

/-- The first member of a list that is not `any`. -/
def readZone (b : Block) (tag : String) : Option String := (b.members tag).find? (· != anyText)

/-- A rule.  `any` and `application-default` in its lists restrict nothing. -/
def readPolicy (b : Block) (name : String) : Policy where
  name := some name
  action := .ofText ((b.leaf "action").getD "")
  source := b.members "source"
  destination := b.members "destination"
  service := (b.members "service").filter fun s => s != anyText && s != "application-default"
  sourceZone := readZone b "from"
  destinationZone := readZone b "to"
  application := (b.members "application").filter (· != anyText)
  description := b.leaf "description"
  enabled := b.leaf "disabled" != some "yes"
  log := b.leaf "log-end" == some "yes"

/-- A translation rule, which is static if it says so or if it translates the destination. -/
def readNat (b : Block) (name : String) : NatRule where
  kind := if b.hasTag "static-ip" || b.hasTag "destination-translation" then .static else .dynamic
  name := some name
  source := (b.members "source").head?
  destination := (b.members "destination").head?
  translated :=
    (b.anyLeaf "translated-address").or <| (b.members "translated-address").head?.or <|
      if b.hasTag "interface-address" then some "interface" else none
  sourceInterface := (b.members "from").head?
  interface := (b.members "to").head?
  description := b.leaf "description"

/-- A route, which must have a destination. -/
def readRoute (b : Block) (name : String) : Option Route :=
  (b.leaf "destination").map fun destination =>
    let n := (Network.read? destination).getD ⟨destination, Netmask.single⟩
    { name := some name
      network := n.address
      mask := n.mask
      gateway := b.leaf "ip-address"
      interface := b.leaf "interface"
      distance := (b.leaf "admin-dist").bind Text.readUInt16 }

/-- A gateway, whose peer must be an address. -/
def readTunnel (b : Block) (name : String) : Tunnel where
  name := name
  interface := b.leaf "interface"
  peer := (b.leaf "ip").filter isIPv4
  proposal := b.leaf "ike-crypto-profile"
  preSharedKey := b.leaf "key"

/-- A tunnel, which must name a gateway; its selector is the first one in it. -/
def readSelector (b : Block) (name : String) : Option Selector :=
  (b.entryAfter "ike-gateway").map fun gateway =>
    let proxy := b.children.head?
    { name
      tunnel := gateway
      proposal := b.leaf "ipsec-crypto-profile"
      source := proxy.bind (·.leaf "local")
      destination := proxy.bind (·.leaf "remote") }

/-- The roles that an account may have. -/
def roles : List String := ["superuser", "superreader", "deviceadmin", "devicereader"]

/-- An account, whose role is the first of the known ones that stands in it. -/
def readUser (b : Block) (name : String) : User :=
  let role := roles.find? fun r => b.hasTag r || (b.anyLeaf r).isSome
  { username := name
    secret := b.leaf "phash"
    privilege := if role == some "superuser" then User.fullPrivilege else User.readOnlyPrivilege
    role }

/-- An application. -/
def readApplication (b : Block) (name : String) : Application where
  name := name
  category := b.leaf "category"
  description := b.leaf "description"

/-- A category of web addresses. -/
def readUrlCategory (b : Block) (name : String) : UrlCategory where
  name := name
  urls := b.members "list"
  description := b.leaf "description"

/-- Adds what a named entry of an area means. -/
def addEntry (c : Config) (b : Block) (name : String) : Area → Config
  | .interfaces => (readUnits b).foldl Config.putInterface (c.putInterface (readInterface b name))
  | .zones => { c with zones := c.zones ++ [{ name, interfaces := b.zoneMembers }] }
  | .addresses => (readAddress b name).toList.foldl Config.putAddressObject c
  | .addressGroups => { c with addressGroups := c.addressGroups ++ [readGroup b name] }
  | .services => { c with services := c.services ++ [readService b name] }
  | .security => { c with policies := c.policies ++ [readPolicy b name] }
  | .nat => { c with nat := c.nat ++ [readNat b name] }
  | .routes => { c with routes := c.routes ++ (readRoute b name).toList }
  | .ikeGateways => { c with vpn := { c.vpn with tunnels := c.vpn.tunnels ++ [readTunnel b name] } }
  | .ipsecTunnels =>
    { c with vpn := { c.vpn with selectors := c.vpn.selectors ++ (readSelector b name).toList } }
  | .admins => { c with users := c.users ++ [readUser b name] }
  | .applications => { c with applications := c.applications ++ [readApplication b name] }
  | .urlCategories => { c with urlCategories := c.urlCategories ++ [readUrlCategory b name] }

/-! ## The scan -/

/-- What has been read so far. -/
structure Reading where
  config : Config := {}
  /-- The area that the scan is in. -/
  area : Option Area := none
  /-- The lines of the entry that is being collected, back to front, and how many entries are open
  in it. -/
  entry : Option (List String × Nat) := none
deriving Repr

namespace Reading

/-- Takes in an entry, all of it. -/
def takeEntry (r : Reading) (lines : List String) : Reading :=
  let b := Block.ofLines lines
  match r.area, b.name with
  | some a, some name => { r with config := addEntry r.config b name a, entry := none }
  | _, _ => { r with entry := none }

/-- Takes in a line outside every area. -/
def settingLine (c : Config) (line : String) : Config :=
  match leafText "hostname" line, leafText "timezone" line, leafText "domain" line with
  | some name, _, _ => { c with hostname := some name }
  | none, some zone, _ => { c with device := { c.device with timezone := some zone } }
  | none, none, some domain => { c with device := { c.device with domain := some domain } }
  | none, none, none => c

/-- Takes in a line between entries. -/
def idleLine (r : Reading) (line : String) : Reading :=
  match Area.opened? line, r.area with
  | some a, _ => { r with area := some a }
  | none, none => { r with config := settingLine r.config line }
  | none, some a =>
    if a.isClosedBy line then { r with area := none }
    else if (entryName line).isNone then r
    else if isSelfClosed line || Text.holds (closeTag "entry") line then r.takeEntry [line]
    else { r with entry := some ([line], 1) }

/-- Takes in a line. -/
def step (r : Reading) (raw : String) : Reading :=
  let line := Text.trim raw
  match r.entry with
  | none => r.idleLine line
  | some (lines, depth) =>
    let depth := depthAfter depth line
    if depth = 0 then r.takeEntry (line :: lines).reverse
    else { r with entry := some (line :: lines, depth) }

/-- What has been read once some lines are through. -/
def run (r : Reading) (lines : List String) : Reading := lines.foldl step r

end Reading

/-- The interface with its zone: the last one that lists it. -/
def joinZone (zones : List Zone) (i : Interface) : Interface :=
  let listed := zones.reverse.find? fun z => z.interfaces.contains i.name
  { i with zone := (listed.map (·.name)).or i.zone }

/-- Reads a configuration. -/
def read (text : String) : Config :=
  let c := (Reading.run {} (Text.lines text)).config
  { c with interfaces := c.interfaces.map (joinZone c.zones) }

end FirewallConfig.PanOs
