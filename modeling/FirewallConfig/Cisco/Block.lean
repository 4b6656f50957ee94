import FirewallConfig.Cisco.Line
import FirewallConfig.Cisco.Operand
import FirewallConfig.Config.Basic

/-!
# Cisco/Block — the lines below a header

Some directives open a block.  One kind of block builds a record, line by line, which is stored
when the block closes; another amends an entry that the configuration holds already.  Each function
here says what one line means inside one kind of block; a line it does not know changes nothing.
-/

namespace FirewallConfig.Cisco

/-- An open block. -/
inductive Block where
  | interface (i : Interface)
  | object (o : AddressObject)
  | service (s : ServiceObject)
  | group (g : AddressGroup)
  | ikePolicy (p : IkePolicy)
  | profile (p : SecurityProfile)
  /-- The entry of a crypto map. -/
  | cryptoMap (map : String) (sequence : UInt32)
  | aaaServer (name : String)
  | groupPolicy (name : String)
  | tunnelGroup (name : String)
  /-- A block whose lines mean nothing. -/
  | skip
deriving DecidableEq, Repr

/-! ## Lines of a record under construction -/

/-- A line of an interface.  An address stands with its mask or in slash notation; what is no
address changes nothing. -/
def interfaceLine (i : Interface) (l : Line) : List String → Interface
  | "nameif" :: name :: _ => { i with nickname := some name }
  | "description" :: _ => { i with comment := some (l.after 1) }
  | "ip" :: "address" :: rest =>
    match rest with
    | ip :: mask :: _ => if isIPv4 ip then { i with ip := some ip, mask := some mask } else i
    | [cidr] =>
      match Network.ofCidr? cidr with
      | some n => { i with ip := some n.address, mask := some n.mask }
      | none => i
    | [] => i
  | "security-level" :: level :: _ => { i with securityLevel := Text.readUInt8 level }
  | "vlan" :: id :: _ => { i with vlan := Text.readUInt16 id }
  | ["shutdown"] => { i with enabled := false }
  | _ => i

/-- A line of an address object, of which the last value counts. -/
def objectLine (o : AddressObject) (l : Line) : List String → AddressObject
  | "host" :: address :: _ => { o with kind := .host, value := address }
  | "subnet" :: address :: mask :: _ =>
    { o with kind := .subnet, value := address, mask := some mask }
  | "range" :: first :: last :: _ => { o with kind := .range, value := s!"{first}-{last}" }
  | "fqdn" :: "v4" :: name :: _ | "fqdn" :: "v6" :: name :: _ | "fqdn" :: name :: _ =>
    { o with kind := .fqdn, value := name }
  | "description" :: _ => { o with description := some (l.after 1) }
  | _ => o

/-- The words that hold the ports of a service: those after `destination`, if it is there. -/
def destinationWords (words : List String) : List String :=
  match words.dropWhile (· != "destination") with
  | _ :: rest => rest
  | [] => words

/-- A line of a service, whose ports are those of the destination. -/
def serviceLine (s : ServiceObject) (l : Line) : List String → ServiceObject
  | "service" :: protocol :: rest =>
    { s with protocol, port := (readPorts (destinationWords rest)).map Prod.fst }
  | "description" :: _ => { s with description := some (l.after 1) }
  | _ => s

/-- A line of an address group: another group, or an address in any of its spellings. -/
def groupLine (g : AddressGroup) (l : Line) : List String → AddressGroup
  | "group-object" :: name :: _ => { g with members := g.members ++ [name] }
  | "network-object" :: rest =>
    match readAddress rest with
    | some (member, _) => { g with members := g.members ++ [member] }
    | none => g
  | "description" :: _ => { g with description := some (l.after 1) }
  | _ => g

/-- A setting of a policy for the key exchange. -/
def ikeLine (p : IkePolicy) : List String → IkePolicy
  | "authentication" :: value :: _ => { p with authentication := value }
  | "encryption" :: value :: _ => { p with encryption := value }
  | "hash" :: value :: _ | "integrity" :: value :: _ => { p with hash := value }
  | "group" :: value :: _ => { p with group := value }
  | "lifetime" :: "seconds" :: value :: _ | "lifetime" :: value :: _ =>
    { p with lifetime := value }
  | _ => p

/-! ## Lines that amend an entry -/

/-- A setting of the entry of a crypto map. -/
def tunnelLine (t : Tunnel) : List String → Tunnel
  | "match" :: "address" :: acl :: _ => { t with acl := some acl }
  | "set" :: "peer" :: peer :: peers => { t with peer := some (Text.unwords (peer :: peers)) }
  | "set" :: "transform-set" :: set :: sets
  | "set" :: "ikev1" :: "transform-set" :: set :: sets
  | "set" :: "ikev1" :: "ipsec-proposal" :: set :: sets
  | "set" :: "ikev2" :: "transform-set" :: set :: sets
  | "set" :: "ikev2" :: "ipsec-proposal" :: set :: sets =>
    { t with proposal := some (Text.unwords (set :: sets)) }
  | "description" :: rest => { t with description := some (Text.unwords rest) }
  | _ => t

/-- A setting of a server. -/
def aaaServerLine (s : AaaServer) : List String → AaaServer
  | "ldap-base-dn" :: dn :: _ => { s with baseDn := some dn }
  | "server-port" :: port :: _ => { s with port }
  | "description" :: rest => { s with description := some (Text.unwords rest) }
  | _ => s

/-- A setting of a group policy. -/
def groupPolicyLine (g : GroupPolicy) (l : Line) : List String → GroupPolicy
  | "vpn-tunnel-protocol" :: _ => { g with vpnProtocols := some (l.after 1) }
  | "dns-server" :: "value" :: server :: _ | "dns-server" :: server :: _ =>
    { g with dnsServer := some server }
  | _ => g

/-- A setting of a tunnel group. -/
def tunnelGroupLine (g : TunnelGroup) : List String → TunnelGroup
  | "default-group-policy" :: policy :: _ => { g with defaultGroupPolicy := some policy }
  | "ikev1" :: "pre-shared-key" :: key :: _ | "ikev2" :: "pre-shared-key" :: key :: _
  | "pre-shared-key" :: key :: _ => { g with preSharedKey := some key }
  | _ => g

end FirewallConfig.Cisco
