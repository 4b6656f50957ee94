import FirewallConfig.Keyed

/-!
# Config/Vpn — site-to-site tunnels and what belongs to them

The lists of tunnels, group policies and tunnel groups are looked up by name and grown at the end:
`Vpn.amendTunnel` and its kin change the entry of a name, and add one first where there is none.
-/

namespace FirewallConfig

/-- A site-to-site tunnel.  Tunnels of one name are told apart by their sequence number. -/
structure Tunnel where
  name : String
  sequence : Option UInt32 := none
  interface : Option String := none
  peer : Option String := none
  /-- The names of the transform sets or proposals, with blanks between them. -/
  proposal : Option String := none
  preSharedKey : Option String := none
  /-- The access list that selects the traffic of the tunnel. -/
  acl : Option String := none
  description : Option String := none
deriving DecidableEq, Repr

/-- What a tunnel is called where its name alone does not tell it apart. -/
def Tunnel.label (t : Tunnel) : String :=
  match t.sequence with
  | some sequence => s!"{t.name}-{sequence}"
  | none => t.name

/-- A policy for the first phase of the key exchange. -/
structure IkePolicy where
  priority : String
  authentication : String := "pre-share"
  encryption : String := "aes"
  hash : String := "sha"
  group : String := "2"
  lifetime : String := "86400"
deriving DecidableEq, Repr

/-- The algorithms of the second phase. -/
structure TransformSet where
  name : String
  protocol : String := "esp"
  encryption : String := "aes"
  hash : String := "sha"
deriving DecidableEq, Repr

/-- A pair of networks whose traffic a tunnel carries. -/
structure Selector where
  name : String
  tunnel : String
  proposal : Option String := none
  source : Option String := none
  destination : Option String := none
deriving DecidableEq, Repr

/-- A group policy. -/
structure GroupPolicy where
  name : String
  kind : Option String := none
  vpnProtocols : Option String := none
  dnsServer : Option String := none
deriving DecidableEq, Repr

/-- A tunnel group: what is known of a peer. -/
structure TunnelGroup where
  name : String
  kind : Option String := none
  defaultGroupPolicy : Option String := none
  preSharedKey : Option String := none
deriving DecidableEq, Repr

/-- Everything about tunnels. -/
structure Vpn where
  tunnels : List Tunnel := []
  ikePolicies : List IkePolicy := []
  transformSets : List TransformSet := []
  selectors : List Selector := []
  groupPolicies : List GroupPolicy := []
  tunnelGroups : List TunnelGroup := []
deriving DecidableEq, Repr

namespace Vpn

/-- There is nothing about tunnels. -/
def isEmpty (v : Vpn) : Bool :=
  v.tunnels.isEmpty && v.ikePolicies.isEmpty && v.transformSets.isEmpty && v.selectors.isEmpty
    && v.groupPolicies.isEmpty && v.tunnelGroups.isEmpty

/-- The tunnels whose peer is known, each with its peer. -/
def peeredTunnels (v : Vpn) : List (Tunnel × String) :=
  v.tunnels.filterMap fun t => t.peer.map fun peer => (t, peer)

/-- Changes the tunnel of a name and a sequence number. -/
def amendTunnel (name : String) (sequence : Option UInt32) (f : Tunnel → Tunnel) (v : Vpn) : Vpn :=
  { v with
    tunnels := amendFirst (fun t => t.name == name && t.sequence == sequence)
      { name, sequence } f v.tunnels }

/-- Changes the group policy of a name. -/
def amendGroupPolicy (name : String) (f : GroupPolicy → GroupPolicy) (v : Vpn) : Vpn :=
  { v with groupPolicies := amendFirst (·.name == name) { name } f v.groupPolicies }

/-- Changes the tunnel group of a name. -/
def amendTunnelGroup (name : String) (f : TunnelGroup → TunnelGroup) (v : Vpn) : Vpn :=
  { v with tunnelGroups := amendFirst (·.name == name) { name } f v.tunnelGroups }

end Vpn

end FirewallConfig
