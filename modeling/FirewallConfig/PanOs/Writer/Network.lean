import FirewallConfig.Config.Basic
import FirewallConfig.PanOs.Writer.Element

/-!
# PanOs/Writer/Network — interfaces, routes and tunnels
-/

namespace FirewallConfig.PanOs

open Xml (Node)

/-! ## Interfaces and routes -/

/-- An interface.  There is place for one comment, and the nickname takes it first. -/
def interfaceEntry (i : Interface) : Node :=
  let address := i.address?.toList.map fun (ip, mask) =>
    Node.branch "ip" [entry (Network.mk ip mask).cidr []]
  let tag := leaf? "tag" (i.vlan.map toString)
  entry i.name
    (Node.branch "layer3" (address ++ tag)
      :: (if i.enabled then [] else [Node.leaf "link-state" "down"])
      ++ leaf? "comment" (i.nickname.or i.comment))

/-- A route; one without a name is called by its position. -/
def routeEntry (c : Config) (r : Route) (position : Nat) : Node :=
  let gateway := r.gateway.toList.map fun gateway =>
    Node.branch "nexthop" [.leaf "ip-address" gateway]
  entry (r.name.getD s!"route-{position + 1}")
    (Node.leaf "destination" (Network.mk r.network r.mask).cidr
      :: gateway
      ++ leaf? "interface" (r.interface.map c.deviceName)
      ++ leaf? "admin-dist" (r.distance.map toString))

/-- The router that carries all routes. -/
def routerEntry (c : Config) (routes : List Node) : Node :=
  let interfaces :=
    if c.interfaces.isEmpty then [] else [memberList "interface" (c.interfaces.map (·.name))]
  entry "default" (interfaces ++ [nested "routing-table" ["ip", "static-route"] routes])

/-! ## Tunnels -/

/-- The profile that stands for every proposal. -/
def defaultProfile : String := "default"

/-- The elements of a key; a sealed one is not written. -/
def keyElements (key : Option String) : List Node :=
  (key.filter (!isSealed ·)).toList.map fun key =>
    nested "authentication" ["pre-shared-key"] [.leaf "key" key]

/-- The gateway of a tunnel, with the peer that it has. -/
def gatewayEntry (c : Config) (t : Tunnel) (peer : String) : Node :=
  let interface := (t.interface.bind c.findInterface?).toList.map fun i =>
    Node.branch "local-address" [.leaf "interface" i.name]
  entry t.label
    (keyElements t.preSharedKey
      ++ [nested "protocol" ["ikev1"] [.leaf "ike-crypto-profile" defaultProfile]]
      ++ interface
      ++ [.branch "peer-address" [.leaf "ip" peer]])

/-- The network of one end of a selector; everything, if there is none. -/
def selectorNetwork (text : Option String) : String :=
  ((text.bind Network.read?).map Network.cidr).getD "0.0.0.0/0"

/-- A selector. -/
def selectorEntry (s : Selector) : Node :=
  entry s.name
    [.leaf "local" (selectorNetwork s.source), .leaf "remote" (selectorNetwork s.destination)]

/-- A tunnel with the selectors that name it. -/
def tunnelEntry (c : Config) (t : Tunnel) (position : Nat) : Node :=
  let selectors := (c.vpn.selectors.filter (·.tunnel == t.name)).map selectorEntry
  let autoKey :=
    [Node.branch "ike-gateway" [entry t.label []],
     Node.leaf "ipsec-crypto-profile" defaultProfile] ++ branch? "proxy-id" selectors
  entry s!"{t.label}-tunnel"
    [.branch "auto-key" autoKey, .leaf "tunnel-interface" s!"tunnel.{position + 1}"]

/-! ## The element -/

/-- The elements of interfaces, routes and tunnels. -/
def networkElements (c : Config) : List Node :=
  let routes := c.routes.zipIdx.map fun (r, position) => routeEntry c r position
  let tunnels := c.vpn.peeredTunnels
  branch? "interface" (branch? "ethernet" (c.interfaces.map interfaceEntry))
    ++ (if routes.isEmpty then [] else [.branch "virtual-router" [routerEntry c routes]])
    ++ branch? "ike" (branch? "gateway" (tunnels.map fun (t, peer) => gatewayEntry c t peer))
    ++ branch? "tunnel"
      (branch? "ipsec" (tunnels.zipIdx.map fun ((t, _), position) => tunnelEntry c t position))

/-- The remarks on tunnels: the keys that are not written, and the tunnels without a peer. -/
def tunnelNotes (c : Config) : List String :=
  ((c.vpn.peeredTunnels.map Prod.fst).filterMap fun t =>
      if t.preSharedKey.any isSealed then some s!"encrypted pre-shared key for {t.label}" else none)
    ++ (c.vpn.tunnels.filter (·.peer.isNone)).map fun t => s!"VPN tunnel {t.name} without a peer"

end FirewallConfig.PanOs
