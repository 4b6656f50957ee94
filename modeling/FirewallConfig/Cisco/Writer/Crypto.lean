import FirewallConfig.Cisco.Writer.Nameif
import FirewallConfig.Cisco.Writer.Operand

/-!
# Cisco/Writer/Crypto — tunnels and what they need

A tunnel is an entry of a crypto map, which names transform sets, an access list and a peer.  What
a tunnel needs and the configuration lacks is written for it: a policy for the key exchange, a
transform set, an access list and a tunnel group.
-/

namespace FirewallConfig.Cisco

/-! ## Transform sets -/

/-- The algorithms of a transform that a proposal such as `aes256-sha256` names; what it does not
name is the default. -/
def transformOfProposal (name : String) : TransformSet :=
  let (encryption, hash) := (Text.cut '-' name).getD (name, "")
  let default : TransformSet := { name }
  { default with
    encryption :=
      match encryption with
      | "aes192" => "aes-192"
      | "aes256" | "aes256gcm" => "aes-256"
      | "3des" => "3des"
      | "des" => "des"
      | _ => default.encryption
    hash :=
      match hash with
      | "sha256" => "sha-256"
      | "sha384" => "sha-384"
      | "sha512" => "sha-512"
      | "md5" => "md5"
      | _ => default.hash }

/-- The transform set of a tunnel that names none where none is declared. -/
def defaultTransformSet : String := "ESP-AES-SHA"

/-- A set of the name is among the sets. -/
def isDeclared (sets : List TransformSet) (name : String) : Bool := sets.any (·.name == name)

/-- The set that a tunnel uses which does not name declared sets only: the first one it names, else
the first one declared, else the default. -/
def chosenSet (sets : List TransformSet) (proposal : String) : String :=
  match Text.words proposal, sets with
  | name :: _, _ => name
  | [], set :: _ => set.name
  | [], [] => defaultTransformSet

/-- The text that names the sets of a tunnel, and the sets, with one more if it is not among
them. -/
def selectSet (sets : List TransformSet) (t : Tunnel) : String × List TransformSet :=
  let proposal := t.proposal.getD ""
  if !proposal.isEmpty && (Text.words proposal).all (isDeclared sets) then (proposal, sets)
  else
    let name := chosenSet sets proposal
    (name, if isDeclared sets name then sets else sets ++ [transformOfProposal name])

/-- The tunnels, each with the text that names its sets, and all the sets that are written. -/
def selectSets (sets : List TransformSet) : List Tunnel → List (Tunnel × String) × List TransformSet
  | [] => ([], sets)
  | t :: ts =>
    let (name, sets) := selectSet sets t
    let (selected, sets) := selectSets sets ts
    ((t, name) :: selected, sets)

/-- The line of a transform set. -/
def transformSetLine (s : TransformSet) : String :=
  let encryption := s!"{s.protocol}-{s.encryption}"
  let hash := s!"{s.protocol}-{s.hash}-hmac"
  s!"crypto ipsec ikev1 transform-set {s.name} {encryption} {hash}"

/-! ## Policies for the key exchange -/

/-- The lines of a policy for the key exchange. -/
def ikePolicyLines (p : IkePolicy) : List String :=
  block
    [s!"crypto ikev1 policy {p.priority}", s!" authentication {p.authentication}",
     s!" encryption {p.encryption}", s!" hash {p.hash}", s!" group {p.group}",
     s!" lifetime {p.lifetime}"]

/-- The policies that are written: where there are tunnels, there is at least one. -/
def writtenIkePolicies (v : Vpn) : List IkePolicy :=
  if v.ikePolicies.isEmpty && !v.tunnels.isEmpty then [{ priority := "10" }] else v.ikePolicies

/-! ## Crypto maps -/

/-- The crypto map of the tunnels that have no sequence number. -/
def defaultMap : String := "outside_map"

/-- The map that a tunnel is an entry of, and the number of the entry.  `position` is the place of
the tunnel among all of them, from 0 on. -/
def mapEntry (t : Tunnel) (position : Nat) : String × Nat :=
  match t.sequence with
  | some sequence => (t.name, sequence.toNat)
  | none => (defaultMap, 10 * (position + 1))

/-- The interface that a tunnel leaves by. -/
def tunnelInterface (c : Config) (t : Tunnel) : String := nameifOr c egress t.interface

/-- The access list of the traffic of a tunnel, with its lines: the list that the tunnel names, or
one made of its selectors, if it has any. -/
def tunnelAcl (c : Config) (t : Tunnel) : List String × Option String :=
  match t.acl with
  | some acl => ([], some acl)
  | none =>
    let acl := s!"{t.name}_cryptomap"
    let operand := fun (network : Option String) => addressOperand c (network.getD "")
    match c.vpn.selectors.filter (·.tunnel == t.name) with
    | [] => ([], none)
    | selectors =>
      (selectors.map fun s =>
        let source := operand s.source
        let destination := operand s.destination
        s!"access-list {acl} extended permit ip {source} {destination}", some acl)

/-- The lines of a tunnel. -/
def tunnelLines (c : Config) (position : Nat) (t : Tunnel) (sets : String) : List String :=
  let (map, sequence) := mapEntry t position
  let (aclLines, acl) := tunnelAcl c t
  let entry := fun setting => s!"crypto map {map} {sequence} {setting}"
  t.description.toList.map ("! " ++ ·)
    ++ aclLines
    ++ (acl.toList.map fun acl => entry s!"match address {acl}")
    ++ (t.peer.toList.map fun peer => entry s!"set peer {peer}")
    ++ [entry s!"set ikev1 transform-set {sets}"]

/-- The interfaces that the maps serve, each pair once. -/
def mapBindings (c : Config) : List (String × String) :=
  (c.vpn.tunnels.zipIdx.map fun (t, position) =>
    ((mapEntry t position).1, tunnelInterface c t)).eraseDups

/-- The lines that bind maps to interfaces, and those that switch the key exchange on, once for each
interface. -/
def mapBindingLines (bindings : List (String × String)) : List String :=
  (bindings.map fun (map, interface) => s!"crypto map {map} interface {interface}")
    ++ (bindings.map Prod.snd).eraseDups.map fun interface => s!"crypto ikev1 enable {interface}"

/-! ## Group policies and tunnel groups -/

/-- The lines of a group policy. -/
def groupPolicyLines (g : GroupPolicy) : List String :=
  let kind := g.kind.getD "internal"
  let attributes :=
    (g.vpnProtocols.toList.map (" vpn-tunnel-protocol " ++ ·))
      ++ g.dnsServer.toList.map (" dns-server value " ++ ·)
  s!"group-policy {g.name} {kind}"
    :: (if attributes.isEmpty then [] else s!"group-policy {g.name} attributes" :: attributes)

/-- The lines of the key of a tunnel group; a sealed key is not written. -/
def keyLines (group key : String) : List String :=
  if isSealed key then
    [notConverted s!"pre-shared key for {group} is encrypted in the source"]
  else [s!"tunnel-group {group} ipsec-attributes", s!" ikev1 pre-shared-key {key}"]

/-- The lines of a tunnel group. -/
def tunnelGroupLines (g : TunnelGroup) : List String :=
  let kind := g.kind.getD "ipsec-l2l"
  s!"tunnel-group {g.name} type {kind}"
    :: (g.defaultGroupPolicy.toList.flatMap fun policy =>
      [s!"tunnel-group {g.name} general-attributes", s!" default-group-policy {policy}"])
    ++ g.preSharedKey.toList.flatMap (keyLines g.name)

/-- The groups that are written: those of the configuration, and one for each tunnel whose peer has
none among them. -/
def writtenTunnelGroups (v : Vpn) : List TunnelGroup :=
  v.tunnelGroups ++ v.tunnels.filterMap fun t =>
    (t.peer.filter fun peer => !v.tunnelGroups.any (·.name == peer)).map fun peer =>
      { name := peer, preSharedKey := t.preSharedKey }

/-! ## Everything about tunnels -/

/-- The lines of everything about tunnels. -/
def cryptoLines (c : Config) : List String :=
  if c.vpn.isEmpty then []
  else
    let (selected, sets) := selectSets c.vpn.transformSets c.vpn.tunnels
    block
      ((writtenIkePolicies c.vpn).flatMap ikePolicyLines
        ++ sets.map transformSetLine
        ++ (selected.zipIdx.flatMap fun ((t, sets), position) => tunnelLines c position t sets)
        ++ mapBindingLines (mapBindings c)
        ++ c.vpn.groupPolicies.flatMap groupPolicyLines
        ++ (writtenTunnelGroups c.vpn).flatMap tunnelGroupLines)

end FirewallConfig.Cisco
