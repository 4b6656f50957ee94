import FirewallConfig.Cisco.Block
import FirewallConfig.Cisco.Directive
import FirewallConfig.Text.Lines

/-!
# Cisco/Reader — reading a whole configuration

A text is read in one pass: `Reading.step` takes a line, and `Reading.finish` joins what was named
before it was known.  A block is open until a line with an exclamation mark, or until an unindented
line that is a directive, even one that the product does not have; any other line belongs to the
block, or to nothing if none is open.
-/

namespace FirewallConfig.Cisco

/-- What has been read so far. -/
structure Reading where
  flavor : Flavor
  config : Config := {}
  /-- The block that is open, if one is. -/
  block : Option Block := none
  /-- The last remark, with the name of its list, until an entry follows it. -/
  remark : Option (String × String) := none
  /-- The interfaces that crypto maps serve, by the name of the map. -/
  mapInterfaces : List (String × String) := []
deriving Repr

namespace Reading

/-- Changes the configuration. -/
def amend (r : Reading) (f : Config → Config) : Reading := { r with config := f r.config }

/-- Changes the part of the configuration that is about tunnels. -/
def amendVpn (r : Reading) (f : Vpn → Vpn) : Reading :=
  r.amend fun c => { c with vpn := f c.vpn }

/-- Opens a block. -/
def openBlock (r : Reading) (b : Block) : Reading := { r with block := some b }

/-! ## Closing a block -/

/-- Stores the record that a block has built. -/
def store (b : Block) (c : Config) : Config :=
  match b with
  | .interface i => c.putInterface i
  | .object o => c.putAddressObject o
  | .service s => { c with services := c.services ++ [s] }
  | .group g => { c with addressGroups := c.addressGroups ++ [g] }
  | .ikePolicy p => { c with vpn := { c.vpn with ikePolicies := c.vpn.ikePolicies ++ [p] } }
  | .profile p => { c with securityProfiles := c.securityProfiles ++ [p] }
  | .cryptoMap .. | .aaaServer _ | .groupPolicy _ | .tunnelGroup _ | .skip => c

/-- Closes the open block, if there is one. -/
def closeBlock (r : Reading) : Reading :=
  match r.block with
  | some b => { r with config := store b r.config, block := none }
  | none => r

/-! ## A line inside a block -/

/-- Adds a translation rule, if a line gave one. -/
def addNat (r : Reading) (rule : Option NatRule) : Reading :=
  r.amend fun c => { c with nat := c.nat ++ rule.toList }

/-- Gives the entry of a crypto map one setting. -/
def setTunnel (r : Reading) (map : String) (sequence : UInt32) (setting : List String) : Reading :=
  r.amendVpn (Vpn.amendTunnel map (some sequence) (tunnelLine · setting))

/-- Changes the server of a name. -/
def amendServer (r : Reading) (name : String) (f : AaaServer → AaaServer) : Reading :=
  r.amend fun c => { c with aaaServers := amendFirst (·.name == name) { name } f c.aaaServers }

/-- Reads a line that belongs to a block. -/
def blockLine (r : Reading) (b : Block) (l : Line) : Reading :=
  match b with
  | .interface i => r.openBlock (.interface (interfaceLine i l l.words))
  | .object o =>
    match l.words with
    | "nat" :: operands => r.addNat (readNat (some o.name) operands)
    | words => r.openBlock (.object (objectLine o l words))
  | .service s => r.openBlock (.service (serviceLine s l l.words))
  | .group g => r.openBlock (.group (groupLine g l l.words))
  | .ikePolicy p => r.openBlock (.ikePolicy (ikeLine p l.words))
  | .profile p => r.openBlock (.profile { p with lines := p.lines ++ [l.text] })
  | .cryptoMap map sequence => r.setTunnel map sequence l.words
  | .aaaServer name => r.amendServer name (aaaServerLine · l.words)
  | .groupPolicy name =>
    r.amendVpn (Vpn.amendGroupPolicy name (groupPolicyLine · l l.words))
  | .tunnelGroup name =>
    r.amendVpn (Vpn.amendTunnelGroup name (tunnelGroupLine · l.words))
  | .skip => r

/-! ## A directive -/

/-- Adds an entry to its access list.  It is numbered within the list, and the last remark
describes it if it is of the same list. -/
def addEntry (r : Reading) (acl : String) (rule : Policy) : Reading :=
  let position := r.config.policies.countP (·.name == some acl) + 1
  let rule :=
    { rule with
      name := some acl
      id := some (.ofNat position)
      description := (r.remark.filter (·.1 == acl)).map Prod.snd }
  { r.amend fun c => { c with policies := c.policies ++ [rule] } with remark := none }

/-- Takes in a line of an access list. -/
def applyAcl (r : Reading) (acl : String) : AclLine → Reading
  | .remark text => { r with remark := some (acl, text) }
  | .entry rule => r.addEntry acl rule
  | .ignored => r

/-- Takes in a line about a crypto map.  An entry without a setting is open for more. -/
def applyCryptoMap (r : Reading) (map : String) : CryptoMapLine → Reading
  | .bind interface => { r with mapInterfaces := r.mapInterfaces ++ [(map, interface)] }
  | .entry sequence [] => (r.setTunnel map sequence []).openBlock (.cryptoMap map sequence)
  | .entry sequence ("ipsec-isakmp" :: _) =>
    (r.setTunnel map sequence []).openBlock (.cryptoMap map sequence)
  | .entry sequence setting => r.setTunnel map sequence setting
  | .unreadable => r

/-- The interface named between parentheses. -/
def readParenthesized (word : String) : Option String :=
  (Text.withoutPrefix "(" word).bind (Text.withoutSuffix ")")

/-- Takes in a line about a server. -/
def applyServer (r : Reading) (name : String) : List String → Reading
  | "protocol" :: protocol :: _ => r.amendServer name fun s => { s with protocol }
  | interface :: "host" :: host :: _ =>
    (r.amendServer name fun s =>
      { s with interface := readParenthesized interface, host := some host }).openBlock
        (.aaaServer name)
  | "host" :: host :: _ =>
    (r.amendServer name fun s => { s with host := some host }).openBlock (.aaaServer name)
  | _ => r.amendServer name id

/-- Takes in a line about a group policy. -/
def applyGroupPolicy (r : Reading) (name kind : String) : Reading :=
  if kind == "attributes" then
    (r.amendVpn (Vpn.amendGroupPolicy name id)).openBlock (.groupPolicy name)
  else r.amendVpn (Vpn.amendGroupPolicy name fun g => { g with kind := some kind })

/-- Takes in a line about a tunnel group. -/
def applyTunnelGroup (r : Reading) (name : String) : List String → Reading
  | "type" :: kind :: _ =>
    r.amendVpn (Vpn.amendTunnelGroup name fun g => { g with kind := some kind })
  | "general-attributes" :: _ | "ipsec-attributes" :: _ =>
    (r.amendVpn (Vpn.amendTunnelGroup name id)).openBlock (.tunnelGroup name)
  | _ => r.amendVpn (Vpn.amendTunnelGroup name id)

/-- Changes the settings of the management plane. -/
def amendManagement (r : Reading) (f : Management → Management) : Reading :=
  r.amend fun c => { c with management := f c.management }

/-- Changes the settings of the device. -/
def amendDevice (r : Reading) (f : Device → Device) : Reading :=
  r.amend fun c => { c with device := f c.device }

/-- Takes in a directive, with no block open. -/
def apply (r : Reading) : Directive → Reading
  | .bang => r
  | .hostname name => r.amend fun c => { c with hostname := some name }
  | .domainName name => r.amendDevice fun d => { d with domain := some name }
  | .interface name => r.openBlock (.interface { name })
  | .objectNetwork name => r.openBlock (.object { name })
  | .objectService name => r.openBlock (.service { name })
  | .objectGroupNetwork name => r.openBlock (.group { name })
  | .accessList acl line => r.applyAcl acl line
  | .accessGroup binding =>
    r.amend fun c => { c with accessBindings := c.accessBindings ++ binding.toList }
  | .route route => r.amend fun c => { c with routes := c.routes ++ route.toList }
  | .nat rule | .pool rule | .staticNat rule => r.addNat rule
  | .ikePolicy priority => r.openBlock (.ikePolicy { priority })
  | .transformSet set =>
    r.amendVpn fun v => { v with transformSets := v.transformSets ++ set.toList }
  | .cryptoMap map line => r.applyCryptoMap map line
  | .aaaServer name operands => r.applyServer name operands
  | .groupPolicy name kind => r.applyGroupPolicy name kind
  | .tunnelGroup name operands => r.applyTunnelGroup name operands
  | .username user => r.amend fun c => { c with users := c.users ++ user.toList }
  | .enablePassword secret => r.amendDevice fun d => { d with enablePassword := some secret }
  | .password secret => r.amendDevice fun d => { d with password := some secret }
  | .logging target => r.amendManagement fun m => { m with logging := m.logging ++ [target] }
  | .snmpServer setting => r.amendManagement fun m => { m with snmp := m.snmp ++ setting.toList }
  | .ssh setting => r.amendManagement fun m => { m with ssh := m.ssh ++ [setting] }
  | .http setting => r.amendManagement fun m => { m with http := m.http ++ [setting] }
  | .clock setting => r.amendManagement fun m => { m with clock := m.clock ++ [setting] }
  | .profile kind name => r.openBlock (.profile { name, kind })
  | .other => r.openBlock .skip

/-! ## A line -/

/-- Takes in a line that is not blank and not a bang. -/
def lineStep (r : Reading) (l : Line) (d : Directive) : Reading :=
  -- What the product does not have is skipped with its block, but it is no line of another block.
  let directive := if r.flavor.enables d then d else .other
  match r.block with
  | some b =>
    if l.indented || d == .other then r.blockLine b l else r.closeBlock.apply directive
  | none => if l.indented then r else r.apply directive

/-- Takes in a line. -/
def step (r : Reading) (raw : String) : Reading :=
  let l := Line.ofText raw
  if l.text.isEmpty then r
  else
    match Directive.read l with
    | .bang => r.closeBlock
    | d => r.lineStep l d

/-! ## The end of the text -/

/-- The tunnel with the interface that its map serves, of which the last one named counts, and with
the key of the group that its peer names, if it has none of its own. -/
def joinTunnel (mapInterfaces : List (String × String)) (groups : List TunnelGroup) (t : Tunnel) :
    Tunnel :=
  let bound := mapInterfaces.reverse.find? (·.1 == t.name)
  let group := t.peer.bind fun peer => groups.find? (·.name == peer)
  { t with
    interface := (bound.map Prod.snd).or t.interface
    preSharedKey := t.preSharedKey.or (group.bind (·.preSharedKey)) }

/-- The rule with the interface that its list is bound to for traffic coming in, of which the first
one counts. -/
def joinPolicy (bindings : List AccessBinding) (p : Policy) : Policy :=
  let bound := bindings.find? fun b => b.direction == "in" && p.name == some b.acl
  { p with sourceZone := p.sourceZone.or (bound.map (·.interface)) }

/-- The configuration that has been read, once the text has ended. -/
def finish (r : Reading) : Config :=
  let c := r.closeBlock.config
  { c with
    vpn := { c.vpn with
      tunnels := c.vpn.tunnels.map (joinTunnel r.mapInterfaces c.vpn.tunnelGroups) }
    policies := c.policies.map (joinPolicy c.accessBindings) }

/-- What has been read once some lines are through. -/
def run (r : Reading) (lines : List String) : Reading := lines.foldl step r

/-- Nothing has been read yet. -/
def start (flavor : Flavor) : Reading where
  flavor := flavor

end Reading

/-- Reads a configuration. -/
def read (flavor : Flavor) (text : String) : Config :=
  ((Reading.start flavor).run (Text.lines text)).finish

end FirewallConfig.Cisco
