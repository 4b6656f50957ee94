import FirewallConfig.FortiOs.Writer.Setting

/-!
# FortiOs/Writer/Tunnel — the two phases of a tunnel

Every tunnel with a peer is an entry of the first phase.  The second phase holds the selectors of
the configuration, and one for each tunnel that no selector names, made of the first rule of the
access list of the tunnel.
-/

namespace FirewallConfig.FortiOs

/-! ## Proposals -/

/-- The proposal of a tunnel that names no usable one. -/
def defaultProposal : String := "aes128-sha256"

/-- The proposal that the algorithms of a transform set make. -/
def proposalOfSet (s : TransformSet) : String :=
  let encryption :=
    match s.encryption with
    | "aes" => "aes128"
    | "aes-192" => "aes192"
    | "aes-256" => "aes256"
    | other => other
  let hash :=
    match s.hash with
    | "sha" => "sha1"
    | "sha-256" => "sha256"
    | "sha-384" => "sha384"
    | "sha-512" => "sha512"
    | other => other
  s!"{encryption}-{hash}"

/-- The word has the form of a proposal: a dash, and no large letter. -/
def isProposal (word : String) : Bool :=
  word.toList.contains '-' && !word.toList.any Char.isUpper

/-- The proposals of a tunnel: those of the transform sets it names, else its own text if that has
the form of proposals, else the default. -/
def tunnelProposal (c : Config) (t : Tunnel) : String :=
  match t.proposal.filter (!·.isEmpty) with
  | none => defaultProposal
  | some proposal =>
    let words := Text.words proposal
    match words.filterMap fun name => c.vpn.transformSets.find? (·.name == name) with
    | [] => if words.all isProposal then proposal else defaultProposal
    | sets => Text.unwords (sets.map proposalOfSet)

/-! ## The first phase -/

/-- The interface that a tunnel leaves by. -/
def tunnelInterface (c : Config) (t : Tunnel) : String :=
  match t.interface with
  | some reference => c.deviceName reference
  | none => "wan1"

/-- The first phase of a tunnel, with the peer that it has. -/
def phaseOneEntry (c : Config) (t : Tunnel) (peer : String) : Entry Value where
  name := .quoted t.label
  settings :=
    [quotedSetting "interface" [tunnelInterface c t], bareSetting "peertype" ["any"],
     bareSetting "proposal" [tunnelProposal c t], bareSetting "remote-gw" [peer]]
      ++ secretSetting? "psksecret" t.preSharedKey
      ++ quotedSetting? "comments" t.description

/-! ## The second phase -/

/-- A selector as it is written. -/
structure PhaseTwo where
  name : String
  /-- The entry of the first phase that it belongs to. -/
  phaseOne : String
  proposal : String
  source : Network
  destination : Network
deriving DecidableEq, Repr

/-- The network that stands for a missing one. -/
def wholeNetwork : Network := ⟨Netmask.everything, Netmask.everything⟩

/-- A selector of the configuration. -/
def PhaseTwo.ofSelector (s : Selector) : PhaseTwo :=
  let network := fun (text : Option String) => (text.map networkOf).getD wholeNetwork
  { name := s.name
    phaseOne := s.tunnel
    proposal := s.proposal.getD defaultProposal
    source := network s.source
    destination := network s.destination }

/-- The network that the first of some endpoints means, if it means one. -/
def firstNetwork? (c : Config) (endpoints : List String) : Option Network :=
  endpoints.head?.bind fun endpoint =>
    match Endpoint.classify endpoint with
    | .host address => some ⟨address, Netmask.single⟩
    | .network n => some n
    | .named name => (c.addressObject? name).map objectNetwork
    | .any => none

/-- The selector of a tunnel that has none, made of the first rule of its access list. -/
def PhaseTwo.ofTunnel (c : Config) (t : Tunnel) : PhaseTwo :=
  let rule := t.acl.bind fun acl => c.policies.find? (·.name == some acl)
  let network := fun (end? : Policy → List String) =>
    (rule.bind fun p => firstNetwork? c (end? p)).getD wholeNetwork
  let phaseOne := t.label
  { name := s!"{phaseOne}-p2"
    phaseOne
    proposal := tunnelProposal c t
    source := network (·.source)
    destination := network (·.destination) }

/-- Some selector names the tunnel, with its sequence number or without. -/
def isSelected (phases : List PhaseTwo) (t : Tunnel) : Bool :=
  phases.any fun p => p.phaseOne == t.label || p.phaseOne == t.name

/-- Adds a selector for each tunnel that has none. -/
def addMissing (c : Config) (phases : List PhaseTwo) : List Tunnel → List PhaseTwo
  | [] => phases
  | t :: ts => addMissing c (if isSelected phases t then phases else phases ++ [.ofTunnel c t]) ts

/-- The selectors that are written. -/
def phaseTwos (c : Config) : List PhaseTwo :=
  addMissing c (c.vpn.selectors.map .ofSelector) (c.vpn.peeredTunnels.map Prod.fst)

/-- A selector. -/
def phaseTwoEntry (p : PhaseTwo) : Entry Value where
  name := .quoted p.name
  settings :=
    [quotedSetting "phase1name" [p.phaseOne], bareSetting "proposal" [p.proposal],
     networkSetting "src-subnet" p.source, networkSetting "dst-subnet" p.destination]

/-- The lines of all tunnels. -/
def tunnelLines (c : Config) : List String :=
  listing "vpn ipsec phase1-interface"
      (c.vpn.peeredTunnels.map fun (t, peer) => phaseOneEntry c t peer)
    ++ listing "vpn ipsec phase2-interface" ((phaseTwos c).map phaseTwoEntry)

end FirewallConfig.FortiOs
