import FirewallConfig.Cisco.Reader
import FirewallConfig.Proofs.Cisco.Counts
import FirewallConfig.Proofs.Cisco.Directive

/-!
# Proofs/Cisco/Places — lines whose operands are taken by their places

A line may be read in two steps: its first words say what kind of line it is (`Kind.ofWords`), and
then the operands of that kind are taken by their places.  A place is in the line because the kind was
given to lines that are long enough (`operandsAt_eq`), or because of a check on the way.  So no place
is missed on any line, in or below any block, and a whole configuration is read as if by patterns
(`readAt_eq`).  A name that ends in `At` is that of a reader which takes its parts by their places.
-/

namespace FirewallConfig.Cisco

/-! ## Kinds of lines -/

/-- What a line is, without its operands. -/
inductive Kind where
  | bang
  | hostname
  | domainName
  | interface
  | objectNetwork
  | objectService
  | objectGroupNetwork
  | accessList
  | accessGroup
  | route
  | nat
  | pool
  | staticNat
  | ikePolicy
  | transformSet
  | cryptoMap
  | aaaServer
  | groupPolicy
  | tunnelGroup
  | username
  | enablePassword
  | password
  | logging
  | snmpServer
  | ssh
  | http
  | clock
  | classMap
  | policyMap
  | other
deriving DecidableEq, Repr

namespace Kind

/-- The kind of a line that does not begin with an exclamation mark. -/
def ofForm : List String → Kind
  | "hostname" :: _ :: _ => .hostname
  | "domain-name" :: _ :: _ => .domainName
  | "interface" :: _ :: _ => .interface
  | "object" :: "network" :: _ :: _ => .objectNetwork
  | "object" :: "service" :: _ :: _ => .objectService
  | "object-group" :: "network" :: _ :: _ => .objectGroupNetwork
  | "access-list" :: _ :: _ :: _ => .accessList
  | "access-group" :: _ :: _ => .accessGroup
  | "route" :: _ :: _ => .route
  | "nat" :: _ :: _ => .nat
  | "global" :: _ :: _ => .pool
  | "static" :: _ :: _ => .staticNat
  | "crypto" :: "isakmp" :: "policy" :: _ :: _
  | "crypto" :: "ikev1" :: "policy" :: _ :: _
  | "crypto" :: "ikev2" :: "policy" :: _ :: _ => .ikePolicy
  | "crypto" :: "ipsec" :: rest => if rest.contains "transform-set" then .transformSet else .other
  | "crypto" :: "map" :: _ :: _ :: _ => .cryptoMap
  | "aaa-server" :: _ :: _ :: _ => .aaaServer
  | "group-policy" :: _ :: _ :: _ => .groupPolicy
  | "tunnel-group" :: _ :: _ :: _ => .tunnelGroup
  | "username" :: _ :: _ => .username
  | "enable" :: "password" :: _ :: _ => .enablePassword
  | "passwd" :: _ :: _ => .password
  | "logging" :: _ :: _ => .logging
  | "snmp-server" :: _ :: _ => .snmpServer
  | "ssh" :: _ :: _ => .ssh
  | "http" :: _ :: _ => .http
  | "clock" :: _ :: _ => .clock
  | "class-map" :: _ => .classMap
  | "policy-map" :: _ => .policyMap
  | _ => .other

/-- The kind of a line. -/
def ofWords (words : List String) : Kind :=
  if words.head?.any (Text.beginsWith "!") then .bang else ofForm words

/-- The kind of the directive. -/
def ofDirective : Directive → Kind
  | .bang => .bang
  | .hostname _ => .hostname
  | .domainName _ => .domainName
  | .interface _ => .interface
  | .objectNetwork _ => .objectNetwork
  | .objectService _ => .objectService
  | .objectGroupNetwork _ => .objectGroupNetwork
  | .accessList .. => .accessList
  | .accessGroup _ => .accessGroup
  | .route _ => .route
  | .nat _ => .nat
  | .pool _ => .pool
  | .staticNat _ => .staticNat
  | .ikePolicy _ => .ikePolicy
  | .transformSet _ => .transformSet
  | .cryptoMap .. => .cryptoMap
  | .aaaServer .. => .aaaServer
  | .groupPolicy .. => .groupPolicy
  | .tunnelGroup .. => .tunnelGroup
  | .username _ => .username
  | .enablePassword _ => .enablePassword
  | .password _ => .password
  | .logging _ => .logging
  | .snmpServer _ => .snmpServer
  | .ssh _ => .ssh
  | .http _ => .http
  | .clock _ => .clock
  | .profile kind _ => if kind = "class-map" then .classMap else .policyMap
  | .other => .other

/-- The product has directives of the kind. -/
def isOf : Flavor → Kind → Bool
  | .asa, .classMap | .asa, .policyMap => false
  | .ftd, .ikePolicy | .ftd, .transformSet | .ftd, .cryptoMap | .ftd, .aaaServer
  | .ftd, .groupPolicy | .ftd, .tunnelGroup | .ftd, .enablePassword | .ftd, .password
  | .ftd, .pool | .ftd, .staticNat => false
  | _, _ => true

theorem isOf_ofDirective (f : Flavor) (d : Directive) : isOf f (ofDirective d) = f.enables d := by
  cases f <;> cases d with
  | profile kind name =>
    rw [ofDirective]
    split <;> rfl
  | _ => rfl

theorem ofDirective_beq_other (d : Directive) : (ofDirective d == .other) = (d == .other) := by
  cases d with
  | profile kind name =>
    rw [ofDirective]
    split <;> rfl
  | _ => rfl

theorem eq_bang_of_ofDirective {d : Directive} (h : ofDirective d = .bang) : d = .bang := by
  cases d with
  | bang => rfl
  | profile kind name =>
    rw [ofDirective] at h
    split at h <;> cases h
  | _ => cases h

end Kind

/-! ## Operands at the top level -/

/-- Reads a transform set, whose name stands behind the first word `transform-set`. -/
def readTransformSetAt (words : List String) : Checked (Option TransformSet) :=
  match words.findIdx? (· == "transform-set") with
  | none => .ok none
  | some place =>
    match words[place + 1]? with
    | none => .ok none
    | some name => do return readTransformSet (name :: (← Checked.drop (place + 2) words))

/-- Reads a line `crypto map NAME …`. -/
def readCryptoMapAt (words : List String) : Checked CryptoMapLine := do
  match ← Checked.drop 3 words with
  | "interface" :: interface :: _ => return .bind interface
  | _ =>
    match Text.readUInt32 (← Checked.get 3 words) with
    | none => return .unreadable
    | some sequence => return .entry sequence (← Checked.drop 4 words)

/-- Reads the operands of a line of a kind. -/
def operandsAt (l : Line) : Kind → Checked Directive
  | .bang => .ok .bang
  | .hostname => do return .hostname (← Checked.get 1 l.words)
  | .domainName => do return .domainName (← Checked.get 1 l.words)
  | .interface => do return .interface (← Checked.get 1 l.words)
  | .objectNetwork => do return .objectNetwork (← Checked.get 2 l.words)
  | .objectService => do return .objectService (← Checked.get 2 l.words)
  | .objectGroupNetwork => do return .objectGroupNetwork (← Checked.get 2 l.words)
  | .accessList => do return .accessList (← Checked.get 1 l.words) (← readAccessListAt l)
  | .accessGroup => .ok (.accessGroup (readAccessGroup l.words.tail))
  | .route => .ok (.route (readRoute l.words.tail))
  | .nat => do return .nat (← readNatAt none l.words)
  | .pool => .ok (.pool (readPool l.words.tail))
  | .staticNat => do return .staticNat (← readStaticAt l.words)
  | .ikePolicy => do return .ikePolicy (← Checked.get 3 l.words)
  | .transformSet => do return .transformSet (← readTransformSetAt l.words)
  | .cryptoMap => do return .cryptoMap (← Checked.get 2 l.words) (← readCryptoMapAt l.words)
  | .aaaServer => do return .aaaServer (← Checked.get 1 l.words) (← Checked.drop 2 l.words)
  | .groupPolicy => do return .groupPolicy (← Checked.get 1 l.words) (← Checked.get 2 l.words)
  | .tunnelGroup => do return .tunnelGroup (← Checked.get 1 l.words) (← Checked.drop 2 l.words)
  | .username => do
    return .username (readUser (← Checked.get 1 l.words) (← Checked.drop 2 l.words))
  | .enablePassword => do return .enablePassword (← Checked.get 2 l.words)
  | .password => do return .password (← Checked.get 1 l.words)
  | .logging => do
    match ← Checked.drop 1 l.words with
    | target :: rest => return .logging (readLogging target rest)
    -- nothing is taken in
    | [] => return .bang
  | .snmpServer => do return .snmpServer (readSnmp (← Checked.drop 1 l.words))
  | .ssh => do return .ssh (readAccessSetting (← Checked.drop 1 l.words))
  | .http => do return .http (readAccessSetting (← Checked.drop 1 l.words))
  | .clock => do
    let key ← Checked.get 1 l.words
    return .clock { key, value := ← Text.textAfterAt 2 l.text }
  | .classMap | .policyMap => do
    return .profile (← Checked.get 0 l.words) (profileName l.words.tail)
  | .other => .ok .other

/-- The operands of a transform set begin behind the word `transform-set`. -/
theorem readTransformSetAt_eq {ws operands : List String} {w : String}
    (h : ws.dropWhile (· != "transform-set") = w :: operands) :
    readTransformSetAt ws = .ok (readTransformSet operands) := by
  rcases Checked.find_cases (· == "transform-set") ws with hnone | ⟨before, v, behind, rfl, hbefore, hv⟩
  · have hempty : ws.dropWhile (· != "transform-set") = [] :=
      Checked.dropWhile_of_forall hnone
    rw [hempty] at h
    cases h
  · have hfound : (before ++ v :: behind).dropWhile (· != "transform-set") = v :: behind :=
      Checked.dropWhile_found hbefore hv behind
    obtain ⟨-, rfl⟩ := List.cons.inj (hfound.symm.trans h)
    rw [readTransformSetAt, Checked.findIdx?_found hbefore hv]
    cases behind with
    | nil =>
      have hnone : (before ++ [v])[before.length + 1]? = none := by simp
      simp only [hnone]
      rfl
    | cons name rest =>
      have hname : (before ++ v :: name :: rest)[before.length + 1]? = some name := by simp
      have hrest : Checked.drop (before.length + 2) (before ++ v :: name :: rest) = .ok rest := by
        simpa using Checked.drop_append (before ++ [v, name]) rest
      simp only [hname, hrest, Checked.ok_bind, Checked.pure_eq_ok]

theorem readCryptoMapAt_eq (u v map operand : String) (ws : List String) :
    readCryptoMapAt (u :: v :: map :: operand :: ws) = .ok (readCryptoMap operand ws) := by
  have hdrop : Checked.drop 3 (u :: v :: map :: operand :: ws) = .ok (operand :: ws) := rfl
  have hget : Checked.get 3 (u :: v :: map :: operand :: ws) = .ok operand := rfl
  have hrest : Checked.drop 4 (u :: v :: map :: operand :: ws) = .ok ws := rfl
  rw [readCryptoMapAt, hdrop, hget, hrest, Checked.ok_bind]
  fun_cases readCryptoMap operand ws with
  | case1 => rfl
  | case2 _ _ hbind sequence h =>
    split
    · next heq => cases heq; exact (hbind _ _ rfl rfl).elim
    · simp only [h, Checked.ok_bind, Checked.pure_eq_ok]
  | case3 _ _ hbind h =>
    split
    · next heq => cases heq; exact (hbind _ _ rfl rfl).elim
    · simp only [h, Checked.ok_bind, Checked.pure_eq_ok]

/-- **Every operand is in its place** on a line of its form. -/
theorem operandsAt_of_reads {l : Line} {ws : List String} {d : Directive} (hws : l.words = ws)
    (h : Directive.Reads l ws d) : operandsAt l (Kind.ofDirective d) = .ok d := by
  cases h with
  | accessList acl word rest =>
    have hacl : Checked.get 1 l.words = .ok acl := by rw [hws]; rfl
    rw [Kind.ofDirective, operandsAt, hacl, readAccessListAt_eq hws]
    rfl
  | nat word rest =>
    rw [Kind.ofDirective, operandsAt, hws, readNatAt_eq]
    rfl
  | staticNat word rest =>
    rw [Kind.ofDirective, operandsAt, hws, readStaticAt_eq]
    rfl
  | @transformSet w operands rest hrest =>
    have hcrypto : ("crypto" :: "ipsec" :: rest).dropWhile (· != "transform-set")
        = rest.dropWhile (· != "transform-set") := rfl
    rw [Kind.ofDirective, operandsAt, hws, readTransformSetAt_eq (hcrypto.trans hrest)]
    rfl
  | cryptoMap map operand rest =>
    have hmap : Checked.get 2 l.words = .ok map := by rw [hws]; rfl
    rw [Kind.ofDirective, operandsAt, hmap, hws, readCryptoMapAt_eq]
    rfl
  | clock key rest =>
    have hkey : Checked.get 1 l.words = .ok key := by rw [hws]; rfl
    rw [Kind.ofDirective, operandsAt, hkey, Text.textAfterAt_eq]
    rfl
  | _ =>
    obtain ⟨text, words, indented⟩ := l
    cases hws
    rfl

/-- The form of some words is that of the directive that is read from them. -/
theorem ofForm_eq (l : Line) (ws : List String) :
    Kind.ofForm ws = Kind.ofDirective (Directive.readWords l ws) := by
  fun_cases Directive.readWords l ws with
  | case16 rest w operands h =>
    have hmem : rest.contains "transform-set" = true := by
      refine List.contains_iff_mem.2 (by_contra fun hnone => ?_)
      have hempty : rest.dropWhile (· != "transform-set") = [] :=
        List.dropWhile_eq_nil_iff.2 fun v hv => bne_iff_ne.2 fun heq => hnone (heq ▸ hv)
      rw [hempty] at h
      cases h
    rw [Kind.ofForm, if_pos hmem]
    rfl
  | case17 rest h =>
    have hmem : ¬ rest.contains "transform-set" = true := fun hmem => by
      have hne := List.dropWhile_eq_nil_iff.1 h _ (List.contains_iff_mem.1 hmem)
      simp at hne
    rw [Kind.ofForm, if_neg hmem]
    rfl
  | case32 =>
    rw [Kind.ofForm]
    · rfl
    all_goals assumption
  | _ => rfl

/-- **What the first words of a line promise is there**: the kind of a line is that of its
directive, and its operands are in their places. -/
theorem operandsAt_eq (l : Line) :
    Kind.ofWords l.words = Kind.ofDirective (Directive.read l)
      ∧ operandsAt l (Kind.ofWords l.words) = .ok (Directive.read l) := by
  rw [Kind.ofWords, Directive.read]
  split
  · exact ⟨rfl, rfl⟩
  · rw [ofForm_eq l]
    exact ⟨rfl, operandsAt_of_reads rfl (Directive.reads_readWords l l.words)⟩

/-! ## Lines below a header -/

/-- Reads a line of a record, of which a description is the text behind its first word. -/
def describedLineAt {α : Type} (record : α) (l : Line) (describe : String → α)
    (line : α → Line → List String → α) : Checked α :=
  match l.words with
  | "description" :: _ => do return describe (← Text.textAfterAt 1 l.text)
  | words => .ok (line record l words)

/-- The ports of the destination, by the place of the word before them. -/
def destinationWordsAt (words : List String) : Checked (List String) :=
  match words.findIdx? (· == "destination") with
  | some place => Checked.drop (place + 1) words
  | none => .ok words

/-- A line of a service. -/
def serviceLineAt (s : ServiceObject) (l : Line) : Checked ServiceObject :=
  match l.words with
  | "service" :: protocol :: rest => do
    let ports ← destinationWordsAt rest
    return { s with protocol, port := (readPortsAt ports).map Prod.fst }
  | _ =>
    describedLineAt s l (fun text => { s with description := some text }) serviceLine

/-- A setting of the entry of a crypto map. -/
def tunnelLineAt (words : List String) (t : Tunnel) : Checked Tunnel :=
  match words with
  | "description" :: _ => do
    return { t with description := some (Text.unwords (← Checked.drop 1 words)) }
  | words => .ok (tunnelLine t words)

/-- A setting of a server. -/
def aaaServerLineAt (words : List String) (s : AaaServer) : Checked AaaServer :=
  match words with
  | "description" :: _ => do
    return { s with description := some (Text.unwords (← Checked.drop 1 words)) }
  | words => .ok (aaaServerLine s words)

/-- A setting of a group policy. -/
def groupPolicyLineAt (l : Line) (g : GroupPolicy) : Checked GroupPolicy :=
  match l.words with
  | "vpn-tunnel-protocol" :: _ => do
    return { g with vpnProtocols := some (← Text.textAfterAt 1 l.text) }
  | words => .ok (groupPolicyLine g l words)

theorem describedLineAt_eq {α : Type} {record : α} {l : Line} {describe : String → α}
    {line : α → Line → List String → α}
    (h : ∀ rest, line record l ("description" :: rest) = describe (l.after 1)) :
    describedLineAt record l describe line = .ok (line record l l.words) := by
  rw [describedLineAt]
  split
  · next rest _ =>
    rw [Text.textAfterAt_eq, ‹l.words = _›, h rest]
    rfl
  · rfl

theorem tunnelLineAt_eq (ws : List String) (t : Tunnel) :
    tunnelLineAt ws t = .ok (tunnelLine t ws) := by
  fun_cases tunnelLineAt ws t <;> rfl

theorem aaaServerLineAt_eq (ws : List String) (s : AaaServer) :
    aaaServerLineAt ws s = .ok (aaaServerLine s ws) := by
  fun_cases aaaServerLineAt ws s <;> rfl

theorem groupPolicyLineAt_eq (l : Line) (g : GroupPolicy) :
    groupPolicyLineAt l g = .ok (groupPolicyLine g l l.words) := by
  rw [groupPolicyLineAt]
  split
  · next h =>
    rw [Text.textAfterAt_eq, h]
    rfl
  · rfl

theorem destinationWordsAt_eq (ws : List String) :
    destinationWordsAt ws = .ok (destinationWords ws) := by
  rw [destinationWordsAt, destinationWords]
  rcases Checked.find_cases (· == "destination") ws with h | ⟨before, w, behind, rfl, hbefore, hw⟩
  · have hnone : ws.dropWhile (· != "destination") = [] :=
      Checked.dropWhile_of_forall h
    rw [List.findIdx?_eq_none_iff.2 h, hnone]
  · have hfound : (before ++ w :: behind).dropWhile (· != "destination") = w :: behind :=
      Checked.dropWhile_found hbefore hw behind
    rw [Checked.findIdx?_found hbefore hw, hfound]
    exact Checked.drop_append_cons before w behind

theorem serviceLineAt_eq (s : ServiceObject) (l : Line) :
    serviceLineAt s l = .ok (serviceLine s l l.words) := by
  rw [serviceLineAt]
  split
  · next protocol rest h =>
    have hports (ws : List String) :
        (readPortsAt ws).map Prod.fst = (readPorts ws).map Prod.fst := by
      rcases counted_cases (drop_readPortsAt ws) with ⟨h, h'⟩ | ⟨_, _, _, h, h', -⟩
      · rw [h, h']
        rfl
      · rw [h, h']
        rfl
    rw [destinationWordsAt_eq, Checked.ok_bind, hports, h]
    rfl
  · exact describedLineAt_eq fun _ => rfl

/-! ## Lines in any place -/

namespace Reading

/-- Gives the entry of a crypto map one setting. -/
def setTunnelAt (r : Reading) (map : String) (sequence : UInt32) (setting : List String) :
    Checked Reading := do
  let tunnels ←
    Checked.amend (fun t => t.name == map && t.sequence == some sequence)
      { name := map, sequence := some sequence } (tunnelLineAt setting) r.config.vpn.tunnels
  return r.amendVpn fun v => { v with tunnels }

/-- Changes the server of a name. -/
def amendServerAt (r : Reading) (name : String) (f : AaaServer → Checked AaaServer) :
    Checked Reading := do
  let aaaServers ← Checked.amend (·.name == name) { name } f r.config.aaaServers
  return r.amend fun c => { c with aaaServers }

/-- Changes the group policy of a name. -/
def amendGroupPolicyAt (r : Reading) (name : String) (f : GroupPolicy → Checked GroupPolicy) :
    Checked Reading := do
  let groupPolicies ← Checked.amend (·.name == name) { name } f r.config.vpn.groupPolicies
  return r.amendVpn fun v => { v with groupPolicies }

/-- Changes the tunnel group of a name. -/
def amendTunnelGroupAt (r : Reading) (name : String) (f : TunnelGroup → Checked TunnelGroup) :
    Checked Reading := do
  let tunnelGroups ← Checked.amend (·.name == name) { name } f r.config.vpn.tunnelGroups
  return r.amendVpn fun v => { v with tunnelGroups }

/-- Reads a line that belongs to a block. -/
def blockLineAt (r : Reading) (b : Block) (l : Line) : Checked Reading :=
  match b with
  | .interface i => do
    return r.openBlock <| .interface <|
      ← describedLineAt i l (fun text => { i with comment := some text }) interfaceLine
  | .object o =>
    match l.words with
    | "nat" :: _ => do return r.addNat (← readNatAt (some o.name) l.words)
    | _ => do
      return r.openBlock <| .object <|
        ← describedLineAt o l (fun text => { o with description := some text }) objectLine
  | .service s => do return r.openBlock (.service (← serviceLineAt s l))
  | .group g => do
    return r.openBlock <| .group <|
      ← describedLineAt g l (fun text => { g with description := some text }) groupLine
  | .ikePolicy p => .ok (r.openBlock (.ikePolicy (ikeLine p l.words)))
  | .profile p => .ok (r.openBlock (.profile { p with lines := p.lines ++ [l.text] }))
  | .cryptoMap map sequence => r.setTunnelAt map sequence l.words
  | .aaaServer name => r.amendServerAt name (aaaServerLineAt l.words)
  | .groupPolicy name => r.amendGroupPolicyAt name (groupPolicyLineAt l)
  | .tunnelGroup name => r.amendTunnelGroupAt name fun g => .ok (tunnelGroupLine g l.words)
  | .skip => .ok r

/-- Takes in a line about a crypto map. -/
def applyCryptoMapAt (r : Reading) (map : String) : CryptoMapLine → Checked Reading
  | .bind interface => .ok { r with mapInterfaces := r.mapInterfaces ++ [(map, interface)] }
  | .entry sequence [] => do
    return (← r.setTunnelAt map sequence []).openBlock (.cryptoMap map sequence)
  | .entry sequence ("ipsec-isakmp" :: _) => do
    return (← r.setTunnelAt map sequence []).openBlock (.cryptoMap map sequence)
  | .entry sequence setting => r.setTunnelAt map sequence setting
  | .unreadable => .ok r

/-- Takes in a line about a group policy. -/
def applyGroupPolicyAt (r : Reading) (name kind : String) : Checked Reading :=
  if kind == "attributes" then do
    return (← r.amendGroupPolicyAt name .ok).openBlock (.groupPolicy name)
  else r.amendGroupPolicyAt name fun g => .ok { g with kind := some kind }

/-- Takes in a line about a tunnel group. -/
def applyTunnelGroupAt (r : Reading) (name : String) : List String → Checked Reading
  | "type" :: kind :: _ => r.amendTunnelGroupAt name fun g => .ok { g with kind := some kind }
  | "general-attributes" :: _ | "ipsec-attributes" :: _ => do
    return (← r.amendTunnelGroupAt name .ok).openBlock (.tunnelGroup name)
  | _ => r.amendTunnelGroupAt name .ok

/-- Takes in a directive, with no block open. -/
def applyAt (r : Reading) : Directive → Checked Reading
  | .cryptoMap map line => r.applyCryptoMapAt map line
  | .groupPolicy name kind => r.applyGroupPolicyAt name kind
  | .tunnelGroup name operands => r.applyTunnelGroupAt name operands
  | d => .ok (r.apply d)

/-- Takes in a line of a kind at the top level. -/
def topLevelAt (r : Reading) (l : Line) (k : Kind) : Checked Reading := do
  r.applyAt (← operandsAt l k)

/-- Takes in a line of a kind that is not blank and not a bang. -/
def lineStepAt (r : Reading) (l : Line) (k : Kind) : Checked Reading :=
  -- what the product does not have is skipped with its block, but it is no line of another block
  let kind := if Kind.isOf r.flavor k then k else .other
  match r.block with
  | some b =>
    if l.indented || k == .other then r.blockLineAt b l else r.closeBlock.topLevelAt l kind
  | none => if l.indented then .ok r else r.topLevelAt l kind

/-- Takes in a line. -/
def stepAt (r : Reading) (raw : String) : Checked Reading :=
  let l := Line.ofText raw
  if l.text.isEmpty then .ok r
  else
    match Kind.ofWords l.words with
    | .bang => .ok r.closeBlock
    | k => r.lineStepAt l k

section Equations

variable (r : Reading) (name : String)

theorem setTunnelAt_eq (map : String) (sequence : UInt32) (setting : List String) :
    r.setTunnelAt map sequence setting = .ok (r.setTunnel map sequence setting) := by
  rw [setTunnelAt, Checked.amend_eq _ _ (tunnelLineAt_eq setting)]
  rfl

theorem amendServerAt_eq {f : AaaServer → AaaServer} {g : AaaServer → Checked AaaServer}
    (h : ∀ s, g s = .ok (f s)) : r.amendServerAt name g = .ok (r.amendServer name f) := by
  rw [amendServerAt, Checked.amend_eq _ _ h]
  rfl

theorem amendGroupPolicyAt_eq {f : GroupPolicy → GroupPolicy} {g : GroupPolicy → Checked GroupPolicy}
    (h : ∀ p, g p = .ok (f p)) :
    r.amendGroupPolicyAt name g = .ok (r.amendVpn (Vpn.amendGroupPolicy name f)) := by
  rw [amendGroupPolicyAt, Checked.amend_eq _ _ h]
  rfl

theorem amendTunnelGroupAt_eq {f : TunnelGroup → TunnelGroup} {g : TunnelGroup → Checked TunnelGroup}
    (h : ∀ p, g p = .ok (f p)) :
    r.amendTunnelGroupAt name g = .ok (r.amendVpn (Vpn.amendTunnelGroup name f)) := by
  rw [amendTunnelGroupAt, Checked.amend_eq _ _ h]
  rfl

/-- **A line of a block is read by its places**, in a block of any kind. -/
theorem blockLineAt_eq (b : Block) (l : Line) : r.blockLineAt b l = .ok (r.blockLine b l) := by
  fun_cases blockLine r b l with
  | case1 i =>
    rw [blockLineAt, describedLineAt_eq fun _ => rfl]
    rfl
  | case2 o operands h =>
    rw [blockLineAt, h, readNatAt_eq]
    rfl
  | case3 o hnat =>
    rw [blockLineAt]
    split
    · next h => exact (hnat _ h).elim
    · rw [describedLineAt_eq fun _ => rfl]
      rfl
  | case4 s =>
    rw [blockLineAt, serviceLineAt_eq]
    rfl
  | case5 g =>
    rw [blockLineAt, describedLineAt_eq fun _ => rfl]
    rfl
  | case6 | case7 | case12 => rfl
  | case8 map sequence => exact r.setTunnelAt_eq map sequence l.words
  | case9 name => exact r.amendServerAt_eq name (aaaServerLineAt_eq l.words)
  | case10 name => exact r.amendGroupPolicyAt_eq name (groupPolicyLineAt_eq l)
  | case11 name => exact r.amendTunnelGroupAt_eq name fun _ => rfl

theorem applyCryptoMapAt_eq (map : String) (line : CryptoMapLine) :
    r.applyCryptoMapAt map line = .ok (r.applyCryptoMap map line) := by
  fun_cases applyCryptoMap r map line with
  | case1 | case5 => rfl
  | case2 | case3 =>
    rw [applyCryptoMapAt, setTunnelAt_eq]
    rfl
  | case4 =>
    rw [applyCryptoMapAt]
    · exact r.setTunnelAt_eq ..
    all_goals assumption

theorem applyGroupPolicyAt_eq (kind : String) :
    r.applyGroupPolicyAt name kind = .ok (r.applyGroupPolicy name kind) := by
  rw [applyGroupPolicyAt, applyGroupPolicy]
  split
  · have hkept : r.amendGroupPolicyAt name .ok = .ok (r.amendVpn (Vpn.amendGroupPolicy name id)) :=
      r.amendGroupPolicyAt_eq name fun _ => rfl
    rw [hkept]
    rfl
  · exact r.amendGroupPolicyAt_eq name fun _ => rfl

theorem applyTunnelGroupAt_eq (operands : List String) :
    r.applyTunnelGroupAt name operands = .ok (r.applyTunnelGroup name operands) := by
  have hkept : r.amendTunnelGroupAt name .ok = .ok (r.amendVpn (Vpn.amendTunnelGroup name id)) :=
    r.amendTunnelGroupAt_eq name fun _ => rfl
  fun_cases applyTunnelGroup r name operands with
  | case1 => exact r.amendTunnelGroupAt_eq name fun _ => rfl
  | case2 | case3 =>
    rw [applyTunnelGroupAt, hkept]
    rfl
  | case4 =>
    rw [applyTunnelGroupAt]
    · exact hkept
    all_goals assumption

theorem applyAt_eq (d : Directive) : r.applyAt d = .ok (r.apply d) := by
  cases d with
  | cryptoMap map line => exact r.applyCryptoMapAt_eq map line
  | groupPolicy name kind => exact r.applyGroupPolicyAt_eq name kind
  | tunnelGroup name operands => exact r.applyTunnelGroupAt_eq name operands
  | _ => rfl

theorem lineStepAt_eq {l : Line} {d : Directive} (h : operandsAt l (Kind.ofDirective d) = .ok d) :
    r.lineStepAt l (Kind.ofDirective d) = .ok (r.lineStep l d) := by
  have htop (r' : Reading) :
      r'.topLevelAt l (if Kind.isOf r.flavor (Kind.ofDirective d) then Kind.ofDirective d else .other)
        = .ok (r'.apply (if r.flavor.enables d then d else .other)) := by
    rw [Kind.isOf_ofDirective, topLevelAt]
    split
    · rw [h, Checked.ok_bind, applyAt_eq]
    · exact r'.applyAt_eq .other
  rw [lineStepAt, lineStep, Kind.ofDirective_beq_other]
  cases r.block with
  | some b =>
    simp only [htop, blockLineAt_eq]
    split <;> rfl
  | none =>
    simp only [htop]
    split <;> rfl

/-- **Every line is read by its places**, whatever has been read before it. -/
theorem stepAt_eq (raw : String) : r.stepAt raw = .ok (r.step raw) := by
  obtain ⟨hkind, hoperands⟩ := operandsAt_eq (Line.ofText raw)
  rw [hkind] at hoperands
  rw [stepAt, step, hkind]
  by_cases hempty : (Line.ofText raw).text.isEmpty = true
  · rw [if_pos hempty, if_pos hempty]
  · rw [if_neg hempty, if_neg hempty]
    by_cases hbang : Directive.read (Line.ofText raw) = .bang
    · rw [hbang]
      rfl
    · have hkind : Kind.ofDirective (Directive.read (Line.ofText raw)) ≠ .bang :=
        fun h => hbang (Kind.eq_bang_of_ofDirective h)
      split
      · next h => exact (hkind h).elim
      · split
        · next h => exact (hbang h).elim
        · exact r.lineStepAt_eq hoperands

theorem run_stepAt (lines : List String) : lines.foldlM stepAt r = .ok (r.run lines) :=
  Checked.foldlM_eq stepAt_eq r lines

end Equations

end Reading

/-- Reads a configuration, line by line and by places. -/
def readAt (flavor : Flavor) (text : String) : Checked Config := do
  return (← (Text.lines text).foldlM Reading.stepAt (Reading.start flavor)).finish

/-- **No place is missed on any line of any text.** -/
theorem readAt_eq (flavor : Flavor) (text : String) : readAt flavor text = .ok (read flavor text) := by
  rw [readAt, Reading.run_stepAt]
  rfl

end FirewallConfig.Cisco
