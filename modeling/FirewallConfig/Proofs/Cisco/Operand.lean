import FirewallConfig.Cisco.AccessList
import FirewallConfig.Cisco.Writer.Access
import FirewallConfig.Proofs.Address.Endpoint
import FirewallConfig.Proofs.Service.ServiceRef

/-!
# Proofs/Cisco/Operand — the operands of an entry are read back

Each operand is read off the front of the words of an entry, whatever follows it.  So an entry that
is written is read as one rule with one source, one destination and one service
(`readEntry_written`), which mean what they meant before.
-/

namespace FirewallConfig.Cisco

open Text

/-! ## Addresses -/

/-- The words in front are the endpoint, and no test on a port. -/
structure ReadsAddress (ws : List String) (endpoint : String) : Prop where
  address (rest : List String) : readAddress (ws ++ rest) = some (endpoint, rest)
  ports (rest : List String) : readPorts (ws ++ rest) = none

theorem readsAddress_any : ReadsAddress [anyText] anyText := ⟨fun _ => rfl, fun _ => rfl⟩

theorem readsAddress_host (address : String) : ReadsAddress ["host", address] address :=
  ⟨fun _ => rfl, fun _ => rfl⟩

theorem readsAddress_object (name : String) : ReadsAddress ["object", name] name :=
  ⟨fun _ => rfl, fun _ => rfl⟩

theorem readsAddress_objectGroup (name : String) : ReadsAddress ["object-group", name] name :=
  ⟨fun _ => rfl, fun _ => rfl⟩

theorem readsAddress_network {address mask : String} (ha : isIPv4 address = true)
    (hm : isIPv4 mask = true) :
    ReadsAddress [address, mask]
      (if mask == Netmask.single then address else (Network.mk address mask).cidr) where
  address rest := by
    unfold readAddress
    split
    case h_9 heq =>
      cases heq
      exact if_pos (by rw [ha, hm]; rfl)
    case h_8 heq => cases heq
    -- An address is none of the keywords.
    all_goals
      next heq =>
        cases heq
        exact absurd ha (by decide)
  ports rest := by
    unfold readPorts
    split
    case h_5 => rfl
    all_goals
      next heq =>
        cases heq
        exact absurd ha (by decide)

theorem readsAddress_hostText {address : String} (ha : isIPv4 address = true) :
    ReadsAddress (words ("host " ++ address)) address := by
  have hwords : words ("host " ++ address) = ["host", address] :=
    words_pair (s := "host") (by decide) (isWord_of_isIPv4 ha)
  rw [hwords]
  exact readsAddress_host address

theorem words_objectText {name : String} (hname : IsWord name) :
    words ("object " ++ name) = ["object", name] := words_pair (s := "object") (by decide) hname

theorem readsAddress_objectText {name : String} (hname : IsWord name) :
    ReadsAddress (words ("object " ++ name)) name := by
  rw [words_objectText hname]
  exact readsAddress_object name

theorem readsAddress_objectGroupText {name : String} (hname : IsWord name) :
    ReadsAddress (words ("object-group " ++ name)) name := by
  have hwords : words ("object-group " ++ name) = ["object-group", name] :=
    words_pair (s := "object-group") (by decide) hname
  rw [hwords]
  exact readsAddress_objectGroup name

theorem readsAddress_networkText {address mask : String} (ha : isIPv4 address = true)
    (hm : isIPv4 mask = true) :
    ReadsAddress (words (address ++ " " ++ mask))
      (if mask == Netmask.single then address else (Network.mk address mask).cidr) := by
  rw [words_pair (isWord_of_isIPv4 ha) (isWord_of_isIPv4 hm)]
  exact readsAddress_network ha hm

/-- **The operand of an endpoint is read as an endpoint of the same meaning.** -/
theorem readsAddress_addressOperand (c : Config) {s : String}
    (h : (Endpoint.classify s).IsSpelled) :
    ReadsAddress (words (addressOperand c s)) (Endpoint.classify s).canonical.text := by
  have hspec := Endpoint.classify_spec s
  have hany : ReadsAddress (words anyText) anyText := readsAddress_any
  cases hc : Endpoint.classify s with
  | any =>
    rw [addressOperand, hc]
    exact hany
  | host address =>
    rw [hc] at hspec
    rw [addressOperand, hc]
    exact readsAddress_hostText hspec
  | network n =>
    rw [hc] at hspec h
    have haddress : isIPv4 n.address = true := hspec
    have hmask : isIPv4 n.mask = true := h
    rw [addressOperand, hc, Endpoint.canonical]
    dsimp only
    by_cases heverything : n.mask = Netmask.everything
    · rw [if_pos heverything, if_pos (beq_iff_eq.2 heverything)]
      exact hany
    · rw [if_neg heverything, if_neg (mt beq_iff_eq.1 heverything)]
      by_cases hsingle : n.mask = Netmask.single
      · rw [if_pos hsingle, if_pos (beq_iff_eq.2 hsingle)]
        exact readsAddress_hostText haddress
      · rw [if_neg hsingle, if_neg (mt beq_iff_eq.1 hsingle)]
        have hreads := readsAddress_networkText haddress hmask
        rwa [if_neg (mt beq_iff_eq.1 hsingle)] at hreads
  | named name =>
    rw [hc] at h
    rw [addressOperand, hc]
    dsimp only
    split
    · exact readsAddress_objectGroupText h
    · exact readsAddress_objectText h

/-! ## Ports -/

/-- A numeral is no keyword for a port. -/
theorem portNumber_eq {port : String} (h : IsNumeral port) : portNumber port = port := by
  have hall := h.2
  rw [← h.lower_eq] at hall
  unfold portNumber
  split
  case h_19 => rfl
  all_goals
    next heq =>
      rw [heq] at hall
      exact absurd (List.all_eq_true.2 hall) (by decide)

/-- The words in front are the ports. -/
def ReadsPorts (ws : List String) (ports : String) : Prop :=
  ∀ rest, readPorts (ws ++ rest) = some (ports, rest)

theorem readsPorts_eq {p : String} (hp : IsNumeral p) : ReadsPorts ["eq", p] p := fun rest => by
  have h : readPorts (["eq", p] ++ rest) = some (portNumber p, rest) := rfl
  rw [h, portNumber_eq hp]

theorem readsPorts_range {a b : String} (ha : IsNumeral a) (hb : IsNumeral b) :
    ReadsPorts ["range", a, b] (a ++ "-" ++ b) := fun rest => by
  have h : readPorts (["range", a, b] ++ rest)
      = some (portNumber a ++ "-" ++ portNumber b, rest) := rfl
  rw [h, portNumber_eq ha, portNumber_eq hb]

/-- **The test on a port is read as that port.** -/
theorem readsPorts_portTest {ports : String} (h : IsPorts ports) :
    ReadsPorts (words (portTest ports)) ports := by
  cases h with
  | port hp =>
    have htest : portTest ports = "eq " ++ ports := by
      rw [portTest, cut_eq_none (hp.not_mem (by decide))]
      rfl
    have hwords : words ("eq " ++ ports) = ["eq", ports] :=
      words_pair (s := "eq") (by decide) hp.isWord
    rw [htest, hwords]
    exact readsPorts_eq hp
  | @range a b ha hb =>
    have hcut : Text.cut '-' (a ++ "-" ++ b) = some (a, b) :=
      cut_append (ha.not_mem (by decide)) b
    have htest : portTest (a ++ "-" ++ b) = "range" ++ " " ++ a ++ " " ++ b := by
      rw [portTest, hcut]
      rfl
    have hwords : words ("range" ++ " " ++ a ++ " " ++ b) = ["range", a, b] := by
      rw [words_append, words_pair (by decide) ha.isWord, hb.isWord.words_eq]
      rfl
    rw [htest, hwords]
    exact readsPorts_range ha hb

/-- The words that test a port against numbers of 16 bits. -/
inductive IsPortTest : List String → Prop
  | eq {p : String} (hp : (readUInt16 p).isSome) : IsPortTest ["eq", p]
  | range {a b : String} (ha : (readUInt16 a).isSome) (hb : (readUInt16 b).isSome) :
    IsPortTest ["range", a, b]
  | gt {p : String} (hp : (readUInt16 p).isSome) : IsPortTest ["gt", p]
  | lt {p : String} (hp : (readUInt16 p).isSome) : IsPortTest ["lt", p]

theorem isNumeral_of_readUInt16 {p : String} (hp : (readUInt16 p).isSome) : IsNumeral p := by
  obtain ⟨n, hn⟩ := Option.isSome_iff_exists.1 hp
  obtain ⟨k, hk, -⟩ := Option.map_eq_some_iff.1 hn
  exact isNumeral_of_numeralBelow hk

/-- **A test on a port is read as a port or a range of ports in numerals.** -/
theorem IsPortTest.readsPorts {ws : List String} (h : IsPortTest ws) :
    ∃ ports, IsPorts ports ∧ ReadsPorts ws ports := by
  have hnumber {p : String} (hp : (readUInt16 p).isSome) :
      ∃ n, readPortNumber p = some n := by
    rw [readPortNumber, portNumber_eq (isNumeral_of_readUInt16 hp)]
    exact Option.isSome_iff_exists.1 hp
  cases h with
  | @eq p hp =>
    have hp := isNumeral_of_readUInt16 hp
    exact ⟨p, .port hp, readsPorts_eq hp⟩
  | @range a b ha hb =>
    have ha := isNumeral_of_readUInt16 ha
    have hb := isNumeral_of_readUInt16 hb
    exact ⟨a ++ "-" ++ b, .range ha hb, readsPorts_range ha hb⟩
  | @gt p hp =>
    obtain ⟨n, hn⟩ := hnumber hp
    refine ⟨toString (min (n.toNat + 1) 65535) ++ "-" ++ toString 65535,
      .range (isNumeral_toString _) (isNumeral_toString _), fun rest => ?_⟩
    have h : readPorts (["gt", p] ++ rest)
        = (readPortNumber p).map fun p => (s!"{min (p.toNat + 1) 65535}-65535", rest) := rfl
    rw [h, hn, String.append_assoc]
    rfl
  | @lt p hp =>
    obtain ⟨n, hn⟩ := hnumber hp
    refine ⟨toString 1 ++ "-" ++ toString (n.toNat - 1),
      .range (isNumeral_toString _) (isNumeral_toString _), fun rest => ?_⟩
    have h : readPorts (["lt", p] ++ rest)
        = (readPortNumber p).map fun p => (s!"1-{p.toNat - 1}", rest) := rfl
    rw [h, hn]
    rfl

/-! ## Services -/

/-- The service of an entry that has no ports: the protocol itself, where it is one that has ports
or messages to tell apart. -/
def bareService (protocol : String) : List String :=
  if ["tcp", "udp", "icmp"].contains protocol then [protocol] else []

/-- The protocol and the services of the rule that an entry is read as.  `protocol` is that of the
rule that the entry was written for. -/
def entryService (protocol : String) : ServiceRef → String × List String
  | .any =>
    let protocol := if restrictingProtocols.contains protocol then protocol else "ip"
    (protocol, bareService protocol)
  | .protocol name => (name, bareService name)
  | .port name ports => (name, [name ++ "/" ++ ports])
  | .named name => ("ip", [name])

/-- The service can be written as words: its ports are numerals, and its name is one word. -/
def IsPlainService : ServiceRef → Prop
  | .any => True
  | .protocol name => name ∈ ServiceRef.protocols
  | .port name ports => name ∈ ServiceRef.protocols ∧ IsPorts ports
  | .named name => IsWord name

/-- The words are flags of an entry. -/
def IsFlags (flags : List String) : Prop := ∀ f ∈ flags, f = "log" ∨ f = "inactive"

theorem readPorts_flags {flags : List String} (h : IsFlags flags) : readPorts flags = none := by
  cases flags with
  | nil => rfl
  | cons f flags => rcases h f List.mem_cons_self with rfl | rfl <;> rfl

theorem readEntryService_flags (protocol : String) {flags : List String} (h : IsFlags flags) :
    readEntryService protocol [] flags = (bareService protocol, flags) := by
  unfold readEntryService
  rw [readPorts_flags h]
  cases flags with
  | nil => rfl
  | cons f flags => rcases h f List.mem_cons_self with rfl | rfl <;> rfl

theorem readEntryService_named (protocol name : String) {flags : List String} (h : IsFlags flags) :
    readEntryService protocol [name] flags = ([name], flags) := by
  unfold readEntryService
  rw [readPorts_flags h]
  cases flags with
  | nil => rfl
  | cons f flags => rcases h f List.mem_cons_self with rfl | rfl <;> rfl

theorem readEntryService_ports (protocol : String) {ws : List String} {ports : String}
    (hports : ReadsPorts ws ports) (flags : List String) :
    readEntryService protocol [] (ws ++ flags) = ([protocol ++ "/" ++ ports], flags) := by
  unfold readEntryService
  rw [hports flags]
  rfl

/-! ## Entries -/

/-- The rule of an entry with given services and flags. -/
def ruleOf (action : Action) (protocol source destination : String)
    (service flags : List String) : Policy where
  action := action
  protocol := protocol
  source := [source]
  destination := [destination]
  service := service
  log := flags.contains "log"
  enabled := !flags.contains "inactive"

theorem readEntryOperands_eq {source destination : List String} {s d : String}
    (hs : ReadsAddress source s) (hd : ReadsAddress destination d) (action : Action)
    (protocol : String) (named rest : List String) :
    readEntryOperands action protocol named (source ++ (destination ++ rest))
      = some (ruleOf action protocol s d (readEntryService protocol named rest).1
          (readEntryService protocol named rest).2) := by
  have hskip : skipPorts (destination ++ rest) = destination ++ rest := by
    rw [skipPorts, hd.ports]
  rw [readEntryOperands, hs.address]
  dsimp only
  rw [hskip, hd.address]
  rfl

theorem readEntry_protocol (action : Action) {protocol : String}
    (h : protocol ∈ ServiceRef.protocols) (ws : List String) :
    readEntry (action.text :: protocol :: ws) = readEntryOperands action protocol [] ws := by
  simp only [ServiceRef.protocols, List.mem_cons, List.not_mem_nil, or_false] at h
  rcases h with rfl | rfl | rfl | rfl | rfl | rfl <;> cases action <;> rfl

theorem readEntry_object (action : Action) (name : String) (ws : List String) :
    readEntry (action.text :: "object" :: name :: ws)
      = readEntryOperands action "ip" [name] ws := by
  cases action <;> rfl

/-- Where a rule may restrict every service to a protocol, that is the protocol it is written with. -/
theorem mem_protocols_literalOperands_any (protocol : String) :
    (literalOperands protocol .any).1 ∈ ServiceRef.protocols := by
  rw [literalOperands]
  dsimp only
  split
  · next h =>
    have hsubset : restrictingProtocols ⊆ ServiceRef.protocols := by decide
    exact hsubset (List.contains_iff_mem.1 h)
  · decide

theorem words_of_mem_protocols {protocol : String} (h : protocol ∈ ServiceRef.protocols) :
    words protocol = [protocol] := by
  simp only [ServiceRef.protocols, List.mem_cons, List.not_mem_nil, or_false] at h
  rcases h with rfl | rfl | rfl | rfl | rfl | rfl <;> rfl

/-- **The operands of a service are read as a service of the same meaning.** -/
theorem readEntry_literalOperands (action : Action) {source destination flags : List String}
    {s d : String} (hs : ReadsAddress source s) (hd : ReadsAddress destination d)
    (hflags : IsFlags flags) (protocol : String) {ref : ServiceRef} (href : IsPlainService ref) :
    readEntry (action.text :: (words (literalOperands protocol ref).1
        ++ (source ++ (destination
          ++ ((literalOperands protocol ref).2.toList.flatMap words ++ flags)))))
      = some (ruleOf action (entryService protocol ref).1 s d (entryService protocol ref).2
          flags) := by
  have hbare {p : String} (hp : p ∈ ServiceRef.protocols) :
      readEntry (action.text :: (words p ++ (source ++ (destination ++ flags))))
        = some (ruleOf action p s d (bareService p) flags) := by
    rw [words_of_mem_protocols hp, List.singleton_append, readEntry_protocol action hp,
      readEntryOperands_eq hs hd, readEntryService_flags p hflags]
  cases ref with
  | any => exact hbare (mem_protocols_literalOperands_any protocol)
  | protocol name => exact hbare href
  | port name ports =>
    obtain ⟨hname, hports⟩ := href
    have hreads := readsPorts_portTest hports
    have hwords : (some (portTest ports)).toList.flatMap words = words (portTest ports) :=
      List.append_nil _
    rw [literalOperands, hwords, words_of_mem_protocols hname, List.singleton_append,
      readEntry_protocol action hname, readEntryOperands_eq hs hd,
      readEntryService_ports name hreads]
    rfl
  | named name =>
    have hline : action.text :: (words ("object " ++ name)
        ++ (source ++ (destination ++ ([] ++ flags))))
        = action.text :: "object" :: name :: (source ++ (destination ++ flags)) := by
      rw [words_objectText href]
      rfl
    refine (congrArg readEntry hline).trans ?_
    rw [readEntry_object, readEntryOperands_eq hs hd, readEntryService_named "ip" name hflags]
    rfl

end FirewallConfig.Cisco
