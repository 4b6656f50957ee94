import FirewallConfig.Proofs.Cisco.Access
import FirewallConfig.Proofs.Cisco.Operand
import FirewallConfig.Proofs.Keyed
import FirewallConfig.Proofs.Service.PortList
import FirewallConfig.Proofs.Service.Traffic

/-!
# Proofs/Cisco/PortTests — what becomes of the tests on the ports of an entry

An entry may test the source port and the destination port.  A rule has no source port, so a test on
it that can be read is passed over, and one that cannot be read makes the entry no entry.  A test on
the destination port that can be read is the service of the rule, and lets through only ports that
pass it (`portSet_subset_passes`), but for a test for more than the last port, which is read as that
port.  One that cannot be read is passed over like any word behind the operands, which leaves all of
the protocol.  `step_portEntry` says it for every line that is such an entry.
-/

namespace FirewallConfig

/-! ## Ports in numerals -/

namespace Text

variable {p a b : String} {m n : UInt16}

theorem portSet_eq_of_isPorts {ports : String} (h : IsPorts ports)
    (hrange : portRange? ports = some (m, n)) : portSet ports = {x | m ≤ x ∧ x ≤ n} := by
  have hcomma : ',' ∉ ports.toList := h.not_mem (by decide) (by decide)
  have hranges : portRanges ports = [(m, n)] := by
    rw [portRanges, pieces_eq_singleton hcomma]
    simp [h.isWord.trim_eq, hrange]
  ext x
  simp [portSet, hranges]

/-- A numeral means its number. -/
theorem portSet_numeral (h : readUInt16 p = some n) : portSet p = {n} := by
  have hp : IsNumeral p := Cisco.isNumeral_of_readUInt16 (Option.isSome_of_eq_some h)
  have hends : rangeEnds p = (p, p) := by
    rw [rangeEnds, cut_eq_none (hp.not_mem (by decide))]
    rfl
  rw [portSet_eq_of_isPorts (.port hp) (by rw [portRange?, hends, h])]
  ext x
  exact ⟨fun hx => UInt16.le_antisymm hx.2 hx.1, fun hx => by simp_all⟩

/-- Two numerals with a dash mean what lies between their numbers. -/
theorem portSet_range (ha : readUInt16 a = some m) (hb : readUInt16 b = some n) :
    portSet (a ++ "-" ++ b) = {x | m ≤ x ∧ x ≤ n} := by
  have hna : IsNumeral a := Cisco.isNumeral_of_readUInt16 (Option.isSome_of_eq_some ha)
  have hnb : IsNumeral b := Cisco.isNumeral_of_readUInt16 (Option.isSome_of_eq_some hb)
  have hends : rangeEnds (a ++ "-" ++ b) = (a, b) := by
    have hcut : Text.cut '-' (a ++ "-" ++ b) = some (a, b) :=
      cut_append (hna.not_mem (by decide)) b
    rw [rangeEnds, hcut]
    rfl
  exact portSet_eq_of_isPorts (.range hna hnb) (by rw [portRange?, hends, ha, hb])

theorem portSet_toString_range {k l : Nat} (hk : k < UInt16.size) (hl : l < UInt16.size) :
    portSet (toString k ++ "-" ++ toString l) = {x | k ≤ x.toNat ∧ x.toNat ≤ l} := by
  have hread {k : Nat} (h : k < UInt16.size) : readUInt16 (toString k) = some (UInt16.ofNat k) := by
    rw [readUInt16, numeralBelow_toString h, Option.map_some]
  rw [portSet_range (hread hk) (hread hl)]
  ext x
  simp only [Set.mem_ofPred_eq, UInt16.le_iff_toNat_le, UInt16.toNat_ofNat_of_lt' hk,
    UInt16.toNat_ofNat_of_lt' hl]

end Text

namespace Cisco

open Text

/-! ## Tests -/

/-- A test on a port, as an entry spells it. -/
inductive PortTest where
  | eq (port : String)
  | neq (port : String)
  | gt (port : String)
  | lt (port : String)
  | range (first last : String)

namespace PortTest

/-- The words of a test. -/
def words : PortTest → List String
  | .eq port => ["eq", port]
  | .neq port => ["neq", port]
  | .gt port => ["gt", port]
  | .lt port => ["lt", port]
  | .range first last => ["range", first, last]

/-- What the test compares with are ports: numbers of 16 bits, or keywords for them. -/
def NamesPorts : PortTest → Prop
  | .eq port | .neq port | .gt port | .lt port => ∃ n, readPortNumber port = some n
  | .range first last =>
    (∃ m, readPortNumber first = some m) ∧ ∃ n, readPortNumber last = some n

/-- The ports that pass the test. -/
def passes : PortTest → Set UInt16
  | .eq port => {x | readPortNumber port = some x}
  | .neq port => {x | ∃ n, readPortNumber port = some n ∧ x ≠ n}
  | .gt port => {x | ∃ n, readPortNumber port = some n ∧ n < x}
  | .lt port => {x | ∃ n, readPortNumber port = some n ∧ x < n}
  | .range first last =>
    {x | ∃ m n, readPortNumber first = some m ∧ readPortNumber last = some n ∧ m ≤ x ∧ x ≤ n}

/-- The ports that stand for a test in a service, if it can be read. -/
def ports? : PortTest → Option String
  | .eq port => some (portNumber port)
  | .neq _ => none
  | .gt port => (readPortNumber port).map fun n => s!"{min (n.toNat + 1) 65535}-65535"
  | .lt port => (readPortNumber port).map fun n => s!"1-{n.toNat - 1}"
  | .range first last => some s!"{portNumber first}-{portNumber last}"

/-- The test is for more than the last port. -/
def IsBeyond : PortTest → Prop
  | .gt port => readPortNumber port = some 65535
  | _ => False

theorem IsBeyond.namesPorts {t : PortTest} (h : t.IsBeyond) :
    t.NamesPorts ∧ ∃ ports, t.ports? = some ports := by
  cases t with
  | gt port =>
    refine ⟨⟨65535, h⟩, Option.isSome_iff_exists.1 ?_⟩
    rw [ports?, show readPortNumber port = some 65535 from h]
    rfl
  | eq | neq | lt | range => exact h.elim

/-- A test cannot be read if it is for another port, or compares with what is no port. -/
theorem ports?_eq_none_iff {t : PortTest} :
    t.ports? = none
      ↔ (∃ port, t = .neq port)
        ∨ ∃ port, (t = .gt port ∨ t = .lt port) ∧ readPortNumber port = none := by
  cases t <;> simp [ports?]

/-- A test is read off the front of the words. -/
theorem readPorts_words (t : PortTest) (rest : List String) :
    readPorts (t.words ++ rest) = t.ports?.map fun ports => (ports, rest) := by
  cases t with
  | eq port => rfl
  | neq port => rfl
  | gt port =>
    rw [ports?, Option.map_map]
    rfl
  | lt port =>
    rw [ports?, Option.map_map]
    rfl
  | range first last => rfl

end PortTest

/-- The words that tests begin with. -/
def portOperators : List String := ["eq", "neq", "gt", "lt", "range"]

/-- The word of a test is no address. -/
theorem readAddress_of_mem_portOperators {operator : String} (h : operator ∈ portOperators)
    (rest : List String) : readAddress (operator :: rest) = none := by
  have hword : ∀ operator ∈ portOperators,
      isIPv4 operator = false ∧ Network.ofCidr? operator = none := by decide
  obtain ⟨hip, hcidr⟩ := hword operator h
  have hsingle : readAddress.single operator rest = none := by
    rw [readAddress.single, hcidr, hip]
    rfl
  unfold readAddress
  split
  case h_8 heq => cases heq
  case h_9 heq =>
    cases heq
    split
    · rw [hip, Bool.false_and, if_neg Bool.false_ne_true]
      exact hsingle
    · exact hsingle
  all_goals
    next heq =>
      cases heq
      exact absurd h (by decide)

theorem PortTest.readAddress_words (t : PortTest) (rest : List String) :
    readAddress (t.words ++ rest) = none := by
  cases t <;> exact readAddress_of_mem_portOperators (by decide) _

/-- Words that begin with an address begin with no test. -/
theorem readPorts_of_readAddress {ws : List String} {operand : String × List String}
    (h : readAddress ws = some operand) : readPorts ws = none := by
  have hno {operator : String} {rest : List String} (hws : ws = operator :: rest)
      (hoperator : operator ∈ portOperators) : False := by
    rw [hws, readAddress_of_mem_portOperators hoperator] at h
    cases h
  unfold readPorts
  split
  · exact (hno rfl (by decide)).elim
  · exact (hno rfl (by decide)).elim
  · exact (hno rfl (by decide)).elim
  · exact (hno rfl (by decide)).elim
  · rfl

/-! ## The ports that stand for a test -/

theorem gtText_eq (n : UInt16) : s!"{min (n.toNat + 1) 65535}-65535"
    = toString (min (n.toNat + 1) 65535) ++ "-" ++ toString 65535 := by
  rw [String.append_assoc]
  rfl

theorem ltText_eq (n : UInt16) :
    s!"1-{n.toNat - 1}" = toString 1 ++ "-" ++ toString (n.toNat - 1) := rfl

theorem isPorts_of_ports? {t : PortTest} (ht : t.NamesPorts) {ports : String}
    (hports : t.ports? = some ports) : IsPorts ports := by
  have hnumeral {port : String} (h : ∃ n, readPortNumber port = some n) :
      IsNumeral (portNumber port) := isNumeral_of_readUInt16 (Option.isSome_iff_exists.2 h)
  cases t with
  | eq port =>
    obtain rfl := Option.some.inj hports
    exact .port (hnumeral ht)
  | neq port => cases hports
  | gt port =>
    obtain ⟨n, -, rfl⟩ := Option.map_eq_some_iff.1 hports
    rw [gtText_eq]
    exact .range (isNumeral_toString _) (isNumeral_toString _)
  | lt port =>
    obtain ⟨n, -, rfl⟩ := Option.map_eq_some_iff.1 hports
    rw [ltText_eq]
    exact .range (isNumeral_toString _) (isNumeral_toString _)
  | range first last =>
    obtain rfl := Option.some.inj hports
    exact .range (hnumeral ht.1) (hnumeral ht.2)

/-- A test for more than a port is read as the ports from the next one on, if there is one. -/
theorem portSet_gt (n : UInt16) : portSet s!"{min (n.toNat + 1) 65535}-65535"
    = {x | min (n.toNat + 1) 65535 ≤ x.toNat ∧ x.toNat ≤ 65535} := by
  have hfirst : min (n.toNat + 1) 65535 < UInt16.size := by rw [UInt16.size]; omega
  rw [gtText_eq, portSet_toString_range hfirst (by decide)]

/-- A test for less than a port is read as the ports from one to the one before it. -/
theorem portSet_lt (n : UInt16) :
    portSet s!"1-{n.toNat - 1}" = {x | 1 ≤ x.toNat ∧ x.toNat ≤ n.toNat - 1} := by
  have hn := n.toNat_lt
  have hlast : n.toNat - 1 < UInt16.size := by rw [UInt16.size]; omega
  rw [ltText_eq, portSet_toString_range (by decide) hlast]

/-- **What stands for a test lets through only ports that pass it**, unless it is for more than the
last port. -/
theorem portSet_subset_passes {t : PortTest} (ht : t.NamesPorts) (hbeyond : ¬ t.IsBeyond)
    {ports : String} (hports : t.ports? = some ports) : portSet ports ⊆ t.passes := by
  intro x hx
  cases t with
  | eq port =>
    obtain rfl := Option.some.inj hports
    obtain ⟨n, hn⟩ := ht
    rw [portSet_numeral hn, Set.mem_singleton_iff] at hx
    exact hx ▸ hn
  | neq port => cases hports
  | gt port =>
    obtain ⟨n, hn, rfl⟩ := Option.map_eq_some_iff.1 hports
    rw [portSet_gt] at hx
    have hne : n.toNat ≠ 65535 := fun h => hbeyond (by
      rw [PortTest.IsBeyond, hn, ← UInt16.ofNat_toNat (x := n), h]
      rfl)
    have hlt := n.toNat_lt
    exact ⟨n, hn, UInt16.lt_iff_toNat_lt.2 (by have := hx.1; omega)⟩
  | lt port =>
    obtain ⟨n, hn, rfl⟩ := Option.map_eq_some_iff.1 hports
    rw [portSet_lt] at hx
    exact ⟨n, hn, UInt16.lt_iff_toNat_lt.2 (by have := hx.1; have := hx.2; omega)⟩
  | range first last =>
    obtain rfl := Option.some.inj hports
    obtain ⟨⟨m, hm⟩, n, hn⟩ := ht
    have hset : portSet s!"{portNumber first}-{portNumber last}" = {x | m ≤ x ∧ x ≤ n} :=
      portSet_range hm hn
    rw [hset] at hx
    exact ⟨m, n, hm, hn, hx.1, hx.2⟩

/-- A test for more than the last port is read as that port. -/
theorem portSet_of_isBeyond {t : PortTest} (hbeyond : t.IsBeyond) {ports : String}
    (hports : t.ports? = some ports) : portSet ports = {65535} := by
  cases t with
  | gt port =>
    obtain ⟨n, hn, rfl⟩ := Option.map_eq_some_iff.1 hports
    obtain rfl : n = 65535 := Option.some.inj (hn.symm.trans hbeyond)
    rw [portSet_gt]
    ext x
    have hx := x.toNat_lt
    simp only [Set.mem_ofPred_eq, Set.mem_singleton_iff, ← UInt16.toNat_inj, UInt16.reduceToNat]
    omega
  | eq | neq | lt | range => exact hbeyond.elim

/-! ## Entries -/

/-- An entry that permits a protocol, from its action on: the words of its addresses, the tests on
its ports, and the words behind them. -/
structure PortEntry where
  protocol : String
  source : List String
  sourceTest? : Option PortTest := none
  destination : List String
  destinationTest? : Option PortTest := none
  rest : List String := []

namespace PortEntry
variable {e : PortEntry} {s d : String}

/-- The words behind the destination. -/
def behindDestination (e : PortEntry) : List String :=
  e.destinationTest?.elim [] PortTest.words ++ e.rest

/-- The words behind the source. -/
def behindSource (e : PortEntry) : List String :=
  e.sourceTest?.elim [] PortTest.words ++ (e.destination ++ e.behindDestination)

/-- The words of the entry. -/
def words (e : PortEntry) : List String :=
  "permit" :: e.protocol :: (e.source ++ e.behindSource)

/-- The protocol is one that has ports, and the words of the addresses are the addresses. -/
structure IsFrom (e : PortEntry) (s d : String) : Prop where
  protocol : e.protocol = "tcp" ∨ e.protocol = "udp"
  source : readAddress (e.source ++ e.behindSource) = some (s, e.behindSource)
  destination :
    readAddress (e.destination ++ e.behindDestination) = some (d, e.behindDestination)

/-- The rule of the entry, if its tests do not stand in the way. -/
def rule (e : PortEntry) (s d : String) : Policy :=
  let (service, flags) := readEntryService e.protocol [] e.behindDestination
  ruleOf .permit e.protocol s d service flags

theorem readEntry_words (he : e.IsFrom s d) :
    readEntry e.words
      = if ∃ t, e.sourceTest? = some t ∧ t.ports? = none then none else some (e.rule s d) := by
  have hprotocol : e.protocol ∈ ServiceRef.protocols := by
    rcases he.protocol with h | h <;> rw [h] <;> decide
  have hentry : readEntry e.words
      = readEntryOperands .permit e.protocol [] (e.source ++ e.behindSource) :=
    readEntry_protocol .permit hprotocol _
  have hoperands (hskip : skipPorts e.behindSource = e.destination ++ e.behindDestination) :
      readEntry e.words = some (e.rule s d) := by
    rw [hentry, readEntryOperands, he.source]
    dsimp only
    rw [hskip, he.destination]
    rfl
  cases htest : e.sourceTest? with
  | none =>
    have hbehind : e.behindSource = e.destination ++ e.behindDestination := by
      rw [behindSource, htest]
      rfl
    rw [if_neg (by simp), hoperands]
    rw [hbehind, skipPorts, readPorts_of_readAddress he.destination]
  | some t =>
    have hbehind : e.behindSource = t.words ++ (e.destination ++ e.behindDestination) := by
      rw [behindSource, htest]
      rfl
    cases hports : t.ports? with
    | none =>
      have hskip : skipPorts e.behindSource = e.behindSource := by
        rw [hbehind, skipPorts, t.readPorts_words, hports]
        rfl
      rw [if_pos ⟨t, rfl, hports⟩, hentry, readEntryOperands, he.source]
      dsimp only
      rw [hskip, hbehind, t.readAddress_words]
    | some ports =>
      rw [if_neg (by simp [hports]), hoperands]
      rw [hbehind, skipPorts, t.readPorts_words, hports]
      rfl

/-- A test on the destination port that can be read is the service. -/
theorem service_rule_of_ports? {t : PortTest} {ports : String} (ht : e.destinationTest? = some t)
    (hports : t.ports? = some ports) : (e.rule s d).service = [e.protocol ++ "/" ++ ports] := by
  have hbehind : e.behindDestination = t.words ++ e.rest := by
    rw [behindDestination, ht]
    rfl
  have hreads : ReadsPorts t.words ports := fun rest => by
    rw [t.readPorts_words, hports]
    rfl
  rw [rule, hbehind, readEntryService_ports e.protocol hreads]
  rfl

/-- One that cannot be read leaves all of the protocol. -/
theorem service_rule_of_ports?_none (he : e.IsFrom s d) {t : PortTest}
    (ht : e.destinationTest? = some t) (hports : t.ports? = none) :
    (e.rule s d).service = [e.protocol] := by
  have hbehind : e.behindDestination = t.words ++ e.rest := by
    rw [behindDestination, ht]
    rfl
  have hservice : (readEntryService e.protocol [] (t.words ++ e.rest)).1 = [e.protocol] := by
    unfold readEntryService
    rw [t.readPorts_words, hports]
    rcases he.protocol with h | h <;> rw [h] <;> cases t <;> rfl
  rw [rule, hbehind]
  exact hservice

/-- What becomes of the tests of an entry: the rule that the entry is read as, if it is read. -/
structure IsReadAs (e : PortEntry) (s d : String) (rule? : Option Policy) : Prop where
  /-- The entry is no entry just if it has a test on the source port that cannot be read. -/
  refused : rule? = none ↔ ∃ t, e.sourceTest? = some t ∧ t.ports? = none
  operands : ∀ rule ∈ rule?, rule.action = .permit ∧ rule.protocol = e.protocol
    ∧ rule.source = [s] ∧ rule.destination = [d]
  /-- A test on the destination port that can be read is the one service of the rule. -/
  tested : ∀ rule ∈ rule?, ∀ t ports, e.destinationTest? = some t → t.ports? = some ports →
    rule.service = [e.protocol ++ "/" ++ ports]
  /-- The rule lets through only ports that pass that test. -/
  passes : ∀ rule ∈ rule?, ∀ t, e.destinationTest? = some t → t.ports? ≠ none → t.NamesPorts →
    ¬ t.IsBeyond → ∀ c : Config,
      c.ruleTraffic rule ⊆ {x | x.protocol = e.protocol ∧ x.port ∈ t.passes}
  /-- It lets the last port through where the test is for more than that. -/
  beyond : ∀ rule ∈ rule?, ∀ t, e.destinationTest? = some t → t.IsBeyond → ∀ c : Config,
    c.ruleTraffic rule = {x | x.protocol = e.protocol ∧ x.port = 65535}
  /-- A test on the destination port that cannot be read leaves all of the protocol. -/
  passedOver : ∀ rule ∈ rule?, ∀ t, e.destinationTest? = some t → t.ports? = none →
    rule.service = [e.protocol]
  /-- A test on the source port leaves nothing behind. -/
  untested : ∀ rule ∈ rule?, e.destinationTest? = none →
    rule.service = (readEntryService e.protocol [] e.rest).1

/-- What the one service of the rule lets through. -/
theorem ruleTraffic_of_service (he : e.IsFrom s d) {rule : Policy} {ports : String}
    (hports : IsPorts ports) (hservice : rule.service = [e.protocol ++ "/" ++ ports]) (c : Config) :
    c.ruleTraffic rule = {x | x.protocol = e.protocol ∧ x.port ∈ portSet ports} := by
  have hprotocol : e.protocol ∈ ServiceRef.protocols ∧ e.protocol ≠ "ip" := by
    rcases he.protocol with h | h <;> rw [h] <;> decide
  have hne : rule.service ≠ [] := by rw [hservice]; exact List.cons_ne_nil _ _
  rw [c.ruleTraffic_of_ne_nil hne, hservice]
  ext x
  simp [ServiceRef.classify_port hprotocol.1 hports, ServiceRef.traffic, portTraffic,
    protocolTraffic, hprotocol.2]

/-- The number of a rule in its list, its name and its description say nothing of what it is for. -/
def Labels (rule rule' : Policy) : Prop :=
  ∃ name id description, rule' = { rule with name, id, description }

theorem isReadAs_rule (he : e.IsFrom s d)
    (htest : ¬ ∃ t, e.sourceTest? = some t ∧ t.ports? = none) {p : Policy}
    (hp : Labels (e.rule s d) p) : e.IsReadAs s d (some p) := by
  obtain ⟨name, id, description, hp⟩ := hp
  have hservice : p.service = (e.rule s d).service := by rw [hp]
  have htested {t : PortTest} {ports : String} (ht : e.destinationTest? = some t)
      (hports : t.ports? = some ports) : p.service = [e.protocol ++ "/" ++ ports] :=
    hservice.trans (service_rule_of_ports? ht hports)
  constructor
  case refused => exact ⟨nofun, fun h => absurd h htest⟩
  case operands =>
    rintro _ ⟨⟩
    rw [hp]
    exact ⟨rfl, rfl, rfl, rfl⟩
  case tested =>
    rintro _ ⟨⟩ t ports ht hports
    exact htested ht hports
  case passes =>
    rintro _ ⟨⟩ t ht hreadable hnames hbeyond c
    obtain ⟨ports, hports⟩ := Option.ne_none_iff_exists'.1 hreadable
    rw [ruleTraffic_of_service he (isPorts_of_ports? hnames hports) (htested ht hports)]
    exact fun x hx => ⟨hx.1, portSet_subset_passes hnames hbeyond hports hx.2⟩
  case beyond =>
    rintro _ ⟨⟩ t ht hbeyond c
    obtain ⟨hnames, ports, hports⟩ := hbeyond.namesPorts
    rw [ruleTraffic_of_service he (isPorts_of_ports? hnames hports) (htested ht hports),
      portSet_of_isBeyond hbeyond hports]
    rfl
  case passedOver =>
    rintro _ ⟨⟩ t ht hports
    exact hservice.trans (service_rule_of_ports?_none he ht hports)
  case untested =>
    rintro _ ⟨⟩ ht
    have hbehind : e.behindDestination = e.rest := by
      rw [behindDestination, ht]
      rfl
    rw [hservice, rule, hbehind]
    rfl

end PortEntry

/-- **What becomes of the tests on ports**, whatever has been read before the line. -/
theorem step_portEntry (r : Reading) {raw acl : String} (hraw : isIndented raw = false)
    {e : PortEntry} (hwords : Text.words raw = "access-list" :: acl :: "extended" :: e.words)
    {s d : String} (he : e.IsFrom s d) :
    ∃ rule? : Option Policy,
      (r.step raw).config.policies = r.config.policies ++ rule?.toList ∧ e.IsReadAs s d rule? := by
  have hpolicies : (r.step raw).config.policies = (r.access.step raw).policies :=
    congrArg Access.policies (Reading.access_step r raw)
  have hread : readAccessList (Line.ofText raw) ("extended" :: e.words)
      = readAclLine.ofEntry (readEntry e.words) := rfl
  rw [hpolicies, Access.step_accessList hraw hwords, hread, PortEntry.readEntry_words he]
  split
  · next htest =>
    refine ⟨none, (List.append_nil _).symm, ?_⟩
    exact { refused := ⟨fun _ => htest, fun _ => rfl⟩
            operands := forall_mem_none, tested := forall_mem_none
            passes := forall_mem_none, beyond := forall_mem_none
            passedOver := forall_mem_none, untested := forall_mem_none }
  · next htest =>
    exact ⟨_, rfl, PortEntry.isReadAs_rule he htest ⟨_, _, _, rfl⟩⟩

/-- An entry with tests on both of its ports. -/
def testedLine : String :=
  "access-list A extended permit udp any range 1000 2000 host 10.0.0.5 lt domain inactive"

/-- The operands of that entry. -/
def testedEntry : PortEntry where
  protocol := "udp"
  source := ["any"]
  sourceTest? := some (.range "1000" "2000")
  destination := ["host", "10.0.0.5"]
  destinationTest? := some (.lt "domain")
  rest := ["inactive"]

theorem step_testedLine :
    isIndented testedLine = false
      ∧ Text.words testedLine = "access-list" :: "A" :: "extended" :: testedEntry.words
      ∧ testedEntry.IsFrom "any" "10.0.0.5"
      ∧ ∃ rule? : Option Policy,
        ((Reading.start .ftd).step testedLine).config.policies
            = (Reading.start .ftd).config.policies ++ rule?.toList
          ∧ testedEntry.IsReadAs "any" "10.0.0.5" rule? := by
  have hraw : isIndented testedLine = false := by decide
  have hwords : Text.words testedLine = "access-list" :: "A" :: "extended" :: testedEntry.words := by
    decide
  have hoperands : testedEntry.IsFrom "any" "10.0.0.5" := ⟨.inr rfl, rfl, rfl⟩
  exact ⟨hraw, hwords, hoperands, step_portEntry (Reading.start .ftd) hraw hwords hoperands⟩

/-- A test on the source port, one for another port, and one for more than the last port. -/
def droppedTestLines : List String :=
  ["access-list A extended permit tcp any eq 80 any", "access-list A extended permit tcp any any neq 80",
   "access-list A extended permit tcp any any gt 65535"]

/-- **Tests on ports are dropped**: two of the rules let all of the protocol through, and the third
one lets the last port through, though the tests do not. -/
theorem not_restricted_droppedTestLines :
    ∃ first second third : Policy,
      (read .asa (unlines droppedTestLines)).policies = [first, second, third]
        ∧ first.service = ["tcp"] ∧ second.service = ["tcp"]
        ∧ (⟨"tcp", 80⟩ ∈ Config.ruleTraffic {} second ∧ 80 ∉ (PortTest.neq "80").passes)
        ∧ (⟨"tcp", 65535⟩ ∈ Config.ruleTraffic {} third
          ∧ 65535 ∉ (PortTest.gt "65535").passes) := by
  have hread : (read .asa (unlines droppedTestLines)).policies
      = [{ name := some "A", id := some 1, protocol := "tcp", service := ["tcp"], action := .permit
           source := ["any"], destination := ["any"] },
         { name := some "A", id := some 2, protocol := "tcp", service := ["tcp"], action := .permit
           source := ["any"], destination := ["any"] },
         { name := some "A", id := some 3, protocol := "tcp", service := ["tcp/65535-65535"]
           action := .permit, source := ["any"], destination := ["any"] }] := by
    rw [read, Reading.run_lines_unlines _ (by decide +kernel)]
    decide +kernel
  have hprotocol : ServiceRef.classify "tcp" = .protocol "tcp" := by decide
  have hlast : ServiceRef.classify "tcp/65535-65535" = .port "tcp" "65535-65535" := by decide
  refine ⟨_, _, _, hread, rfl, rfl, ⟨?_, ?_⟩, ?_, ?_⟩
  · refine Set.mem_iUnion₂.2 ⟨"tcp", List.mem_singleton_self _, ?_⟩
    rw [hprotocol]
    exact .inr rfl
  · rintro ⟨n, hn, hne⟩
    exact hne (Option.some.inj ((by decide : readPortNumber "80" = some 80).symm.trans hn))
  · refine Set.mem_iUnion₂.2 ⟨"tcp/65535-65535", List.mem_singleton_self _, ?_⟩
    rw [hlast]
    exact ⟨.inr rfl, by decide⟩
  · rintro ⟨n, hn, hlt⟩
    obtain rfl := Option.some.inj ((by decide : readPortNumber "65535" = some 65535).symm.trans hn)
    exact absurd hlt (by decide)

end Cisco

end FirewallConfig
