import FirewallConfig.Cisco.Directive
import FirewallConfig.Proofs.Text.Offsets

/-!
# Proofs/Cisco/Counts — operands that are counted off

An operand may be taken off the front of a line by the number of its words: the reader gives back
that number, and the line goes on behind it.  A name that ends in `At` is that of a reader which
takes its parts by their places and checks each place.  No operand has more words than there are left
(`drop_readAddressAt`, `drop_readPortsAt`), so no check fails, and what is read is the same.
-/

namespace FirewallConfig.Cisco

/-! ## Addresses and ports -/

/-- Reads an address, and counts its words. -/
def readAddressAt : List String → Option (String × Nat)
  | "any" :: _ | "any4" :: _ | "any6" :: _ => some (anyText, 1)
  | "host" :: address :: _ => some (address, 2)
  | "object" :: name :: _ | "object-group" :: name :: _ | "interface" :: name :: _ => some (name, 2)
  | [] => none
  | address :: rest =>
    match rest with
    | mask :: _ =>
      if isIPv4 address && isIPv4 mask then
        some (if mask == Netmask.single then address else (Network.mk address mask).cidr, 2)
      else single address
    | [] => single address
where
  /-- An address that is one word. -/
  single (address : String) : Option (String × Nat) :=
    if (Network.ofCidr? address).isSome || isIPv4 address then some (address, 1) else none

/-- Reads a test on a port, and counts its words. -/
def readPortsAt : List String → Option (String × Nat)
  | "eq" :: port :: _ => some (portNumber port, 2)
  | "range" :: first :: last :: _ => some (s!"{portNumber first}-{portNumber last}", 3)
  | "gt" :: port :: _ => (readPortNumber port).map fun p => (s!"{min (p.toNat + 1) 65535}-65535", 2)
  | "lt" :: port :: _ => (readPortNumber port).map fun p => (s!"1-{p.toNat - 1}", 2)
  | _ => none

/-- **An address has no more words than there are**, and the line goes on behind them. -/
theorem drop_readAddressAt (ws : List String) :
    (readAddressAt ws).map (fun (address, used) => (address, Checked.drop used ws))
      = (readAddress ws).map fun (address, rest) => (address, .ok rest) := by
  have hsingle (address : String) (rest : List String) :
      (readAddressAt.single address).map
          (fun (text, used) => (text, Checked.drop used (address :: rest)))
        = (readAddress.single address rest).map
          fun (text, rest) => (text, (.ok rest : Checked _)) := by
    rw [readAddressAt.single, readAddress.single]
    split <;> rfl
  fun_cases readAddress ws
  case case9 h _ _ _ _ =>
    rw [readAddressAt, if_pos h]
    · rfl
    all_goals assumption
  case case10 h _ _ _ _ =>
    rw [readAddressAt, if_neg h]
    · exact hsingle _ _
    all_goals assumption
  case case11 =>
    rw [readAddressAt]
    · exact hsingle _ _
    all_goals assumption
  all_goals rfl

/-- **A test on a port has no more words than there are**, and the line goes on behind them. -/
theorem drop_readPortsAt (ws : List String) :
    (readPortsAt ws).map (fun (ports, used) => (ports, Checked.drop used ws))
      = (readPorts ws).map fun (ports, rest) => (ports, .ok rest) := by
  fun_cases readPorts ws with
  | case1 | case2 => rfl
  | case3 port rest =>
    rw [readPortsAt, Option.map_map, Option.map_map]
    rfl
  | case4 port rest =>
    rw [readPortsAt, Option.map_map, Option.map_map]
    rfl
  | case5 =>
    rw [readPortsAt]
    · rfl
    all_goals assumption

/-- What is counted off is read, and what is not counted off is not read. -/
theorem counted_cases {counted : Option (String × Nat)} {read : Option (String × List String)}
    {ws : List String}
    (h : counted.map (fun (text, used) => (text, Checked.drop used ws))
      = read.map fun (text, rest) => (text, .ok rest)) :
    (counted = none ∧ read = none) ∨ ∃ text used rest, counted = some (text, used)
      ∧ read = some (text, rest) ∧ Checked.drop used ws = .ok rest := by
  cases counted with
  | none => exact .inl ⟨rfl, Option.map_eq_none_iff.1 h.symm⟩
  | some c =>
    obtain ⟨text, used⟩ := c
    obtain ⟨⟨text', rest⟩, hread, heq⟩ := Option.map_eq_some_iff.1 h.symm
    obtain ⟨rfl, hrest⟩ := Prod.mk.inj heq
    exact .inr ⟨text', used, rest, rfl, hread, hrest.symm⟩

/-- What is counted off is not longer than the line. -/
theorem all_counted {counted : Option (String × Nat)} {read : Option (String × List String)}
    {ws : List String}
    (h : counted.map (fun (text, used) => (text, Checked.drop used ws))
      = read.map fun (text, rest) => (text, .ok rest)) :
    counted.all fun (_, used) => used ≤ ws.length := by
  rcases counted_cases h with ⟨hnone, -⟩ | ⟨text, used, rest, hsome, -, hdrop⟩
  · rw [hnone]
    rfl
  · rw [hsome]
    exact decide_eq_true (Checked.drop_eq_ok_iff.1 hdrop).1

/-! ## The entries of an access list -/

/-- Passes over the test on the source port, if there is one. -/
def skipPortsAt (words : List String) : Checked (List String) :=
  match readPortsAt words with
  | some (_, used) => Checked.drop used words
  | none => .ok words

/-- The services of an entry and the words after them. -/
def readEntryServiceAt (protocol : String) (named words : List String) :
    Checked (List String × List String) :=
  match readPortsAt words with
  | some (ports, used) => do return (named ++ [protocol ++ "/" ++ ports], ← Checked.drop used words)
  -- a name or a bare protocol is taken by its form
  | none => .ok (readEntryService protocol named words)

/-- Reads what follows the protocol of an entry. -/
def readEntryOperandsAt (action : Action) (protocol : String) (named words : List String) :
    Checked (Option Policy) :=
  match readAddressAt words with
  | none => .ok none
  | some (source, used) => do
    let rest ← skipPortsAt (← Checked.drop used words)
    match readAddressAt rest with
    | none => return none
    | some (destination, used) => do
      let (service, flags) ← readEntryServiceAt protocol named (← Checked.drop used rest)
      return some
        { action, protocol, service
          source := [source]
          destination := [destination]
          log := flags.contains "log"
          enabled := !flags.contains "inactive" }

/-- Reads an extended entry, from its action on. -/
def readEntryAt : List String → Checked (Option Policy)
  | [] => .ok none
  | action :: rest =>
    if action == "permit" || action == "deny" then
      match rest with
      | "object" :: service :: rest | "object-group" :: service :: rest =>
        readEntryOperandsAt (.ofText action) "ip" [service] rest
      | protocol :: rest => readEntryOperandsAt (.ofText action) (Text.lower protocol) [] rest
      | [] => .ok none
    else .ok none

theorem skipPortsAt_eq (ws : List String) : skipPortsAt ws = .ok (skipPorts ws) := by
  rw [skipPortsAt, skipPorts]
  rcases counted_cases (drop_readPortsAt ws) with ⟨h, h'⟩ | ⟨_, _, _, h, h', hdrop⟩
  · simp only [h, h']
  · simp only [h, h', hdrop]

theorem readEntryServiceAt_eq (protocol : String) (named ws : List String) :
    readEntryServiceAt protocol named ws = .ok (readEntryService protocol named ws) := by
  rw [readEntryServiceAt]
  rcases counted_cases (drop_readPortsAt ws) with ⟨h, -⟩ | ⟨_, _, _, h, h', hdrop⟩
  · rw [h]
  · unfold readEntryService
    simp only [h, h', hdrop, Checked.ok_bind, Checked.pure_eq_ok]

theorem readEntryOperandsAt_eq (action : Action) (protocol : String) (named ws : List String) :
    readEntryOperandsAt action protocol named ws
      = .ok (readEntryOperands action protocol named ws) := by
  rw [readEntryOperandsAt, readEntryOperands]
  rcases counted_cases (drop_readAddressAt ws) with ⟨h, h'⟩ | ⟨_, _, rest, h, h', hdrop⟩
  · simp only [h, h']
  · simp only [h, h', hdrop, Checked.ok_bind, skipPortsAt_eq]
    rcases counted_cases (drop_readAddressAt (skipPorts rest)) with
      ⟨h, h'⟩ | ⟨_, _, _, h, h', hdrop⟩
    · simp only [h, h', Checked.pure_eq_ok]
    · simp only [h, h', hdrop, Checked.ok_bind, readEntryServiceAt_eq, Checked.pure_eq_ok]

/-- **An entry is counted off**, operand by operand. -/
theorem readEntryAt_eq (ws : List String) : readEntryAt ws = .ok (readEntry ws) := by
  fun_cases readEntry ws with
  | case1 => rfl
  | case2 action h service rest => exact (if_pos h).trans (readEntryOperandsAt_eq ..)
  | case3 action h service rest => exact (if_pos h).trans (readEntryOperandsAt_eq ..)
  | case4 action h protocol rest hgroup hobject =>
    rw [readEntryAt, if_pos h]
    · exact readEntryOperandsAt_eq ..
    all_goals assumption
  | case5 action h => exact if_pos h
  | case6 action rest h => exact if_neg h

/-- Reads the words after the name of the list and its line number.  What follows a remark is found
by counting the words before it. -/
def readAclLineAt (l : Line) : List String → Checked AclLine
  | "remark" :: rest => do
    let passed ← Checked.sub l.words.length ("remark" :: rest).length
    return .remark (← Text.textAfterAt (passed + 1) l.text)
  | "extended" :: rest => do return readAclLine.ofEntry (← readEntryAt rest)
  | "standard" :: action :: rest => .ok (readAclLine.ofEntry (readStandardEntry action rest))
  | "webtype" :: _ | "ethertype" :: _ => .ok .ignored
  | rest => do return readAclLine.ofEntry (← readEntryAt rest)

/-- Reads a line `access-list NAME …`. -/
def readAccessListAt (l : Line) : Checked AclLine := do
  match ← Checked.drop 2 l.words with
  | "line" :: _ :: rest => readAclLineAt l rest
  | rest => readAclLineAt l rest

theorem readAclLineAt_eq {l : Line} {ws : List String} {k : Nat}
    (h : l.words.length = ws.length + k) :
    readAclLineAt l ws = .ok (readAclLine (fun j => l.after (j + k)) ws) := by
  fun_cases readAclLine (fun j => l.after (j + k)) ws with
  | case1 rest =>
    have hpassed : Checked.sub l.words.length ("remark" :: rest).length = .ok k := by
      rw [Checked.sub_of_le (by omega), h, Nat.add_sub_cancel_left]
    rw [readAclLineAt, hpassed, Checked.ok_bind, Text.textAfterAt_eq, Nat.add_comm k 1]
    rfl
  | case2 rest => rw [readAclLineAt, readEntryAt_eq]; rfl
  | case3 | case4 | case5 => rfl
  | case6 =>
    rw [readAclLineAt, readEntryAt_eq]
    · rfl
    all_goals assumption

/-- **The words before a remark are counted**, whether the line has a number or not. -/
theorem readAccessListAt_eq {l : Line} {v w : String} {ws : List String} (h : l.words = v :: w :: ws) :
    readAccessListAt l = .ok (readAccessList l ws) := by
  have hdrop : Checked.drop 2 l.words = .ok ws := by rw [h]; rfl
  rw [readAccessListAt, hdrop, Checked.ok_bind]
  fun_cases readAccessList l ws with
  | case1 number rest => exact readAclLineAt_eq (k := 4) (by rw [h]; simp)
  | case2 =>
    split
    · next hline => exact (hline _ _ rfl).elim
    · exact readAclLineAt_eq (k := 2) (by rw [h]; simp)

/-! ## Translations -/

/-- Cuts off the description at the end of a line. -/
def cutDescriptionAt (words : List String) : Checked (List String × Option String) :=
  match words.findIdx? (· == "description") with
  | some place => do
    let description := Text.unwords (← Checked.drop (place + 1) words)
    return (← Checked.take place words, some description)
  | none => .ok (words, none)

/-- Passes over the word that says where a translation stands in the order of all of them. -/
def skipOrder : List String → List String
  | "after-auto" :: rest | "after-object" :: rest => rest
  | words => words

/-- Passes over the protocol of a translation. -/
def skipProtocol : List String → List String
  | "tcp" :: rest | "udp" :: rest => rest
  | words => words

/-- Reads a line `nat …`.  `object` is the object that the line stands in, if it stands in one. -/
def readNatAt (object : Option String) (words : List String) : Checked (Option NatRule) :=
  match words[1]?.bind readInterfacePair with
  | none => .ok none
  | some (sourceInterface, interface) => do
    let (operands, description) ← cutDescriptionAt (skipOrder (← Checked.drop 2 words))
    return readNatOperands { sourceInterface, interface, description } object operands

/-- Reads a line `static …`. -/
def readStaticAt (words : List String) : Checked (Option NatRule) :=
  match words[1]?.bind readInterfacePair with
  | none => .ok none
  | some (sourceInterface, interface) => do
    return match skipProtocol (← Checked.drop 2 words) with
      | mapped :: real :: _ =>
        some
          { kind := .static, source := some real, translated := some mapped
            sourceInterface, interface }
      | _ => none

theorem cutDescriptionAt_eq (ws : List String) : cutDescriptionAt ws = .ok (cutDescription ws) := by
  rw [cutDescriptionAt, cutDescription]
  rcases Checked.find_cases (· == "description") ws with h | ⟨before, w, behind, rfl, hbefore, hw⟩
  · have hnone : ws.dropWhile (· != "description") = [] :=
      Checked.dropWhile_of_forall h
    rw [List.findIdx?_eq_none_iff.2 h, hnone]
  · have hfound : (before ++ w :: behind).dropWhile (· != "description") = w :: behind :=
      Checked.dropWhile_found hbefore hw behind
    have hfront : (before ++ w :: behind).takeWhile (· != "description") = before :=
      Checked.takeWhile_found hbefore hw behind
    rw [Checked.findIdx?_found hbefore hw, hfound, hfront]
    simp only [Checked.drop_append_cons, Checked.take_append, Checked.ok_bind, Checked.pure_eq_ok]

/-- **The operands of a translation are in the line**, for any word that it begins with. -/
theorem readNatAt_eq (object : Option String) (w : String) (ws : List String) :
    readNatAt object (w :: ws) = .ok (readNat object ws) := by
  cases ws with
  | nil => rfl
  | cons interfaces rest =>
    have hdrop : Checked.drop 2 (w :: interfaces :: rest) = .ok rest := rfl
    unfold readNatAt readNat
    simp only [List.getElem?_cons_succ, List.getElem?_cons_zero, Option.bind_some]
    cases readInterfacePair interfaces with
    | none => rfl
    | some names =>
      simp only [hdrop, Checked.ok_bind, cutDescriptionAt_eq, Checked.pure_eq_ok]
      rfl

theorem readStaticAt_eq (w : String) (ws : List String) :
    readStaticAt (w :: ws) = .ok (readStatic ws) := by
  cases ws with
  | nil => rfl
  | cons interfaces rest =>
    have hdrop : Checked.drop 2 (w :: interfaces :: rest) = .ok rest := rfl
    unfold readStaticAt readStatic
    simp only [List.getElem?_cons_succ, List.getElem?_cons_zero, Option.bind_some]
    cases readInterfacePair interfaces with
    | none => rfl
    | some names =>
      simp only [hdrop, Checked.ok_bind, Checked.pure_eq_ok]
      rfl

end FirewallConfig.Cisco
