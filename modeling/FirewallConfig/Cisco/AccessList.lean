import FirewallConfig.Cisco.Line
import FirewallConfig.Cisco.Operand
import FirewallConfig.Config.Policy

/-!
# Cisco/AccessList — the lines of an access list

A line is a remark, which describes the next entry of its list, or an entry, which is a rule, or it
says nothing that is kept.  `readEntry` reads the operands of an extended entry from left to right:
protocol, source, source port, destination, destination port, and flags.
-/

namespace FirewallConfig.Cisco

/-- What a line of an access list says. -/
inductive AclLine where
  | remark (text : String)
  | entry (rule : Policy)
  | ignored
deriving DecidableEq, Repr

/-- Passes over the test on the source port, if there is one. -/
def skipPorts (words : List String) : List String :=
  match readPorts words with
  | some (_, rest) => rest
  | none => words

/-- The services of an entry and the words after them.  `named` holds the service that stands in
place of the protocol, if one does.  A bare protocol is a service itself where it has ports or
messages to tell apart. -/
def readEntryService (protocol : String) (named : List String) (words : List String) :
    List String × List String :=
  match readPorts words with
  | some (ports, rest) => (named ++ [protocol ++ "/" ++ ports], rest)
  | none =>
    match words with
    | "object-group" :: name :: rest | "object" :: name :: rest => (named ++ [name], rest)
    | rest =>
      (if named.isEmpty && ["tcp", "udp", "icmp"].contains protocol then [protocol] else named,
       rest)

/-- Reads what follows the protocol of an entry. -/
def readEntryOperands (action : Action) (protocol : String) (named words : List String) :
    Option Policy :=
  match readAddress words with
  | none => none
  | some (source, rest) =>
    match readAddress (skipPorts rest) with
    | none => none
    | some (destination, rest) =>
      let (service, flags) := readEntryService protocol named rest
      some
        { action, protocol, service
          source := [source]
          destination := [destination]
          log := flags.contains "log"
          enabled := !flags.contains "inactive" }

/-- Reads an extended entry, from its action on. -/
def readEntry : List String → Option Policy
  | [] => none
  | action :: rest =>
    if action == "permit" || action == "deny" then
      match rest with
      | "object" :: service :: rest | "object-group" :: service :: rest =>
        readEntryOperands (.ofText action) "ip" [service] rest
      | protocol :: rest => readEntryOperands (.ofText action) (Text.lower protocol) [] rest
      | [] => none
    else none

/-- The entry of a standard list: a destination alone. -/
def readStandardEntry (action : String) (words : List String) : Option Policy :=
  (readAddress words).map fun (destination, _) =>
    { action := .ofText action, destination := [destination] }

/-- Reads the words after the name of the list and its line number.  `behind k` is the text that
follows the first `k` of them. -/
def readAclLine (behind : Nat → String) : List String → AclLine
  | "remark" :: _ => .remark (behind 1)
  | "extended" :: rest => ofEntry (readEntry rest)
  | "standard" :: action :: rest => ofEntry (readStandardEntry action rest)
  | "webtype" :: _ | "ethertype" :: _ => .ignored
  | rest => ofEntry (readEntry rest)
where
  /-- The line of an entry, if it is one. -/
  ofEntry : Option Policy → AclLine
    | some rule => .entry rule
    | none => .ignored

/-- Reads a line `access-list NAME …`, from the third word on. -/
def readAccessList (l : Line) : List String → AclLine
  | "line" :: _ :: rest => readAclLine (fun k => l.after (k + 4)) rest
  | rest => readAclLine (fun k => l.after (k + 2)) rest

end FirewallConfig.Cisco
