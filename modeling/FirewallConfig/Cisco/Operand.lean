import FirewallConfig.Address.Endpoint
import FirewallConfig.Config.Management
import FirewallConfig.Service.WellKnown
import FirewallConfig.Text.Words

/-!
# Cisco/Operand — addresses and ports as the words of a line

Each reader takes an operand off the front of a list of words and gives back what it means and the
words after it; it gives `none` where the words do not begin with such an operand.
-/

namespace FirewallConfig.Cisco

/-- Reads an address: a keyword for everything, `host A`, a named object, group or interface,
`A MASK`, `A/PREFIX`, or a bare address. -/
def readAddress : List String → Option (String × List String)
  | "any" :: rest | "any4" :: rest | "any6" :: rest => some (anyText, rest)
  | "host" :: address :: rest => some (address, rest)
  | "object" :: name :: rest | "object-group" :: name :: rest | "interface" :: name :: rest =>
    some (name, rest)
  | [] => none
  | address :: rest =>
    match rest with
    | mask :: rest' =>
      if isIPv4 address && isIPv4 mask then
        some (if mask == Netmask.single then address else (Network.mk address mask).cidr, rest')
      else single address rest
    | [] => single address rest
where
  /-- An address that is one word. -/
  single (address : String) (rest : List String) : Option (String × List String) :=
    if (Network.ofCidr? address).isSome || isIPv4 address then some (address, rest) else none

/-- The number of a port that is compared with; a keyword stands for its number. -/
def readPortNumber (port : String) : Option UInt16 := Text.readUInt16 (portNumber port)

/-- Reads a test on a port: `eq P`, `range A B`, `gt P` or `lt P`, as the text of a port or of a
range of ports. -/
def readPorts : List String → Option (String × List String)
  | "eq" :: port :: rest => some (portNumber port, rest)
  | "range" :: first :: last :: rest => some (s!"{portNumber first}-{portNumber last}", rest)
  | "gt" :: port :: rest =>
    (readPortNumber port).map fun p => (s!"{min (p.toNat + 1) 65535}-65535", rest)
  | "lt" :: port :: rest => (readPortNumber port).map fun p => (s!"1-{p.toNat - 1}", rest)
  | _ => none

/-- Reads `(real,mapped)`: the two interfaces of a translation, either of which may be missing. -/
def readInterfacePair (word : String) : Option (Option String × Option String) :=
  match (Text.withoutPrefix "(" word).bind (Text.withoutSuffix ")") with
  | none => none
  | some inner =>
    let names := (Text.pieces ',' inner).map Text.trim
    let nonEmpty := fun (name : Option String) => name.filter fun n => !n.isEmpty
    some (nonEmpty names[0]?, nonEmpty names[1]?)

/-- Reads what follows `ssh` or `http`: a network with an interface, or any other setting. -/
def readAccessSetting : List String → AccessSetting
  | address :: mask :: interface :: rest =>
    if isIPv4 address then .allow address mask interface
    else .option address (Text.unwords (mask :: interface :: rest))
  | key :: rest => .option key (Text.unwords rest)
  | [] => .option "" ""

end FirewallConfig.Cisco
