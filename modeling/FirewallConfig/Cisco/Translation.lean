import FirewallConfig.Cisco.Operand
import FirewallConfig.Config.Nat

/-!
# Cisco/Translation — address translation as the words of a line

Three directives translate addresses: `nat`, in several layouts and also inside an object, and the
older `global` and `static`.
-/

namespace FirewallConfig.Cisco

/-- The kind that a keyword names. -/
def natKind? : String → Option NatKind
  | "static" => some .static
  | "dynamic" => some .dynamic
  | _ => none

/-- The source of a rule in the older layout: an address with a mask, of which `0.0.0.0 0.0.0.0`
is everything. -/
def legacySource (address mask : String) : String :=
  if address == "0.0.0.0" && mask == "0.0.0.0" then anyText
  else if isIPv4 mask then (Network.mk address mask).cidr
  else address

/-- The destination of a rule that translates two ways. -/
def readTwiceDestination : List String → Option String
  | "destination" :: "static" :: destination :: _ => some destination
  | _ => none

/-- Adds what the operands of a `nat` line say to a rule.  Inside an object the source is the
object. -/
def readNatOperands (rule : NatRule) (object : Option String) (words : List String) :
    Option NatRule :=
  match object, words with
  | some name, kind :: mapped :: _ =>
    (natKind? kind).map fun kind =>
      { rule with kind, source := some name, translated := some mapped }
  | some _, _ => none
  | none, words =>
    match readTwice words with
    | some rule => some rule
    | none => readLegacy words
where
  /-- The layout `source KIND REAL MAPPED`. -/
  readTwice : List String → Option NatRule
    | "source" :: kind :: real :: mapped :: tail =>
      (natKind? kind).map fun kind =>
        { rule with
          kind
          source := some real
          translated := some mapped
          destination := readTwiceDestination tail }
    | _ => none
  /-- The older layouts, which begin with an id. -/
  readLegacy : List String → Option NatRule
    | id :: "access-list" :: acl :: _ => some { rule with natId := some id, source := some acl }
    | id :: address :: mask :: _ =>
      if isIPv4 address then
        some { rule with natId := some id, source := some (legacySource address mask) }
      else none
    | _ => none

/-- Cuts off the description at the end of a line. -/
def cutDescription (words : List String) : List String × Option String :=
  match words.dropWhile (· != "description") with
  | [] => (words, none)
  | _ :: description =>
    (words.takeWhile (· != "description"), some (Text.unwords description))

/-- Reads what follows `nat`.  `object` is the object that the line stands in, if it stands in
one. -/
def readNat (object : Option String) : List String → Option NatRule
  | [] => none
  | interfaces :: rest =>
    match readInterfacePair interfaces with
    | none => none
    | some (sourceInterface, interface) =>
      let rest :=
        match rest with
        | "after-auto" :: tail | "after-object" :: tail => tail
        | rest => rest
      let (operands, description) := cutDescription rest
      readNatOperands { sourceInterface, interface, description } object operands

/-- Reads what follows `global`: a pool with the id that rules are paired by. -/
def readPool : List String → Option NatRule
  | interfaces :: id :: mapped :: _ =>
    (readInterfacePair interfaces).map fun (interface, _) =>
      { kind := .pool, translated := some mapped, interface, natId := some id }
  | _ => none

/-- Reads what follows `static`. -/
def readStatic : List String → Option NatRule
  | [] => none
  | interfaces :: rest =>
    match readInterfacePair interfaces with
    | none => none
    | some (sourceInterface, interface) =>
      let rest :=
        match rest with
        | "tcp" :: tail | "udp" :: tail => tail
        | rest => rest
      match rest with
      | mapped :: real :: _ =>
        some
          { kind := .static, source := some real, translated := some mapped
            sourceInterface, interface }
      | _ => none

end FirewallConfig.Cisco
