import FirewallConfig.Address.Netmask
import FirewallConfig.Text.Cut
import FirewallConfig.Text.Numeral
import FirewallConfig.Text.Words

/-!
# Address/Network — an address with a mask, and the texts that spell it

A network is written `a.b.c.d/n` with a prefix length or `a.b.c.d m.m.m.m` with a mask.  Nothing
here asks whether the address is one: `Network.read?` only takes a text apart.
-/

namespace FirewallConfig

/-- An address and the mask that goes with it, both as text. -/
structure Network where
  address : String
  mask : String
deriving DecidableEq, Repr

namespace Network

/-- The network as `address/prefix`.  A mask outside the table is written with the default
prefix. -/
def cidr (n : Network) : String :=
  Text.trim n.address ++ "/" ++ toString (Netmask.prefixOrDefault n.mask)

/-- Reads `address/prefix`.  A prefix that is no number from 0 to 32 counts as the default one. -/
def ofCidr? (s : String) : Option Network :=
  match Text.cut '/' (Text.trim s) with
  | none => none
  | some (address, tail) =>
    if address.isEmpty then none
    else
      let mask := (Text.readUInt8 (Text.trim tail)).bind fun n => Netmask.ofPrefix? n.toNat
      some ⟨address, mask.getD Netmask.defaultMask⟩

/-- Reads `address mask`, `address/mask` or `address/prefix`.  Words after the first two are
ignored, and a slash starts a mask exactly when a point follows it. -/
def read? (s : String) : Option Network :=
  match Text.words s with
  | [] => none
  | address :: mask :: _ => some ⟨address, mask⟩
  | [word] =>
    match Text.cut '/' word with
    | none => none
    | some (address, tail) =>
      if tail.toList.contains '.' then some ⟨address, tail⟩ else ofCidr? word

end Network

end FirewallConfig
