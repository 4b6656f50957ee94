import FirewallConfig.Text.Cut
import FirewallConfig.Text.Numeral

/-!
# Address/IPv4 — when a text is an IPv4 address

Four numbers of 8 bits with points between them, each written in at most three characters.
-/

namespace FirewallConfig

/-- The text is one of the four numbers of an address: at most three characters, a plus sign and
leading zeros included. -/
def isOctet (s : String) : Bool := s.length ≤ 3 && (Text.readUInt8 s).isSome

/-- The text is an IPv4 address. -/
def isIPv4 (s : String) : Bool :=
  let octets := Text.pieces '.' s
  octets.length == 4 && octets.all isOctet

end FirewallConfig
