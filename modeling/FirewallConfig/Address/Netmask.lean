import FirewallConfig.Text.Blank

/-!
# Address/Netmask — the contiguous network masks and their prefix lengths

The 33 masks in dotted form, at the index of their prefix length.  A text that is none of them has
no prefix length of its own; where one has to be written for it, it is `defaultPrefix`.
-/

namespace FirewallConfig.Netmask

/-- The contiguous masks, each at the index of its prefix length. -/
def table : List String :=
  ["0.0.0.0", "128.0.0.0", "192.0.0.0", "224.0.0.0", "240.0.0.0", "248.0.0.0", "252.0.0.0",
   "254.0.0.0", "255.0.0.0", "255.128.0.0", "255.192.0.0", "255.224.0.0", "255.240.0.0",
   "255.248.0.0", "255.252.0.0", "255.254.0.0", "255.255.0.0", "255.255.128.0", "255.255.192.0",
   "255.255.224.0", "255.255.240.0", "255.255.248.0", "255.255.252.0", "255.255.254.0",
   "255.255.255.0", "255.255.255.128", "255.255.255.192", "255.255.255.224", "255.255.255.240",
   "255.255.255.248", "255.255.255.252", "255.255.255.254", "255.255.255.255"]

/-- The mask of prefix length 0, which every address matches. -/
def everything : String := "0.0.0.0"

/-- The mask of prefix length 32, which one address matches. -/
def single : String := "255.255.255.255"

/-- The prefix length that stands for a mask outside the table. -/
def defaultPrefix : Nat := 24

/-- The mask at `defaultPrefix`. -/
def defaultMask : String := "255.255.255.0"

/-- The prefix length of a mask of the table; blanks around the mask do not count. -/
def prefix? (mask : String) : Option Nat := table.idxOf? (Text.trim mask)

/-- The prefix length that is written for a mask. -/
def prefixOrDefault (mask : String) : Nat := (prefix? mask).getD defaultPrefix

/-- The mask of a prefix length from 0 to 32. -/
def ofPrefix? (n : Nat) : Option String := table[n]?

end FirewallConfig.Netmask
