import FirewallConfig.Config.Basic

/-!
# Census — how many entries of each kind a configuration holds
-/

namespace FirewallConfig

/-- The number of entries of each category. -/
structure Census where
  interfaces : Nat := 0
  objects : Nat := 0
  objectGroups : Nat := 0
  services : Nat := 0
  policies : Nat := 0
  routes : Nat := 0
  users : Nat := 0
  nat : Nat := 0
  vpns : Nat := 0
  ldap : Nat := 0
  securityProfiles : Nat := 0
  applications : Nat := 0
  urlCategories : Nat := 0
  zones : Nat := 0
deriving DecidableEq, Repr

/-- Counts the entries of a configuration. -/
def Config.census (c : Config) : Census where
  interfaces := c.interfaces.length
  objects := c.addressObjects.length
  objectGroups := c.addressGroups.length
  services := c.services.length
  policies := c.policies.length
  routes := c.routes.length
  users := c.users.length
  nat := c.nat.length
  vpns := c.vpn.tunnels.length
  ldap := c.aaaServers.length
  securityProfiles := c.securityProfiles.length
  applications := c.applications.length
  urlCategories := c.urlCategories.length
  zones := c.zones.length

namespace Census

/-- Each category by name with its count, in the order in which they are reported. -/
def counts (n : Census) : List (String × Nat) :=
  [("interfaces", n.interfaces), ("objects", n.objects), ("object_groups", n.objectGroups),
   ("services", n.services), ("policies", n.policies), ("routes", n.routes), ("users", n.users),
   ("nat", n.nat), ("vpns", n.vpns), ("ldap", n.ldap),
   ("security_profiles", n.securityProfiles), ("applications", n.applications),
   ("url_categories", n.urlCategories), ("zones", n.zones)]

/-- The number of all entries. -/
def total (n : Census) : Nat := n.counts.foldr (fun entry sum => entry.2 + sum) 0

/-- The counts on one line. -/
def line (n : Census) : String :=
  "convert_summary " ++ " ".intercalate (n.counts.map fun (name, k) => s!"{name}={k}")

end Census

end FirewallConfig
