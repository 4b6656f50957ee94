/-!
# Config/Interface — interfaces, zones and static routes
-/

namespace FirewallConfig

/-- A physical or logical interface. -/
structure Interface where
  name : String
  ip : Option String := none
  mask : Option String := none
  /-- What rules and routes call the interface: its `nameif`, its alias, or its comment. -/
  nickname : Option String := none
  /-- Free text beside the nickname, in the dialects that have both. -/
  comment : Option String := none
  securityLevel : Option UInt8 := none
  zone : Option String := none
  vlan : Option UInt16 := none
  enabled : Bool := true
deriving DecidableEq, Repr

/-- The address with its mask, where both are known. -/
def Interface.address? (i : Interface) : Option (String × String) :=
  match i.ip, i.mask with
  | some ip, some mask => some (ip, mask)
  | _, _ => none

/-- A named set of interfaces. -/
structure Zone where
  name : String
  interfaces : List String := []
  description : Option String := none
deriving DecidableEq, Repr

/-- A static route.  A route that is given twice is there twice. -/
structure Route where
  name : Option String := none
  network : String
  mask : String
  gateway : Option String := none
  interface : Option String := none
  distance : Option UInt16 := none
  description : Option String := none
deriving DecidableEq, Repr

/-- The route matches every address. -/
def Route.isDefault (r : Route) : Bool := r.network == "0.0.0.0" && r.mask == "0.0.0.0"

end FirewallConfig
