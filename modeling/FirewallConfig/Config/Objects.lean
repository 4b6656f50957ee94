import FirewallConfig.Address.Network

/-!
# Config/Objects — named addresses, groups of them, and named services
-/

namespace FirewallConfig

/-- What the value of an address object is. -/
inductive AddressKind where
  | host
  | subnet
  | range
  | fqdn
deriving DecidableEq, Repr

/-- The name of the kind. -/
def AddressKind.text : AddressKind → String
  | .host => "host"
  | .subnet => "subnet"
  | .range => "range"
  | .fqdn => "fqdn"

/-- A named address.  Only a subnet has a mask; the value of a range is `start-end`. -/
structure AddressObject where
  name : String
  kind : AddressKind := .host
  value : String := ""
  mask : Option String := none
  description : Option String := none
deriving DecidableEq, Repr

/-- The object as one text: a subnet as `address/prefix`, a host as `address/32`, and otherwise the
value itself. -/
def AddressObject.cidr (o : AddressObject) : String :=
  match o.kind, o.mask with
  | .subnet, some mask => (Network.mk o.value mask).cidr
  | .host, _ => o.value ++ "/32"
  | _, _ => o.value

/-- A named list of endpoints, in order. -/
structure AddressGroup where
  name : String
  members : List String := []
  description : Option String := none
deriving DecidableEq, Repr

/-- A named service: a protocol and the ports of the destination. -/
structure ServiceObject where
  name : String
  protocol : String := ""
  port : Option String := none
  description : Option String := none
deriving DecidableEq, Repr

end FirewallConfig
