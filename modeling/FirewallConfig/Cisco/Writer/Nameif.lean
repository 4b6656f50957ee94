import FirewallConfig.Config.Basic

/-!
# Cisco/Writer/Nameif — what interfaces are called in rules, routes and translations

Every interface is written with a `nameif`, and what refers to an interface is written with it too.
A reference to no interface of the configuration is written as it is.
-/

namespace FirewallConfig.Cisco

/-- The name with every slash made an underscore. -/
def withoutSlashes (name : String) : String :=
  String.ofList (name.toList.map fun c => if c == '/' then '_' else c)

/-- The zone of an interface that is in it alone. -/
def ownZone? (c : Config) (i : Interface) : Option String :=
  i.zone.filter fun zone => c.interfaces.countP (·.zone == some zone) == 1

/-- What an interface is called: its nickname, else the zone that it alone is in, else its name. -/
def nameif (c : Config) (i : Interface) : String :=
  match i.nickname.filter (!·.isEmpty), ownZone? c i with
  | some nickname, _ => nickname
  | none, some zone => zone
  | none, none => withoutSlashes i.name

/-- What the interface that a reference means is called. -/
def nameifOf (c : Config) (reference : String) : String :=
  match c.findInterface? reference with
  | some i => nameif c i
  | none => reference

/-- What the interface that a reference means is called, where `default` stands for a missing
reference. -/
def nameifOr (c : Config) (default : String) (reference : Option String) : String :=
  match reference with
  | some reference => nameifOf c reference
  | none => default

/-- The interface that routes, translations and tunnels leave by. -/
def egress : String := "outside"

/-- The interface that management hosts are reached by. -/
def managementInterface : String := "inside"

/-- The security level that is written: the one that is known, or the one that the name of the
interface implies. -/
def securityLevel (c : Config) (i : Interface) : Option UInt8 :=
  i.securityLevel.or <|
    match nameif c i with
    | "inside" | "trust" => some 100
    | "outside" | "untrust" => some 0
    | _ => none

end FirewallConfig.Cisco
