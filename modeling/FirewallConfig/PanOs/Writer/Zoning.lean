import FirewallConfig.Config.Basic

/-!
# PanOs/Writer/Zoning — the zones that are written

Rules name zones, and so every interface has to be in one.  The zones of the configuration are
written if it has any; else there are three, and each interface is put in the one that its zone, its
nickname or its security level suggests.
-/

namespace FirewallConfig.PanOs

/-- The zones that stand in where a configuration has none. -/
inductive FallbackZone where
  | trust
  | untrust
  | dmz
deriving DecidableEq, Repr

namespace FallbackZone

/-- The fallback zones, in order. -/
def all : List FallbackZone := [.trust, .untrust, .dmz]

/-- The name of the zone. -/
def name : FallbackZone → String
  | .trust => "trust"
  | .untrust => "untrust"
  | .dmz => "dmz"

/-- The zone that a word suggests, in any case. -/
def ofHint? (hint : String) : Option FallbackZone :=
  match Text.lower hint with
  | "trust" | "inside" => some .trust
  | "untrust" | "outside" => some .untrust
  | "dmz" => some .dmz
  | _ => none

/-- The zone that a security level suggests. -/
def ofLevel : Option UInt8 → FallbackZone
  | some 100 => .trust
  | some 0 => .untrust
  | _ => .dmz

/-- The zone of an interface. -/
def ofInterface (i : Interface) : FallbackZone :=
  ((i.zone.bind ofHint?).or (i.nickname.bind ofHint?)).getD (ofLevel i.securityLevel)

end FallbackZone

/-- The zones that are written. -/
def writtenZones (c : Config) : List Zone :=
  if !c.zones.isEmpty then c.zones
  else if c.interfaces.isEmpty then []
  else FallbackZone.all.map fun z =>
    { name := z.name
      interfaces := (c.interfaces.filter (FallbackZone.ofInterface · == z)).map (·.name) }

/-- The zone that a reference of a rule means: a zone of that name, else the zone of the interface
that it means, else any. -/
def zoneName (c : Config) (reference : Option String) : String :=
  match reference with
  | none => anyText
  | some reference =>
    if (writtenZones c).any (·.name == reference) then reference
    else
      let zone := (c.findInterface? reference).bind fun i =>
        (writtenZones c).find? fun z => z.interfaces.contains i.name
      (zone.map (·.name)).getD anyText

end FirewallConfig.PanOs
