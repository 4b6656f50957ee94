import FirewallConfig.Dialect

/-!
# Registry — the vendors and the conversions between them

A registry lists vendors, one for each dialect at most, and holds a cell for each pair of dialects
that it knows: whether configurations can be converted, and how much of them is expected to be lost.
A pair without a cell is not supported.
-/

namespace FirewallConfig

/-- How far apart two dialects are. -/
inductive Complexity where
  | low
  | medium
  | high
deriving DecidableEq, Repr

/-- The name of the level. -/
def Complexity.text : Complexity → String
  | .low => "low"
  | .medium => "medium"
  | .high => "high"

/-- The level with a name. -/
def Complexity.ofText? (s : String) : Option Complexity :=
  [low, medium, high].find? (·.text == s)

/-- A vendor: the dialect of its configurations, and what is said of it. -/
structure Vendor where
  dialect : Dialect
  name : String
  description : String := ""
  /-- How names of its files end, points included. -/
  extensions : List String := []
deriving DecidableEq, Repr

/-- What is known of the conversion between two dialects. -/
structure Cell where
  supported : Bool := true
  complexity : Complexity := .medium
deriving DecidableEq, Repr

/-- The vendors in the order in which they are listed, and the cell of a source and a target. -/
structure Registry where
  vendors : List Vendor
  cell? : Dialect → Dialect → Option Cell

/-- A target as it is listed for some source. -/
structure Target where
  vendor : Vendor
  cell : Cell
deriving DecidableEq, Repr

namespace Registry

/-- The vendor of a dialect. -/
def vendorOf? (r : Registry) (d : Dialect) : Option Vendor := r.vendors.find? (·.dialect == d)

/-- The vendor with an id. -/
def vendor? (r : Registry) (id : String) : Option Vendor := (Dialect.ofId? id).bind r.vendorOf?

/-- The complexity of a conversion that is supported. -/
def conversion? (r : Registry) (source target : Dialect) : Option Complexity :=
  match r.cell? source target with
  | some cell => if cell.supported then some cell.complexity else none
  | none => none

/-- The vendors that have a cell for the source with an id, in order; none if no vendor has the
id. -/
def targets (r : Registry) (source : String) : List Target :=
  match r.vendor? source with
  | some v => r.vendors.filterMap fun w => (r.cell? v.dialect w.dialect).map fun cell => ⟨w, cell⟩
  | none => []

/-- The pairs that are supported, whether or not their vendors are listed. -/
def supportedPairs (r : Registry) : List (Dialect × Dialect × Complexity) :=
  Dialect.all.flatMap fun s => Dialect.all.filterMap fun t =>
    (r.conversion? s t).map fun complexity => (s, t, complexity)

/-! ## The registry that is used when no other is given -/

/-- The vendors that are known without being told. -/
def knownVendors : List Vendor :=
  [{ dialect := .ciscoAsa, name := "Cisco ASA", description := "Cisco Adaptive Security Appliance"
     extensions := [".txt", ".cfg"] },
   { dialect := .ciscoFtd, name := "Cisco FTD", description := "Cisco Firepower Threat Defense"
     extensions := [".txt", ".cfg"] },
   { dialect := .fortiGate, name := "FortiGate", description := "FortiGate Next-Generation Firewall"
     extensions := [".conf", ".txt", ".cfg"] },
   { dialect := .paloAlto, name := "Palo Alto", description := "Palo Alto Networks PAN-OS"
     extensions := [".xml", ".txt"] }]

/-- Each dialect converts to each other one; the two Cisco dialects are the closest. -/
def builtin : Registry where
  vendors := knownVendors
  cell? source target :=
    if source = target then none
    else some { complexity := if source.isCisco && target.isCisco then .medium else .high }

end Registry

end FirewallConfig
