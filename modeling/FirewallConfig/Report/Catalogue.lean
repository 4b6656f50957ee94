import FirewallConfig.Json.Value
import FirewallConfig.Registry.Basic
import FirewallConfig.Report.Ink

/-!
# Report/Catalogue — the vendors, and the targets of one of them
-/

namespace FirewallConfig

namespace Vendor

/-- What is said of a vendor, field by field. -/
def jsonFields (v : Vendor) : List (String × Json) :=
  [("id", .str v.dialect.id), ("name", .str v.name), ("description", .str v.description),
    ("extensions", .strings v.extensions)]

/-- A vendor as an object. -/
def toJson (v : Vendor) : Json := .obj v.jsonFields

/-- The extensions on one line. -/
def extensionList (v : Vendor) : String := ",".intercalate v.extensions

end Vendor

/-- A target as an object: its vendor, and what is known of the conversion. -/
def Target.toJson (t : Target) : Json :=
  .obj (t.vendor.jsonFields ++
    [("supported", .bool t.cell.supported), ("complexity", .str t.cell.complexity.text)])

namespace Report

/-- A line for each vendor. -/
def vendors (colours : Bool) (vs : List Vendor) : String :=
  let line := fun (v : Vendor) =>
    let id := Ink.bold.paint colours v.dialect.id
    s!"- {id} ({v.name}) extensions={v.extensionList} {v.description}"
  "\n".intercalate ("vendors" :: vs.map line)

/-- The line of a target; it is dimmed if the conversion is not supported. -/
def targetLine (colours : Bool) (t : Target) : String :=
  let id := t.vendor.dialect.id
  let complexity := t.cell.complexity.text
  let line := s!"- {id} ({t.vendor.name}) supported={t.cell.supported} complexity={complexity}"
  if t.cell.supported then line else Ink.dimmed.paint colours line

/-- A line for each target of a source, whose id is repeated as it was given. -/
def targets (colours : Bool) (source : String) (ts : List Target) : String :=
  let lines := if ts.isEmpty then ["- none"] else ts.map (targetLine colours)
  "\n".intercalate (s!"targets source={source}" :: lines)

end Report

end FirewallConfig
