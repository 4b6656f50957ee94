import FirewallConfig.Conversion
import FirewallConfig.Json.Encode
import FirewallConfig.Census
import FirewallConfig.Report.Ink

/-!
# Report/Outcome — how a conversion went
-/

namespace FirewallConfig

/-- The counts by category. -/
def Census.toJson (n : Census) : Json := .obj (n.counts.map fun (name, k) => (name, .num k))

/-- One line on the vendors, and one of counts. -/
def Conversion.summary (colours : Bool) (c : Conversion) : String :=
  let head := s!"converted {c.source.name} -> {c.target.name} complexity={c.complexity.text}"
  Ink.green.paint colours head ++ "\n" ++ Ink.cyan.paint colours c.config.census.line

/-- The report on a conversion that succeeded: it holds all that is known. -/
def Conversion.toJson (c : Conversion) : Json :=
  .obj [("success", .bool true), ("source_vendor_name", .str c.source.name),
    ("target_vendor_name", .str c.target.name), ("complexity", .str c.complexity.text),
    ("stats", c.config.census.toJson), ("model", c.config.toJson), ("generated", .str c.output)]

/-- The report on a conversion that failed. -/
def ConversionFailure.toJson (f : ConversionFailure) : Json :=
  .obj [("success", .bool false), ("error", .str f.error.message),
    ("source_vendor_name", .optional f.source?), ("target_vendor_name", .optional f.target?)]

/-- The report on a conversion, whichever way it went. -/
def Report.outcome : Except ConversionFailure Conversion → Json
  | .ok c => c.toJson
  | .error f => f.toJson

end FirewallConfig
