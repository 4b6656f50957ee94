import FirewallConfig.Census
import FirewallConfig.Json.Value
import FirewallConfig.References
import FirewallConfig.Report.Ink

/-!
# Report/Listing — what was found in one configuration, as lines of text
-/

namespace FirewallConfig.Report

/-- The hostname, one line for each category, and the total.  A category without entries is
dimmed. -/
def inspection (colours : Bool) (dialect : String) (c : Config) : String :=
  let census := c.census
  let hostname := c.hostname.getD "none"
  let head := s!"inspect vendor={dialect} hostname={hostname}"
  let category := fun (entry : String × Nat) =>
    let line := s!"- {entry.1}: {entry.2}"
    if entry.2 == 0 then Ink.dimmed.paint colours line else line
  "\n".intercalate (head :: census.counts.map category ++ [s!"total={census.total}"])

/-- The line of one finding. -/
def findingLine (colours : Bool) (f : Finding) : String :=
  let ink := match f.severity with
    | .error => Ink.red
    | .warning => Ink.yellow
  ink.paint colours s!"- [{f.severity.text}] {f.code}: {f.message}"

/-- The counts of findings and one line for each. -/
def findings (colours : Bool) (dialect : String) (fs : List Finding) : String :=
  let lines := if fs.isEmpty then ["- none"] else fs.map (findingLine colours)
  "\n".intercalate
    ([s!"check vendor={dialect}", s!"result errors={errorCount fs} warnings={warningCount fs}",
      "findings"] ++ lines)

/-- One finding, field by field. -/
def findingJson (f : Finding) : Json :=
  .obj [("severity", .str f.severity.text), ("code", .str f.code), ("message", .str f.message)]

/-- The counts of findings and the findings. -/
def findingsJson (fs : List Finding) : Json :=
  .obj [("errors", .num (errorCount fs)), ("warnings", .num (warningCount fs)),
    ("findings", .arr (fs.map findingJson))]

end FirewallConfig.Report
