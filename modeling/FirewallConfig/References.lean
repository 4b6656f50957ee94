import FirewallConfig.Config.Basic

/-!
# References — names that a configuration uses and does not declare

A member of an address group that is neither a literal nor declared is an error; an endpoint of a
rule that is not declared is a warning, since rules may name objects that are kept elsewhere.
-/

namespace FirewallConfig

/-- How grave a finding is. -/
inductive Severity where
  | error
  | warning
deriving DecidableEq, Repr

/-- The name of the severity. -/
def Severity.text : Severity → String
  | .error => "error"
  | .warning => "warning"

/-- Which end of a rule an endpoint stands at. -/
inductive Side where
  | source
  | destination
deriving DecidableEq, Repr

/-- The name of the side. -/
def Side.text : Side → String
  | .source => "source"
  | .destination => "destination"

/-- A use of a name that is not declared. -/
inductive Finding where
  /-- A member of an address group. -/
  | groupMember (group name : String)
  /-- An endpoint of a rule, which is called by its label. -/
  | policyEndpoint (label : String) (side : Side) (name : String)
deriving DecidableEq, Repr

namespace Finding

/-- Undeclared members of groups are errors, undeclared endpoints of rules are not. -/
def severity : Finding → Severity
  | .groupMember .. => .error
  | .policyEndpoint .. => .warning

/-- The fixed name of the kind of finding. -/
def code : Finding → String
  | .groupMember .. => "missing_group_member"
  | .policyEndpoint .. => "missing_policy_reference"

/-- What is said of the finding. -/
def message : Finding → String
  | .groupMember group name => s!"address group '{group}' references '{name}' that is not declared"
  | .policyEndpoint label side name =>
    s!"policy '{label}' {side.text} references '{name}' that is not declared"

/-- The finding is an error. -/
def isError (f : Finding) : Bool := f.severity == .error

end Finding

/-- The names that every dialect reads as everything. -/
def builtinNames : List String := ["any", "all", "any4", "any6"]

namespace Config

/-- The name that the text of an endpoint refers to, if it refers to one that is not declared. -/
def unresolved? (c : Config) (endpoint : String) : Option String :=
  let name := Text.trim endpoint
  if builtinNames.any (Text.sameIgnoringCase name) then none
  else
    match Endpoint.classify name with
    | .named _ => if c.declares name then none else some name
    | _ => none

/-- The members of address groups that refer to nothing, in order. -/
def groupFindings (c : Config) : List Finding :=
  c.addressGroups.flatMap fun g =>
    g.members.filterMap fun m => (c.unresolved? m).map (.groupMember g.name)

/-- The endpoints of rules that refer to nothing, in order, sources before destinations. -/
def policyFindings (c : Config) : List Finding :=
  c.policies.zipIdx.flatMap fun (p, position) =>
    let found := fun side texts =>
      texts.filterMap fun t => (c.unresolved? t).map (.policyEndpoint (p.label position) side)
    found .source p.source ++ found .destination p.destination

/-- Every finding: those of groups first. -/
def findings (c : Config) : List Finding := c.groupFindings ++ c.policyFindings

end Config

/-- How many of some findings are errors. -/
def errorCount (fs : List Finding) : Nat := fs.countP Finding.isError

/-- How many of some findings are warnings. -/
def warningCount (fs : List Finding) : Nat := fs.length - errorCount fs

end FirewallConfig
