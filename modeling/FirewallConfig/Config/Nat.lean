/-!
# Config/Nat — address translation
-/

namespace FirewallConfig

/-- How a rule translates addresses. -/
inductive NatKind where
  | dynamic
  | static
  /-- A pool of addresses that dynamic rules of the same id take theirs from. -/
  | pool
deriving DecidableEq, Repr

/-- The name of the kind. -/
def NatKind.text : NatKind → String
  | .dynamic => "dynamic"
  | .static => "static"
  | .pool => "global"

/-- A translation rule or a pool; both share one list. -/
structure NatRule where
  kind : NatKind := .dynamic
  name : Option String := none
  /-- The address or object before translation. -/
  source : Option String := none
  destination : Option String := none
  /-- The address, pool or `interface` that is put in its place. -/
  translated : Option String := none
  sourceInterface : Option String := none
  interface : Option String := none
  /-- The id that pairs a dynamic rule with its pool. -/
  natId : Option String := none
  description : Option String := none
deriving DecidableEq, Repr

/-- What a rule is called: its name, else its id, else its place, counted from `position`. -/
def NatRule.label (r : NatRule) (position : Nat) : String :=
  match r.name, r.natId with
  | some name, _ => name
  | none, some id => s!"nat-{id}"
  | none, none => s!"nat-{position + 1}"

end FirewallConfig
