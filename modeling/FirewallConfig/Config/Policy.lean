import FirewallConfig.Address.Endpoint

/-!
# Config/Policy — security rules

A rule says what happens to the traffic between two lists of endpoints for a list of services.  An
empty list means everything, and a rule without a name is called by its number or its place.
-/

namespace FirewallConfig

/-- What a rule does with the traffic it matches. -/
inductive Action where
  | permit
  | deny
deriving DecidableEq, Repr

namespace Action

/-- Reads an action: `permit`, `allow` and `accept`, in any case, permit; anything else denies. -/
def ofText (s : String) : Action :=
  let s := Text.trim s
  if ["permit", "allow", "accept"].any (Text.sameIgnoringCase s) then .permit else .deny

/-- The action lets traffic through. -/
def isPermit : Action → Bool
  | .permit => true
  | .deny => false

/-- The name of the action. -/
def text : Action → String
  | .permit => "permit"
  | .deny => "deny"

end Action

/-- A security rule.  The order of rules counts. -/
structure Policy where
  name : Option String := none
  /-- The number of the rule: its place in its list, or the number its dialect gave it. -/
  id : Option UInt32 := none
  action : Action := .deny
  protocol : String := "ip"
  source : List String := []
  destination : List String := []
  service : List String := []
  sourceZone : Option String := none
  destinationZone : Option String := none
  application : List String := []
  description : Option String := none
  enabled : Bool := true
  log : Bool := false
deriving DecidableEq, Repr

/-- The list itself, or `any` alone in place of an empty list. -/
def orAny (texts : List String) : List String := if texts.isEmpty then [anyText] else texts

namespace Policy

/-- The source endpoints. -/
def sources (p : Policy) : List String := orAny p.source

/-- The destination endpoints. -/
def destinations (p : Policy) : List String := orAny p.destination

/-- The services. -/
def services (p : Policy) : List String := orAny p.service

/-- What a rule is called: its name, else its number, else its place, counted from `position`. -/
def label (p : Policy) (position : Nat) : String :=
  match p.name, p.id with
  | some name, _ => name
  | none, some id => "rule-" ++ toString id.toNat
  | none, none => "rule-" ++ toString (position + 1)

/-- What a rule at a position is called among all rules: its label, and its place too where several
rules have the same name. -/
def labelAmong (rules : List Policy) (p : Policy) (position : Nat) : String :=
  let label := p.label position
  if p.name.isSome && 1 < rules.countP (·.name == p.name) then s!"{label}-{position + 1}"
  else label

end Policy

/-- An access list bound to an interface for a direction. -/
structure AccessBinding where
  acl : String
  direction : String
  /-- The interface; empty where the list is bound to all of them. -/
  interface : String
deriving DecidableEq, Repr

/-- A class map or a policy map, kept as its lines. -/
structure SecurityProfile where
  name : String
  kind : String
  lines : List String := []
deriving DecidableEq, Repr

/-- An application that the configuration defines. -/
structure Application where
  name : String
  category : Option String := none
  description : Option String := none
deriving DecidableEq, Repr

/-- A category of web addresses that the configuration defines. -/
structure UrlCategory where
  name : String
  urls : List String := []
  description : Option String := none
deriving DecidableEq, Repr

end FirewallConfig
