import FirewallConfig.Text.Case
import FirewallConfig.Text.Blank

/-!
# Dialect — the four configuration dialects and the ids that name them

A dialect is named by its id, in any case and with blanks around it; `Dialect.ofId?` reads one and
`Dialect.id` writes it.
-/

namespace FirewallConfig

/-- A configuration dialect.  The order of the constructors is the order in which pairs of dialects
are listed. -/
inductive Dialect where
  | ciscoAsa
  | ciscoFtd
  | fortiGate
  | paloAlto
deriving DecidableEq, Repr

namespace Dialect

/-- Every dialect, in order. -/
def all : List Dialect := [.ciscoAsa, .ciscoFtd, .fortiGate, .paloAlto]

/-- The id of a dialect. -/
def id : Dialect → String
  | .ciscoAsa => "cisco-asa"
  | .ciscoFtd => "cisco-ftd"
  | .fortiGate => "fortigate"
  | .paloAlto => "palo-alto"

/-- The product that speaks the dialect, as headers and notes call it. -/
def product : Dialect → String
  | .ciscoAsa => "Cisco ASA"
  | .ciscoFtd => "Cisco FTD"
  | .fortiGate => "FortiGate"
  | .paloAlto => "Palo Alto"

/-- The dialect with an id. -/
def ofId? (s : String) : Option Dialect :=
  all.find? fun d => Text.sameIgnoringCase d.id (Text.trim s)

/-- What is said of an id that no dialect has; the id is repeated as it was given. -/
def unknownMessage (s : String) : String := "unsupported vendor: " ++ s

/-- The two dialects of the line-directive family. -/
def isCisco : Dialect → Bool
  | .ciscoAsa | .ciscoFtd => true
  | .fortiGate | .paloAlto => false

end Dialect

end FirewallConfig
