import FirewallConfig.Config.Basic
import FirewallConfig.Service.ServiceRef
import Mathlib.Data.Set.Lattice

/-!
# Proofs/Service/Traffic — what services let through

A service denotes a set of pairs of a protocol and a port (`ServiceRef.traffic`), and a rule that of
all its services together (`Config.ruleTraffic`).  A name is looked up among the services of the
configuration, and denotes nothing where none is declared under it.
-/

namespace FirewallConfig

/-- A protocol with a port. -/
structure Traffic where
  protocol : String
  port : UInt16

namespace Text

/-- The first and the last port of a range; a port alone is both. -/
def portRange? (piece : String) : Option (UInt16 × UInt16) :=
  match readUInt16 (rangeEnds piece).1, readUInt16 (rangeEnds piece).2 with
  | some first, some last => some (first, last)
  | _, _ => none

/-- The ranges of a list of ports; what is no range of ports adds none. -/
def portRanges (ports : String) : List (UInt16 × UInt16) :=
  (pieces ',' ports).filterMap fun piece => portRange? (trim piece)

/-- The ports that a list of ports and of ranges of them means. -/
def portSet (ports : String) : Set UInt16 := {p | ∃ r ∈ portRanges ports, r.1 ≤ p ∧ p ≤ r.2}

instance (ports : String) (p : UInt16) : Decidable (p ∈ portSet ports) :=
  inferInstanceAs (Decidable (∃ r ∈ portRanges ports, r.1 ≤ p ∧ p ≤ r.2))

end Text

/-- All of a protocol, and `ip` is all of them. -/
def protocolTraffic (name : String) : Set Traffic := {x | name = "ip" ∨ x.protocol = name}

/-- Ports of a protocol. -/
def portTraffic (name ports : String) : Set Traffic :=
  {x | x ∈ protocolTraffic name ∧ x.port ∈ Text.portSet ports}

instance (name : String) (x : Traffic) : Decidable (x ∈ protocolTraffic name) :=
  inferInstanceAs (Decidable (name = "ip" ∨ x.protocol = name))

instance (name ports : String) (x : Traffic) : Decidable (x ∈ portTraffic name ports) :=
  inferInstanceAs (Decidable (x ∈ protocolTraffic name ∧ x.port ∈ Text.portSet ports))

/-- What a service denotes, which is all of its protocol where it gives no ports. -/
def ServiceObject.traffic (o : ServiceObject) : Set Traffic :=
  match o.port with
  | none => protocolTraffic o.protocol
  | some ports => portTraffic o.protocol ports

/-- What a service of a rule denotes among the services that are declared. -/
def ServiceRef.traffic (c : Config) : ServiceRef → Set Traffic
  | .any => Set.univ
  | .protocol name => protocolTraffic name
  | .port name ports => portTraffic name ports
  | .named name => ((c.service? name).map ServiceObject.traffic).getD ∅

namespace Config

variable (c : Config)

/-- What the services of a rule denote together. -/
def ruleTraffic (p : Policy) : Set Traffic :=
  ⋃ s ∈ p.services, (ServiceRef.classify s).traffic c

/-- A rule without services is one for everything. -/
theorem ruleTraffic_of_eq_nil {p : Policy} (h : p.service = []) : c.ruleTraffic p = Set.univ := by
  have hservices : p.services = [anyText] := by rw [Policy.services, h, orAny]; rfl
  have hany : ServiceRef.classify anyText = .any := by decide
  rw [ruleTraffic, hservices]
  simp [hany, ServiceRef.traffic]

theorem ruleTraffic_of_ne_nil {p : Policy} (h : p.service ≠ []) :
    c.ruleTraffic p = ⋃ s ∈ p.service, (ServiceRef.classify s).traffic c := by
  have hservices : p.services = p.service := if_neg (mt List.isEmpty_iff.1 h)
  rw [ruleTraffic, hservices]

end Config

end FirewallConfig
