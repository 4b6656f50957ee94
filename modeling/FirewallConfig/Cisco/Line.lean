import FirewallConfig.Text.Cut
import FirewallConfig.Text.Words

/-!
# Cisco/Line — a line of a configuration, and the two flavors of its grammar

A line is looked at in two ways: as its words, which say what it is, and as its text, of which
remarks and descriptions keep the spacing.
-/

namespace FirewallConfig.Cisco

/-- The two products that share the line-directive grammar. -/
inductive Flavor where
  | asa
  | ftd
deriving DecidableEq, Repr

/-- A line of a configuration. -/
structure Line where
  /-- The line without the blanks at its ends. -/
  text : String
  words : List String
  /-- The line began with a blank. -/
  indented : Bool
deriving DecidableEq, Repr

namespace Line

/-- The line as it stands in a text. -/
def ofText (raw : String) : Line where
  text := Text.trim raw
  words := Text.words raw
  indented := Text.isIndented raw

/-- What follows the first `k` words, with its spacing. -/
def after (l : Line) (k : Nat) : String := Text.textAfter k l.text

end Line

end FirewallConfig.Cisco
