import FirewallConfig.Address.IPv4
import FirewallConfig.Address.Network
import FirewallConfig.Text.Case

/-!
# Address/Endpoint — what the text of a group member or of a rule's source means

Groups and rules hold endpoints as text.  `Endpoint.classify` reads one as everything, an address,
a network or a name, and `Endpoint.text` writes it in one form for each of these.
-/

namespace FirewallConfig

/-- What the text of an endpoint means. -/
inductive Endpoint where
  /-- Every address. -/
  | any
  /-- One address. -/
  | host (address : String)
  /-- The addresses of a network. -/
  | network (n : Network)
  /-- Whatever the name stands for. -/
  | named (name : String)
deriving DecidableEq, Repr

/-- The text of an endpoint or a service that means everything. -/
def anyText : String := "any"

namespace Endpoint

/-- Reads the text of an endpoint.  A keyword comes first, then the spellings of a network, then an
address; any other text is a name. -/
def classify (s : String) : Endpoint :=
  let s := Text.trim s
  if s.isEmpty || Text.sameIgnoringCase s anyText || s == "any4" then .any
  else
    match (Network.read? s).filter fun n => isIPv4 n.address with
    | some n => .network n
    | none => if isIPv4 s then .host s else .named s

/-- The name that an endpoint refers to, if it is one. -/
def name? : Endpoint → Option String
  | .named name => some name
  | _ => none

/-- The text of an endpoint. -/
def text : Endpoint → String
  | .any => anyText
  | .host address => address
  | .network n => n.cidr
  | .named name => name

/-- The text of an endpoint in the form that `text` gives. -/
def normalize (s : String) : String := (classify s).text

end Endpoint

end FirewallConfig
