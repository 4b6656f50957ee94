import FirewallConfig.Cisco.Writer.Nameif
import FirewallConfig.Cisco.Writer.Operand

/-!
# Cisco/Writer/Translation — translation rules and pools

A rule becomes a line `nat` inside the object it translates, which is one of its own if the
source is an address; a rule for everything, or for traffic to one destination, stands alone.
-/

namespace FirewallConfig.Cisco

/-- The object that is written for a translated address or network, `default` being its label where
the rule has no name. -/
def natObject (rule : NatRule) (default value : String) : List String :=
  let label := rule.name.getD default
  [s!"object network nat-{label}", value]

/-- The lines of a rule, without the bang that ends them. -/
def natRuleLines (c : Config) (rule : NatRule) (source : String) : List String :=
  let kind := rule.kind.text
  let translated := (rule.translated.or (c.pairedPool? rule)).getD "interface"
  let real := nameifOr c anyText rule.sourceInterface
  let mapped := nameifOr c egress rule.interface
  let interfaces := s!"({real},{mapped})"
  let inObject := s!" nat {interfaces} {kind} {translated}"
  let remarks := rule.description.toList.map ("! " ++ ·)
  remarks ++
    match Endpoint.classify source with
    | .any => [s!"nat {interfaces} after-auto source {kind} any {translated}"]
    | .host address => natObject rule address s!" host {address}" ++ [inObject]
    | .network n =>
      let length := Netmask.prefixOrDefault n.mask
      natObject rule s!"{n.address}-{length}" s!" subnet {n.address} {n.mask}" ++ [inObject]
    | .named name =>
      if !c.declares name then
        [notConverted
          s!"nat {interfaces} {kind} {name} {translated}, {name} is not a network object"]
      else
        match rule.destination.filter fun d => Endpoint.classify d != .any with
        | some destination =>
          [s!"nat {interfaces} source {kind} {name} {translated} "
            ++ s!"destination static {destination} {destination}"]
        | none => [s!"object network {name}", inObject]

/-- The remark about a pool that no rule takes its addresses from. -/
def poolLines (c : Config) (pool : NatRule) : List String :=
  if c.isPoolPaired pool then []
  else
    let label := (pool.name.or pool.natId).getD "pool"
    let addresses := pool.translated.getD ""
    [notConverted s!"address pool {label} {addresses}"]

/-- The lines of an entry of the list of rules and pools. -/
def natLines (c : Config) (rule : NatRule) : List String :=
  match rule.kind, rule.source with
  | .pool, _ => part (poolLines c rule)
  | _, some source => block (natRuleLines c rule source)
  | _, none => block [notConverted "NAT rule without a real address"]

end FirewallConfig.Cisco
