import FirewallConfig.Config.Basic
import FirewallConfig.Service.WellKnown

/-!
# Service/Literal — the services of rules, and those that a rule spells out

Where a dialect refers to services by name only, a port that a rule spells out is referred to by a
name made of its own text, unless the dialect has a predefined service for it.  `literalServices`
collects the services that have to be declared for that, each name once.
-/

namespace FirewallConfig

/-- What a service of a rule means.  A name that the configuration declares stays that name, also
where it is the name of a predefined service. -/
def Config.resolveService (c : Config) (service : String) : ServiceRef :=
  match ServiceRef.classify service with
  | .named name =>
    if (c.service? name).isSome then .named name
    else (wellKnownService name).getD (.named name)
  | ref => ref

/-- The name of the service of a port that is spelled out. -/
def literalName (protocol ports : String) : String := s!"{protocol}-{ports}"

/-- The service of a port that is spelled out, unless it is predefined. -/
def literalService? (predefined : String → String → Option String) :
    ServiceRef → Option ServiceObject
  | .port protocol ports =>
    if (predefined protocol ports).isSome then none
    else some { name := literalName protocol ports, protocol, port := some ports }
  | _ => none

/-- The services that rules spell out, in the order of use. -/
def Config.literalServices (c : Config) (predefined : String → String → Option String) :
    List ServiceObject :=
  (c.effectivePolicies.flatMap fun p =>
    p.services.filterMap fun s => literalService? predefined (c.resolveService s)).eraseDupsBy
      fun a b => a.name == b.name

end FirewallConfig
