import FirewallConfig.Cisco.Writer
import FirewallConfig.FortiOs.Writer
import FirewallConfig.PanOs.Writer

/-!
# Writer — writing a configuration in any dialect

Writing never fails: what a dialect has no place for is remarked on.
-/

namespace FirewallConfig.Dialect

/-- The text of a configuration that comes from the dialect `origin`. -/
def write (target origin : Dialect) (c : Config) : String :=
  match target with
  | .ciscoAsa => Cisco.write .asa origin c
  | .ciscoFtd => Cisco.write .ftd origin c
  | .fortiGate => FortiOs.write origin c
  | .paloAlto => PanOs.write origin c

end FirewallConfig.Dialect
