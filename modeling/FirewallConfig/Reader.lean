import FirewallConfig.Cisco.Reader
import FirewallConfig.Dialect
import FirewallConfig.FortiOs.Reader
import FirewallConfig.PanOs.Reader

/-!
# Reader — reading a configuration in any dialect

Reading never fails: what a reader does not know, it leaves out.
-/

namespace FirewallConfig.Dialect

/-- The configuration that a text of the dialect holds. -/
def read : Dialect → String → Config
  | .ciscoAsa => Cisco.read .asa
  | .ciscoFtd => Cisco.read .ftd
  | .fortiGate => FortiOs.read
  | .paloAlto => PanOs.read

end FirewallConfig.Dialect
