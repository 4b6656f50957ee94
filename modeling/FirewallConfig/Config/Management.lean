import FirewallConfig.Text.Case
import FirewallConfig.Text.Cut

/-!
# Config/Management — accounts, servers and the management plane
-/

namespace FirewallConfig

/-- The secret was encrypted by the device that it comes from, so that no other device can use
it. -/
def isSealed (secret : String) : Bool := Text.beginsWith "ENC " secret

/-- Credentials and identity of the device as a whole. -/
structure Device where
  enablePassword : Option String := none
  password : Option String := none
  domain : Option String := none
  timezone : Option String := none
deriving DecidableEq, Repr

/-- A local account.  Its secret is kept as it was written. -/
structure User where
  username : String
  secret : Option String := none
  privilege : UInt8
  role : Option String := none
deriving DecidableEq, Repr

/-- The privilege of an administrator. -/
def User.fullPrivilege : UInt8 := 15

/-- The privilege of an account that is no administrator. -/
def User.readOnlyPrivilege : UInt8 := 1

/-- A server that accounts are checked against. -/
structure AaaServer where
  name : String
  protocol : String := "ldap"
  interface : Option String := none
  host : Option String := none
  port : String := "389"
  baseDn : Option String := none
  description : Option String := none
deriving DecidableEq, Repr

/-- The server speaks LDAP. -/
def AaaServer.isLdap (s : AaaServer) : Bool := Text.sameIgnoringCase s.protocol "ldap"

/-- Where log messages go, and from which severity on. -/
structure LogTarget where
  target : String
  level : String := "informational"
  host : Option String := none
  interface : Option String := none
deriving DecidableEq, Repr

/-- An SNMP community, with the host that polls it. -/
structure SnmpSetting where
  community : String := "public"
  version : String := "2c"
  host : Option String := none
  interface : Option String := none
deriving DecidableEq, Repr

/-- A line about management access. -/
inductive AccessSetting where
  /-- The network from which the device may be managed. -/
  | allow (address mask interface : String)
  /-- Any other setting, such as a timeout. -/
  | option (key value : String)
deriving DecidableEq, Repr

/-- A line about the clock. -/
structure ClockSetting where
  key : String
  value : String
deriving DecidableEq, Repr

/-- The settings of the management plane, each list in order. -/
structure Management where
  logging : List LogTarget := []
  snmp : List SnmpSetting := []
  ssh : List AccessSetting := []
  http : List AccessSetting := []
  clock : List ClockSetting := []
deriving DecidableEq, Repr

/-- There are no settings of any kind. -/
def Management.isEmpty (m : Management) : Bool :=
  m.logging.isEmpty && m.snmp.isEmpty && m.ssh.isEmpty && m.http.isEmpty && m.clock.isEmpty

end FirewallConfig
