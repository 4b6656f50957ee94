import FirewallConfig.Cisco.AccessList
import FirewallConfig.Cisco.Translation
import FirewallConfig.Config.Interface
import FirewallConfig.Config.Vpn

/-!
# Cisco/Directive — what a line at the top level says

`Directive.read` turns a line into a directive with its operands already read.  A directive whose
operands make no sense is still that directive: it ends the block above it, and changes nothing.
`Flavor.enables` says which directives each product has.
-/

namespace FirewallConfig.Cisco

/-- What a `crypto map` line says about the map of its name. -/
inductive CryptoMapLine where
  /-- The map serves an interface. -/
  | bind (interface : String)
  /-- The entry of a sequence number is opened, or given one setting. -/
  | entry (sequence : UInt32) (setting : List String)
  | unreadable
deriving DecidableEq, Repr

/-- A line at the top level. -/
inductive Directive where
  /-- A line that begins with an exclamation mark: the end of a block. -/
  | bang
  | hostname (name : String)
  | domainName (name : String)
  | interface (name : String)
  | objectNetwork (name : String)
  | objectService (name : String)
  | objectGroupNetwork (name : String)
  | accessList (acl : String) (line : AclLine)
  | accessGroup (binding : Option AccessBinding)
  | route (route : Option Route)
  | nat (rule : Option NatRule)
  | pool (rule : Option NatRule)
  | staticNat (rule : Option NatRule)
  | ikePolicy (priority : String)
  | transformSet (set : Option TransformSet)
  | cryptoMap (map : String) (line : CryptoMapLine)
  | aaaServer (name : String) (operands : List String)
  | groupPolicy (name kind : String)
  | tunnelGroup (name : String) (operands : List String)
  | username (user : Option User)
  | enablePassword (secret : String)
  | password (secret : String)
  | logging (target : LogTarget)
  | snmpServer (setting : Option SnmpSetting)
  | ssh (setting : AccessSetting)
  | http (setting : AccessSetting)
  | clock (setting : ClockSetting)
  /-- The head of a class map or a policy map. -/
  | profile (kind name : String)
  | other
deriving DecidableEq, Repr

/-! ## Operands -/

/-- Reads what follows `access-group`. -/
def readAccessGroup : List String → Option AccessBinding
  | acl :: direction :: "interface" :: interface :: _ => some { acl, direction, interface }
  | acl :: "global" :: _ => some { acl, direction := "global", interface := "" }
  | _ => none

/-- Reads what follows `route`: network, mask, gateway and perhaps an interface, or an interface,
network, mask, gateway and perhaps a distance. -/
def readRoute : List String → Option Route
  | first :: second :: third :: rest =>
    if isIPv4 first then
      some { network := first, mask := second, gateway := some third, interface := rest.head? }
    else
      match rest with
      | gateway :: rest =>
        some
          { network := second, mask := third, gateway := some gateway, interface := some first
            distance := rest.head?.bind Text.readUInt16 }
      | [] => none
  | _ => none

/-- The algorithm that a transform names, without its fixed beginning and end. -/
def transformAlgorithm (transform : String) : String :=
  let value := (Text.withoutPrefix "esp-" transform).getD transform
  (Text.withoutSuffix "-hmac" value).getD value

/-- Reads what follows the first word `transform-set`. -/
def readTransformSet : List String → Option TransformSet
  | [] => none
  | [name] => some { name }
  | [name, encryption] => some { name, encryption := transformAlgorithm encryption }
  | name :: encryption :: hash :: _ =>
    some { name, encryption := transformAlgorithm encryption, hash := transformAlgorithm hash }

/-- Reads what follows the name of a crypto map. -/
def readCryptoMap (operand : String) (rest : List String) : CryptoMapLine :=
  match operand, rest with
  | "interface", interface :: _ => .bind interface
  | operand, setting =>
    match Text.readUInt32 operand with
    | some sequence => .entry sequence setting
    | none => .unreadable

/-- Each word with the word that follows it. -/
def neighbours (words : List String) : List (String × String) := words.zip words.tail

/-- Adds what a keyword and the word after it say about an account. -/
def withUserSetting (u : User) : String × String → User
  | ("password", secret) | ("secret", secret) => { u with secret := some secret }
  | ("privilege", level) =>
    { u with privilege := (Text.readUInt8 level).getD User.fullPrivilege }
  | _ => u

/-- The words that mark the settings of an account. -/
def userKeywords : List String := ["password", "secret", "privilege", "nopassword"]

/-- Reads what follows `username`: settings with keywords, or a secret and perhaps a privilege. -/
def readUser (username : String) (rest : List String) : Option User :=
  if rest.head? == some "attributes" then none
  else if rest.any userKeywords.contains then
    some <| (neighbours rest).foldl withUserSetting { username, privilege := User.fullPrivilege }
  else
    some
      { username
        secret := rest.head?
        privilege := (rest[1]?.bind Text.readUInt8).getD User.fullPrivilege }

/-- Reads what follows `logging`. -/
def readLogging : String → List String → LogTarget
  | "host", interface :: host :: _ =>
    { target := "host", host := some host, interface := some interface }
  | target, level :: _ => { target, level }
  | target, [] => { target }

/-- Adds what a keyword and the word after it say about an SNMP host. -/
def withSnmpSetting (s : SnmpSetting) : String × String → SnmpSetting
  | ("community", community) => { s with community }
  | ("version", version) => { s with version }
  | _ => s

/-- Reads what follows `snmp-server`. -/
def readSnmp : List String → Option SnmpSetting
  | "host" :: interface :: host :: rest =>
    some <| (neighbours rest).foldl withSnmpSetting
      { host := some host, interface := some interface }
  | "community" :: community :: _ => some { community }
  | _ => none

/-- The name of a class map or a policy map: the first word that is no qualifier. -/
def profileName (operands : List String) : String :=
  (operands.find? fun w => !(["type", "match-any", "match-all", "inspect"].contains w)).getD ""

/-! ## Reading a line -/

namespace Directive

/-- Reads a line that does not begin with an exclamation mark. -/
def readWords (l : Line) : List String → Directive
  | "hostname" :: name :: _ => .hostname name
  | "domain-name" :: name :: _ => .domainName name
  | "interface" :: name :: _ => .interface name
  | "object" :: "network" :: name :: _ => .objectNetwork name
  | "object" :: "service" :: name :: _ => .objectService name
  | "object-group" :: "network" :: name :: _ => .objectGroupNetwork name
  | "access-list" :: acl :: word :: rest => .accessList acl (readAccessList l (word :: rest))
  | "access-group" :: word :: rest => .accessGroup (readAccessGroup (word :: rest))
  | "route" :: word :: rest => .route (readRoute (word :: rest))
  | "nat" :: word :: rest => .nat (readNat none (word :: rest))
  | "global" :: word :: rest => .pool (readPool (word :: rest))
  | "static" :: word :: rest => .staticNat (readStatic (word :: rest))
  | "crypto" :: "isakmp" :: "policy" :: priority :: _
  | "crypto" :: "ikev1" :: "policy" :: priority :: _
  | "crypto" :: "ikev2" :: "policy" :: priority :: _ => .ikePolicy priority
  | "crypto" :: "ipsec" :: rest =>
    match rest.dropWhile (· != "transform-set") with
    | _ :: operands => .transformSet (readTransformSet operands)
    | [] => .other
  | "crypto" :: "map" :: name :: operand :: rest => .cryptoMap name (readCryptoMap operand rest)
  | "aaa-server" :: name :: word :: rest => .aaaServer name (word :: rest)
  | "group-policy" :: name :: kind :: _ => .groupPolicy name kind
  | "tunnel-group" :: name :: word :: rest => .tunnelGroup name (word :: rest)
  | "username" :: name :: rest => .username (readUser name rest)
  | "enable" :: "password" :: secret :: _ => .enablePassword secret
  | "passwd" :: secret :: _ => .password secret
  | "logging" :: target :: rest => .logging (readLogging target rest)
  | "snmp-server" :: word :: rest => .snmpServer (readSnmp (word :: rest))
  | "ssh" :: word :: rest => .ssh (readAccessSetting (word :: rest))
  | "http" :: word :: rest => .http (readAccessSetting (word :: rest))
  | "clock" :: key :: _ => .clock { key, value := l.after 2 }
  | "class-map" :: operands => .profile "class-map" (profileName operands)
  | "policy-map" :: operands => .profile "policy-map" (profileName operands)
  | _ => .other

/-- Reads a line. -/
def read (l : Line) : Directive :=
  if l.words.head?.any (Text.beginsWith "!") then .bang else readWords l l.words

end Directive

/-- The product has the directive. -/
def Flavor.enables : Flavor → Directive → Bool
  | .asa, .profile .. => false
  | .ftd, .ikePolicy _ | .ftd, .transformSet _ | .ftd, .cryptoMap .. | .ftd, .aaaServer ..
  | .ftd, .groupPolicy .. | .ftd, .tunnelGroup .. | .ftd, .enablePassword _ | .ftd, .password _
  | .ftd, .pool _ | .ftd, .staticNat _ => false
  | _, _ => true

end FirewallConfig.Cisco
