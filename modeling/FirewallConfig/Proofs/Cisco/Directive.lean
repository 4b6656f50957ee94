import FirewallConfig.Cisco.Directive

/-!
# Proofs/Cisco/Directive — the words that a directive is read from

Each directive has a form of its own, given by the first words of a line, and the words behind them
are its operands (`Reads`).  The forms are told apart once (`reads_readWords`), and what is shown for
each form holds of every line.
-/

namespace FirewallConfig.Cisco.Directive

/-- The words have the form of the directive, and its operands are read from them.  Words of any
form may say nothing. -/
inductive Reads (l : Line) : List String → Directive → Prop
  | hostname (name : String) (rest : List String) :
    Reads l ("hostname" :: name :: rest) (.hostname name)
  | domainName (name : String) (rest : List String) :
    Reads l ("domain-name" :: name :: rest) (.domainName name)
  | interface (name : String) (rest : List String) :
    Reads l ("interface" :: name :: rest) (.interface name)
  | objectNetwork (name : String) (rest : List String) :
    Reads l ("object" :: "network" :: name :: rest) (.objectNetwork name)
  | objectService (name : String) (rest : List String) :
    Reads l ("object" :: "service" :: name :: rest) (.objectService name)
  | objectGroupNetwork (name : String) (rest : List String) :
    Reads l ("object-group" :: "network" :: name :: rest) (.objectGroupNetwork name)
  | accessList (acl word : String) (rest : List String) :
    Reads l ("access-list" :: acl :: word :: rest) (.accessList acl (readAccessList l (word :: rest)))
  | accessGroup (word : String) (rest : List String) :
    Reads l ("access-group" :: word :: rest) (.accessGroup (readAccessGroup (word :: rest)))
  | route (word : String) (rest : List String) :
    Reads l ("route" :: word :: rest) (.route (readRoute (word :: rest)))
  | nat (word : String) (rest : List String) :
    Reads l ("nat" :: word :: rest) (.nat (readNat none (word :: rest)))
  | pool (word : String) (rest : List String) :
    Reads l ("global" :: word :: rest) (.pool (readPool (word :: rest)))
  | staticNat (word : String) (rest : List String) :
    Reads l ("static" :: word :: rest) (.staticNat (readStatic (word :: rest)))
  | ikePolicy {version : String} (hversion : version ∈ ["isakmp", "ikev1", "ikev2"])
    (priority : String) (rest : List String) :
    Reads l ("crypto" :: version :: "policy" :: priority :: rest) (.ikePolicy priority)
  | transformSet {word : String} {operands rest : List String}
    (hrest : rest.dropWhile (· != "transform-set") = word :: operands) :
    Reads l ("crypto" :: "ipsec" :: rest) (.transformSet (readTransformSet operands))
  | cryptoMap (map operand : String) (rest : List String) :
    Reads l ("crypto" :: "map" :: map :: operand :: rest) (.cryptoMap map (readCryptoMap operand rest))
  | aaaServer (name word : String) (rest : List String) :
    Reads l ("aaa-server" :: name :: word :: rest) (.aaaServer name (word :: rest))
  | groupPolicy (name kind : String) (rest : List String) :
    Reads l ("group-policy" :: name :: kind :: rest) (.groupPolicy name kind)
  | tunnelGroup (name word : String) (rest : List String) :
    Reads l ("tunnel-group" :: name :: word :: rest) (.tunnelGroup name (word :: rest))
  | username (name : String) (rest : List String) :
    Reads l ("username" :: name :: rest) (.username (readUser name rest))
  | enablePassword (secret : String) (rest : List String) :
    Reads l ("enable" :: "password" :: secret :: rest) (.enablePassword secret)
  | password (secret : String) (rest : List String) :
    Reads l ("passwd" :: secret :: rest) (.password secret)
  | logging (target : String) (rest : List String) :
    Reads l ("logging" :: target :: rest) (.logging (readLogging target rest))
  | snmpServer (word : String) (rest : List String) :
    Reads l ("snmp-server" :: word :: rest) (.snmpServer (readSnmp (word :: rest)))
  | ssh (word : String) (rest : List String) :
    Reads l ("ssh" :: word :: rest) (.ssh (readAccessSetting (word :: rest)))
  | http (word : String) (rest : List String) :
    Reads l ("http" :: word :: rest) (.http (readAccessSetting (word :: rest)))
  | clock (key : String) (rest : List String) :
    Reads l ("clock" :: key :: rest) (.clock { key, value := l.after 2 })
  | classMap (operands : List String) :
    Reads l ("class-map" :: operands) (.profile "class-map" (profileName operands))
  | policyMap (operands : List String) :
    Reads l ("policy-map" :: operands) (.profile "policy-map" (profileName operands))
  | other (ws : List String) : Reads l ws .other

/-- **What words are read as has their form.** -/
theorem reads_readWords (l : Line) (ws : List String) : Reads l ws (readWords l ws) := by
  fun_cases readWords l ws
  case case13 | case14 | case15 => exact .ikePolicy (by decide) _ _
  case case16 hrest => exact .transformSet hrest
  all_goals constructor

end FirewallConfig.Cisco.Directive
