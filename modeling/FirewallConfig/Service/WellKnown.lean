import FirewallConfig.Service.ServiceRef

/-!
# Service/WellKnown — services that several dialects define beforehand

`wellKnownService` reads the names that a rule may use without declaring them.  `portNumber` is the
table of port keywords that an access list may use in place of a number.
-/

namespace FirewallConfig

/-- What the name of a predefined service means; the case of the name does not count. -/
def wellKnownService (name : String) : Option ServiceRef :=
  match Text.lower name with
  | "http" | "www" | "service-http" => some (.port "tcp" "80")
  | "https" | "service-https" => some (.port "tcp" "443")
  | "ssh" => some (.port "tcp" "22")
  | "telnet" => some (.port "tcp" "23")
  | "ftp" => some (.port "tcp" "21")
  | "smtp" => some (.port "tcp" "25")
  | "dns" | "domain" => some (.port "udp" "53")
  | "ntp" => some (.port "udp" "123")
  | "snmp" => some (.port "udp" "161")
  | "rdp" => some (.port "tcp" "3389")
  | "ldap" => some (.port "tcp" "389")
  | "ping" | "all_icmp" => some (.protocol "icmp")
  | "all_tcp" => some (.protocol "tcp")
  | "all_udp" => some (.protocol "udp")
  | "all" => some .any
  | _ => none

/-- The port that a keyword stands for, in any case; any other text stands for itself. -/
def portNumber (keyword : String) : String :=
  match Text.lower keyword with
  | "ftp-data" => "20"
  | "ftp" => "21"
  | "ssh" => "22"
  | "telnet" => "23"
  | "smtp" => "25"
  | "domain" => "53"
  | "www" | "http" => "80"
  | "pop3" => "110"
  | "ntp" => "123"
  | "netbios-ssn" => "139"
  | "imap4" => "143"
  | "snmp" => "161"
  | "ldap" => "389"
  | "https" => "443"
  | "syslog" => "514"
  | "ldaps" => "636"
  | "sqlnet" => "1521"
  | _ => keyword

end FirewallConfig
