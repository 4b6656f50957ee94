import FirewallConfig.Config.Basic
import FirewallConfig.FortiOs.Section

/-!
# FortiOs/Writer/Setting — settings as they are written

A setting that is left out where its value is missing is a list of none or one.
-/

namespace FirewallConfig.FortiOs

/-- A setting whose values stand as they are. -/
def bareSetting (key : String) (values : List String) : Setting Value :=
  { key := .bare key, values := values.map .bare }

/-- A setting whose values are quoted. -/
def quotedSetting (key : String) (values : List String) : Setting Value :=
  { key := .bare key, values := values.map .quoted }

/-- A setting whose value is quoted, if there is one. -/
def quotedSetting? (key : String) (value : Option String) : List (Setting Value) :=
  value.toList.map fun v => quotedSetting key [v]

/-- A setting whose values are quoted, if there are any. -/
def quotedList? (key : String) (values : List String) : List (Setting Value) :=
  if values.isEmpty then [] else [quotedSetting key values]

/-- A setting that holds a secret, if there is one. -/
def secretSetting? (key : String) (secret : Option String) : List (Setting Value) :=
  secret.toList.map fun v => { key := .bare key, values := [.secret v] }

/-- A setting that stands only where it applies. -/
def settingIf (applies : Bool) (s : Setting Value) : List (Setting Value) :=
  if applies then [s] else []

/-- A setting that holds an address and a mask. -/
def networkSetting (key : String) (n : Network) : Setting Value :=
  bareSetting key [n.address, n.mask]

/-- The network that a text spells; a text that spells none is an address. -/
def networkOf (text : String) : Network :=
  (Network.read? text).getD ⟨Text.trim text, Netmask.single⟩

/-- The network of an address object. -/
def objectNetwork (o : AddressObject) : Network :=
  match o.mask with
  | some mask => ⟨o.value, mask⟩
  | none => networkOf o.value

/-- The lines of a section of entries, and an empty line after it; nothing if there is no entry. -/
def listing (path : String) (entries : List (Entry Value)) : List String :=
  if entries.isEmpty then []
  else Section.lines 0 { path := .bare path, entries } ++ [""]

/-- The lines of a section of settings, and an empty line after it. -/
def settingsSection (path : String) (settings : List (Setting Value)) : List String :=
  Section.lines 0 { path := .bare path, settings } ++ [""]

/-- A remark that something is left out. -/
def notConverted (what : String) : String := "# not converted: " ++ what

end FirewallConfig.FortiOs
