import FirewallConfig.Proofs.Config.Network
import FirewallConfig.Proofs.FortiOs.Groups

/-!
# Proofs/FortiOs/Network — the interfaces and the routes of a written configuration are read back

Each is an entry with a setting for each of its fields, and a field that is missing has no setting.  So
a field is found under its key, whatever other settings there are (`valuesOf_append_setting?`).  An
interface is read back if its address and its mask are addresses (`readInterface_interfaceEntry`), and
so is a route that leads from addresses to an address (`routes_read_write`).
-/

namespace FirewallConfig.FortiOs

open Text

/-! ## Settings -/

theorem bind_readUInt16_toString (number : Option UInt16) :
    (number.map toString).bind readUInt16 = number := by
  cases number with
  | none => rfl
  | some n => exact readUInt16_toString n

theorem map_readBack_settingIf (applies : Bool) (s : Setting Value) :
    (settingIf applies s).map Setting.readBack = if applies then [s.readBack] else [] := by
  cases applies <;> rfl

theorem isBareWord_of_isIPv4 {s : String} (h : isIPv4 s = true) : IsBareWord s.toList :=
  isBareWord_of_isWord (isWord_of_isIPv4 h) fun hquote =>
    absurd ((isNumeric_of_isIPv4 h).2 _ hquote) (by decide)

theorem isBareWord_toString (n : UInt16) : IsBareWord (toString n).toList :=
  isBareWord_of_isWord (isNumeral_toString n.toNat).isWord
    ((isNumeral_toString n.toNat).not_mem (by decide))

theorem map_readBack_numberSetting? (key : String) (number : Option UInt16) :
    (number.toList.map fun n => bareSetting key [toString n]).map Setting.readBack
      = number.toList.map fun n => ⟨key, [toString n]⟩ := by
  rw [List.map_map]
  exact List.map_congr_left fun n _ => readBack_bareSetting key (isBareWord_toString n)

/-! ## Routes -/

/-- The routes that are read are the entries of one path. -/
theorem routes_read (text : String) :
    (read text).routes = (entriesAt "router static" (readForest text)).filterMap readRoute := by
  rw [read, ofForest]
  dsimp only
  rw [foldl_putAddressObject_eq, foldl_putInterface_eq]

/-- The route of a position as it is read back. -/
def routeReadBack (c : Config) (r : Route) (position : Nat) : Route where
  name := some (toString (position + 1))
  network := r.network
  mask := r.mask
  gateway := r.gateway
  interface := r.interface.map c.deviceName
  distance := r.distance
  description := r.description.or r.name

/-- The settings of a route. -/
theorem settings_routeEntry (c : Config) {r : Route} (hr : r.IsConcrete) (position : Nat) :
    (routeEntry c r position).readBack.settings
      = [⟨"dst", [r.network, r.mask]⟩]
        ++ (r.gateway.toList.map fun gateway => ⟨"gateway", [gateway]⟩)
        ++ ((r.interface.map c.deviceName).toList.map fun device => ⟨"device", [device]⟩)
        ++ (r.distance.toList.map fun distance => ⟨"distance", [toString distance]⟩)
        ++ (r.description.or r.name).toList.map fun comment => ⟨"comment", [comment]⟩ := by
  obtain ⟨gateway, hgateway, hnext⟩ := hr.gateway
  have hmask : IsBareWord r.mask.toList :=
    isBareWord_of_isIPv4 (Netmask.isIPv4_of_mem_table hr.mask)
  rw [routeEntry, Entry.readBack, hgateway]
  simp only [List.map_append, List.map_singleton, Option.toList_some, map_readBack_numberSetting?,
    map_readBack_quotedSetting?, readBack_bareSetting _ (isBareWord_of_isIPv4 hnext)]
  rw [networkSetting, readBack_bareSetting_words "dst"
    (by simp [isBareWord_of_isIPv4 hr.network, hmask])]

/-- **A route is read back from its entry.** -/
theorem readRoute_routeEntry (c : Config) {r : Route} (hr : r.IsConcrete) (position : Nat) :
    readRoute (routeEntry c r position).readBack = some (routeReadBack c r position) := by
  obtain ⟨gateway, hgateway, -⟩ := hr.gateway
  have hname : (routeEntry c r position).readBack.name = toString (position + 1) := rfl
  have hsettings := settings_routeEntry c hr position
  generalize (routeEntry c r position).readBack = e at hname hsettings
  have hdestination : valuesOf e.settings "dst" = [r.network, r.mask] := by
    simp only [hsettings, valuesOf_append_setting?, valuesOf_singleton, String.reduceEq, ↓reduceIte]
  obtain ⟨hnext, hdevice, hdistance, hcomment⟩ : valueOf e.settings "gateway" = some gateway
      ∧ valueOf e.settings "device" = r.interface.map c.deviceName
      ∧ valueOf e.settings "distance" = r.distance.map toString
      ∧ valueOf e.settings "comment" = r.description.or r.name := by
    simp only [hsettings, valueOf_append_setting?, valueOf_singleton, hgateway, String.reduceEq,
      ↓reduceIte, Option.or_none, Option.map_id', and_self]
  rw [readRoute, hdestination, hnext, hdevice, hdistance, bind_readUInt16_toString, hcomment, hname,
    routeReadBack, hgateway]
  rfl

/-- **The routes of a written configuration are read back**, each once and in order, whatever else
the configuration holds. -/
theorem routes_read_write (origin : Dialect) {c : Config} (hc : c.OneLine)
    (hroutes : ∀ r ∈ c.routes, r.IsConcrete) :
    (read (write origin c)).routes
      = c.routes.zipIdx.map fun placed => routeReadBack c placed.1 placed.2 := by
  have hentries : entriesAt "router static" ((document c).map Section.readBack)
      = (routeEntries c).map Entry.readBack := by
    rw [entriesAt_listings (by decide) (by decide)]
    simp [listings]
  rw [routes_read, readForest_write hc, hentries, routeEntries, List.map_map, List.filterMap_map]
  exact List.filterMap_eq_map_iff_forall_eq_some.2 fun placed hplaced =>
    readRoute_routeEntry c (hroutes placed.1 (List.fst_mem_of_mem_zipIdx hplaced)) placed.2

/-! ## Interfaces -/

/-- The interfaces that are read are the entries of one path, put in one by one. -/
theorem interfaces_read (text : String) :
    (read text).interfaces
      = ((entriesAt "system interface" (readForest text)).filterMap readInterface).foldl
          (fun is i => putBy (·.name) i is) [] := by
  rw [read, ofForest]
  dsimp only
  rw [foldl_putAddressObject_eq, foldl_putInterface_eq]

/-- An interface as it is read back. -/
def interfaceReadBack (i : Interface) : Interface :=
  { i with securityLevel := none, zone := some defaultZone }

/-- The settings of an interface with an address. -/
theorem settings_interfaceEntry (c : Config) {i : Interface} {ip mask : String}
    (haddress : i.address? = some (ip, mask)) (hip : isIPv4 ip = true)
    (hmask : mask ∈ Netmask.table) :
    (interfaceEntry c i).readBack.settings
      = [⟨"vdom", ["root"]⟩] ++ [⟨"ip", [ip, mask]⟩]
        ++ (if !(accessKeywords c i).isEmpty then [⟨"allowaccess", accessKeywords c i⟩] else [])
        ++ (i.nickname.toList.map fun nickname => ⟨"alias", [nickname]⟩)
        ++ (i.comment.toList.map fun comment => ⟨"description", [comment]⟩)
        ++ (i.vlan.toList.map fun vlan => ⟨"vlanid", [toString vlan]⟩)
        ++ (if !i.enabled then [⟨"status", ["down"]⟩] else []) := by
  have hkeywords : ∀ w ∈ accessKeywords c i, IsBareWord w.toList := by
    rw [accessKeywords, List.forall_mem_append]
    constructor <;> split <;> decide
  have hwords : ∀ w ∈ [ip, mask], IsBareWord w.toList := by
    simp [isBareWord_of_isIPv4 hip, isBareWord_of_isIPv4 (Netmask.isIPv4_of_mem_table hmask)]
  rw [interfaceEntry, Entry.readBack, haddress]
  simp only [List.map_append, List.map_singleton, Option.toList_some, map_readBack_numberSetting?, rootDomain,
    readBack_quotedSetting, map_readBack_quotedSetting?, map_readBack_settingIf,
    readBack_bareSetting_words _ hwords, readBack_bareSetting_words _ hkeywords,
    readBack_bareSetting "status" (by decide : IsBareWord "down".toList)]

/-- **An interface with an address is read back from its entry.** -/
theorem readInterface_interfaceEntry (c : Config) {i : Interface} {ip mask : String}
    (haddress : i.address? = some (ip, mask)) (hip : isIPv4 ip = true)
    (hmask : mask ∈ Netmask.table) :
    readInterface (interfaceEntry c i).readBack
      = some { interfaceReadBack i with ip := some ip, mask := some mask } := by
  have hname : (interfaceEntry c i).readBack.name = i.name := rfl
  have hsettings := settings_interfaceEntry c haddress hip hmask
  generalize (interfaceEntry c i).readBack = e at hname hsettings
  have hvalues : valuesOf e.settings "ip" = [ip, mask] := by
    simp only [hsettings, valuesOf_append_singleton, valuesOf_append_setting?, valuesOf_append_if,
      String.reduceEq, ↓reduceIte, and_false]
  obtain ⟨hnickname, hcomment, hvlan, hstatus⟩ : valueOf e.settings "alias" = i.nickname
      ∧ valueOf e.settings "description" = i.comment
      ∧ valueOf e.settings "vlanid" = i.vlan.map toString
      ∧ valueOf e.settings "status" = if i.enabled then none else some "down" := by
    simp only [hsettings, valueOf_append_singleton, valueOf_append_setting?, valueOf_append_if,
      valueOf_singleton, String.reduceEq, ↓reduceIte, and_false, and_true, Option.or_none,
      Option.map_id', true_and]
    cases i.enabled <;> rfl
  have henabled : ((if i.enabled then none else some "down") != some "down") = i.enabled := by
    cases i.enabled <;> rfl
  rw [readInterface, hvalues, hnickname, hcomment, hvlan, bind_readUInt16_toString, hstatus,
    henabled, hname]
  rfl

/-- **Under the name of an interface stands what its entry says**, if all names differ. -/
theorem interface?_read_write (origin : Dialect) {c : Config} (hc : c.OneLine)
    (hnames : (c.interfaces.map (·.name)).Nodup) {i : Interface} (hi : i ∈ c.interfaces) :
    (read (write origin c)).interface? i.name = readInterface (interfaceEntry c i).readBack := by
  have hentries : entriesAt "system interface" ((document c).map Section.readBack)
      = (c.interfaces.map (interfaceEntry c)).map Entry.readBack := by
    rw [entriesAt_listings (by decide) (by decide)]
    simp [listings]
  have hname (j j' : Interface) (h : readInterface (interfaceEntry c j).readBack = some j') :
      j'.name = j.name := by
    obtain ⟨n, -, rfl⟩ := Option.map_eq_some_iff.1 h
    rfl
  have hreverse : (c.interfaces.reverse.map (·.name)).Nodup := by
    rw [List.map_reverse]
    exact List.pairwise_reverse.2 (hnames.imp Ne.symm)
  rw [Config.interface?, interfaces_read, readForest_write hc, hentries, List.map_map,
    List.filterMap_map, find?_foldl_putBy, ← List.filterMap_reverse, List.find?_nil, Option.or_none]
  exact find?_filterMap_of_nodup (·.name) hname hreverse (List.mem_reverse.2 hi)

end FirewallConfig.FortiOs
