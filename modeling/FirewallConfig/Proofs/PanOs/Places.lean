import FirewallConfig.PanOs.Reader
import FirewallConfig.Proofs.PanOs.Scan
import FirewallConfig.Proofs.PanOs.Windows

/-!
# Proofs/PanOs/Places — a document whose entries are cut out by their places

The scan of a document may keep the place where an entry begins in place of the lines of the entry
(`Cursor`), and cut the entry out of the document at the line that closes it.  The place is in the
document because the scan has been there (`Follows`): so every entry is cut out whole, and what is
read of the document is the same (`readAt_eq`).  A name that ends in `At` is that of a reader which
takes its parts by their places and checks each place.
-/

namespace FirewallConfig.PanOs

/-! ## Records out of views -/

/-- An interface or a unit of one. -/
def interfaceAt (v : View) (name : String) : Checked Interface := do
  let n := (← v.entryAfterAt "ip").bind Network.read?
  return {
    name
    ip := n.map (·.address)
    mask := n.map (·.mask)
    nickname := ← v.leafAt "comment"
  }

/-- A unit of an interface, if it has a name. -/
def unitAt (v : View) : Checked (Option Interface) :=
  match v.name with
  | none => .ok none
  | some name => do
    let unit ← interfaceAt v name
    return some { unit with vlan := (← v.leafAt "tag").bind Text.readUInt16 }

/-- An address, which must have a value. -/
def addressAt (v : View) (name : String) : Checked (Option AddressObject) := do
  let description ← v.leafAt "description"
  match ← v.leafAt "ip-netmask", ← v.leafAt "ip-range", ← v.leafAt "fqdn" with
  | some value, _, _ =>
    match Network.ofCidr? value with
    | some n =>
      if n.mask == Netmask.single then
        return some { name, kind := .host, value := n.address, description }
      else return some { name, kind := .subnet, value := n.address, mask := some n.mask, description }
    | none => return some { name, kind := .host, value, description }
  | none, some value, _ => return some { name, kind := .range, value, description }
  | none, none, some value => return some { name, kind := .fqdn, value, description }
  | none, none, none => return none

/-- A rule. -/
def policyAt (v : View) (name : String) : Checked Policy := do
  let action ← v.leafAt "action"
  let service ← v.membersAt "service"
  let application ← v.membersAt "application"
  return {
    name := some name
    action := .ofText (action.getD "")
    source := ← v.membersAt "source"
    destination := ← v.membersAt "destination"
    service := service.filter fun s => s != anyText && s != "application-default"
    sourceZone := (← v.membersAt "from").find? (· != anyText)
    destinationZone := (← v.membersAt "to").find? (· != anyText)
    application := application.filter (· != anyText)
    description := ← v.leafAt "description"
    enabled := (← v.leafAt "disabled") != some "yes"
    log := (← v.leafAt "log-end") == some "yes"
  }

/-- A translation rule. -/
def natAt (v : View) (name : String) : Checked NatRule := do
  let listed ← v.membersAt "translated-address"
  return {
    kind :=
      if v.hasTag "static-ip" || v.hasTag "destination-translation" then .static else .dynamic
    name := some name
    source := (← v.membersAt "source").head?
    destination := (← v.membersAt "destination").head?
    translated :=
      (v.anyLeaf "translated-address").or <| listed.head?.or <|
        if v.hasTag "interface-address" then some "interface" else none
    sourceInterface := (← v.membersAt "from").head?
    interface := (← v.membersAt "to").head?
    description := ← v.leafAt "description"
  }

/-- A route, which must have a destination. -/
def routeAt (v : View) (name : String) : Checked (Option Route) := do
  match ← v.leafAt "destination" with
  | none => return none
  | some destination =>
    let n := (Network.read? destination).getD ⟨destination, Netmask.single⟩
    return some {
      name := some name
      network := n.address
      mask := n.mask
      gateway := ← v.leafAt "ip-address"
      interface := ← v.leafAt "interface"
      distance := (← v.leafAt "admin-dist").bind Text.readUInt16
    }

/-- A gateway. -/
def tunnelAt (v : View) (name : String) : Checked Tunnel := do
  let peer ← v.leafAt "ip"
  return {
    name
    interface := ← v.leafAt "interface"
    peer := peer.filter isIPv4
    proposal := ← v.leafAt "ike-crypto-profile"
    preSharedKey := ← v.leafAt "key"
  }

/-- A tunnel, which must name a gateway; its selector is the first one in it. -/
def selectorAt (v : View) (name : String) : Checked (Option Selector) := do
  match ← v.entryAfterAt "ike-gateway" with
  | none => return none
  | some gateway =>
    let proposal ← v.leafAt "ipsec-crypto-profile"
    match ← v.childrenAt with
    | [] => return some { name, tunnel := gateway, proposal }
    | proxy :: _ =>
      return some {
        name, tunnel := gateway, proposal
        source := ← proxy.leafAt "local"
        destination := ← proxy.leafAt "remote"
      }

/-- An account. -/
def userAt (v : View) (name : String) : Checked User := do
  let role := roles.find? fun r => v.hasTag r || (v.anyLeaf r).isSome
  return {
    username := name
    secret := ← v.leafAt "phash"
    privilege := if role == some "superuser" then User.fullPrivilege else User.readOnlyPrivilege
    role
  }

/-- Adds what a named entry of an area means. -/
def addEntryAt (c : Config) (v : View) (name : String) : Area → Checked Config
  | .interfaces => do
    let i ← interfaceAt v name
    let units ← (← v.childrenAt).mapM unitAt
    return (units.filterMap id).foldl Config.putInterface (c.putInterface i)
  | .zones => do
    return { c with zones := c.zones ++ [{ name, interfaces := ← v.zoneMembersAt }] }
  | .addresses => do return (← addressAt v name).toList.foldl Config.putAddressObject c
  | .addressGroups => do
    let group : AddressGroup :=
      { name, members := ← v.membersAt "static", description := ← v.leafAt "description" }
    return { c with addressGroups := c.addressGroups ++ [group] }
  | .services => do
    let service : ServiceObject :=
      { name
        protocol := (["tcp", "udp"].find? v.hasTag).getD "ip"
        port := ← v.leafAt "port"
        description := ← v.leafAt "description" }
    return { c with services := c.services ++ [service] }
  | .security => do return { c with policies := c.policies ++ [← policyAt v name] }
  | .nat => do return { c with nat := c.nat ++ [← natAt v name] }
  | .routes => do return { c with routes := c.routes ++ (← routeAt v name).toList }
  | .ikeGateways => do
    return { c with vpn := { c.vpn with tunnels := c.vpn.tunnels ++ [← tunnelAt v name] } }
  | .ipsecTunnels => do
    let selectors := c.vpn.selectors ++ (← selectorAt v name).toList
    return { c with vpn := { c.vpn with selectors } }
  | .admins => do return { c with users := c.users ++ [← userAt v name] }
  | .applications => do
    let application : Application :=
      { name, category := ← v.leafAt "category", description := ← v.leafAt "description" }
    return { c with applications := c.applications ++ [application] }
  | .urlCategories => do
    let category : UrlCategory :=
      { name, urls := ← v.membersAt "list", description := ← v.leafAt "description" }
    return { c with urlCategories := c.urlCategories ++ [category] }

/-- Takes in the lines of an entry of an area. -/
def addLinesAt (c : Config) (a : Area) (lines : List String) : Checked Config := do
  let v ← View.ofLinesAt lines
  match v.name with
  | some name => addEntryAt c v name a
  | none => return c

section Views

variable (b : Block) (name : String)

theorem interfaceAt_view : interfaceAt b.view name = .ok (readInterface b name) := by
  simp [interfaceAt, readInterface]

theorem unitAt_view : unitAt b.view = .ok (b.name.map fun name =>
    { readInterface b name with vlan := (b.leaf "tag").bind Text.readUInt16 }) := by
  rw [unitAt, Block.name_view]
  cases b.name <;> simp [interfaceAt_view]

theorem unitsAt_view : (b.children.map Block.view).mapM unitAt
    = .ok (b.children.map fun unit => unit.name.map fun name =>
        { readInterface unit name with vlan := (unit.leaf "tag").bind Text.readUInt16 }) := by
  rw [List.mapM_map]
  exact Checked.mapM_eq unitAt_view b.children

theorem addressAt_view : addressAt b.view name = .ok (readAddress b name) := by
  simp only [addressAt, View.leafAt_view, Checked.ok_bind, readAddress]
  cases b.leaf "ip-netmask" with
  | some value =>
    cases hvalue : Network.ofCidr? value with
    | none => simp [hvalue]
    | some n => simp [hvalue, apply_ite]
  | none => cases b.leaf "ip-range" <;> cases b.leaf "fqdn" <;> rfl

theorem policyAt_view : policyAt b.view name = .ok (readPolicy b name) := by
  simp [policyAt, readPolicy, readZone]

theorem natAt_view : natAt b.view name = .ok (readNat b name) := by
  simp [natAt, readNat]

theorem routeAt_view : routeAt b.view name = .ok (readRoute b name) := by
  simp only [routeAt, View.leafAt_view, Checked.ok_bind, readRoute]
  cases b.leaf "destination" <;> rfl

theorem tunnelAt_view : tunnelAt b.view name = .ok (readTunnel b name) := by
  simp [tunnelAt, readTunnel]

theorem selectorAt_view : selectorAt b.view name = .ok (readSelector b name) := by
  simp only [selectorAt, View.entryAfterAt_view, View.childrenAt_view, View.leafAt_view,
    Checked.ok_bind, readSelector]
  cases b.entryAfter "ike-gateway" with
  | none => rfl
  | some gateway => cases b.children <;> simp

theorem userAt_view : userAt b.view name = .ok (readUser b name) := by
  simp [userAt, readUser]

/-- **An entry of any area is read from its own lines.** -/
theorem addEntryAt_view (c : Config) (a : Area) :
    addEntryAt c b.view name a = .ok (addEntry c b name a) := by
  cases a with
  | interfaces =>
    simp only [addEntryAt, addEntry, interfaceAt_view, View.childrenAt_view, unitsAt_view,
      Checked.ok_bind, Checked.pure_eq_ok, readUnits, List.filterMap_map]
    rfl
  | addresses => simp [addEntryAt, addEntry, addressAt_view]
  | security => simp [addEntryAt, addEntry, policyAt_view]
  | nat => simp [addEntryAt, addEntry, natAt_view]
  | routes => simp [addEntryAt, addEntry, routeAt_view]
  | ikeGateways => simp [addEntryAt, addEntry, tunnelAt_view]
  | ipsecTunnels => simp [addEntryAt, addEntry, selectorAt_view]
  | admins => simp [addEntryAt, addEntry, userAt_view]
  | zones | addressGroups | services | applications | urlCategories =>
    simp [addEntryAt, addEntry, readGroup, readService, readApplication, readUrlCategory]

end Views

/-! ## The scan -/

/-- Where the scan is once some lines are through. -/
structure Cursor where
  config : Config := {}
  /-- The area that the scan is in. -/
  area : Option Area := none
  /-- The place where the entry begins that the scan is in, and how many entries are open in it. -/
  entry : Option (Nat × Nat) := none

namespace Cursor

/-- Takes in the lines from one place up to another one, which are an entry. -/
def takeEntryAt (lines : List String) (s : Cursor) (first last : Nat) : Checked Cursor := do
  match s.area with
  | some a =>
    let entry ← Checked.slice first last lines
    return { s with config := ← addLinesAt s.config a entry, entry := none }
  | none => return { s with entry := none }

/-- Takes in a line between entries. -/
def idleLineAt (lines : List String) (s : Cursor) (line : String) (place : Nat) :
    Checked Cursor := do
  match Area.opened? line, s.area with
  | some a, _ => return { s with area := some a }
  | none, none => return { s with config := Reading.settingLine s.config line }
  | none, some a =>
    if a.isClosedBy line then return { s with area := none }
    else if (← entryNameAt line).isNone then return s
    else if isSelfClosed line || Text.holds (closeTag "entry") line then
      s.takeEntryAt lines place (place + 1)
    else return { s with entry := some (place, 1) }

/-- Takes in a line of a document, which stands in the given place. -/
def stepAt (lines : List String) (s : Cursor) : String × Nat → Checked Cursor
  | (line, place) =>
    match s.entry with
    | none => s.idleLineAt lines line place
    | some (start, depth) =>
      let depth := depthAfter depth line
      if depth = 0 then s.takeEntryAt lines start (place + 1)
      else .ok { s with entry := some (start, depth) }

/-- Where the scan of a document is at its end. -/
def scanAt (lines : List String) : Checked Cursor := lines.zipIdx.foldlM (stepAt lines) {}

end Cursor

/-- Reads a configuration, and cuts its entries out of it. -/
def readAt (text : String) : Checked Config := do
  let s ← Cursor.scanAt ((Text.lines text).map Text.trim)
  return { s.config with interfaces := s.config.interfaces.map (joinZone s.config.zones) }

/-- The scan of a document is where the reading of its lines is, once some of them are through: the
lines of the entry that is open are the last ones, from the place on where it begins. -/
inductive Follows (before : List String) : Cursor → Reading → Prop
  | idle (c : Config) (area : Option Area) : Follows before ⟨c, area, none⟩ ⟨c, area, none⟩
  | inside (c : Config) (area : Option Area) (depth : Nat) {ahead entry : List String}
      (h : before = ahead ++ entry) :
      Follows before ⟨c, area, some (ahead.length, depth)⟩ ⟨c, area, some (entry.reverse, depth)⟩

theorem Follows.config_eq {before : List String} {s : Cursor} {r : Reading}
    (h : Follows before s r) : s.config = r.config := by
  cases h <;> rfl

theorem addLinesAt_eq (c : Config) (a : Area) (lines : List String) :
    addLinesAt c a lines = .ok (match (Block.ofLines lines).name with
      | some name => addEntry c (Block.ofLines lines) name a
      | none => c) := by
  rw [addLinesAt, View.ofLinesAt_eq, Checked.ok_bind, Block.name_view]
  cases (Block.ofLines lines).name with
  | none => rfl
  | some name => exact addEntryAt_view _ name c a

namespace Cursor

/-- **An entry is cut out of the document whole.** -/
theorem takeEntryAt_eq (ahead entry behind : List String) (c : Config) (area : Option Area)
    (e : Option (Nat × Nat)) (e' : Option (List String × Nat)) (before : List String) :
    ∃ t, takeEntryAt (ahead ++ entry ++ behind) ⟨c, area, e⟩ ahead.length
        (ahead.length + entry.length) = .ok t
      ∧ Follows before t (Reading.takeEntry ⟨c, area, e'⟩ entry) := by
  cases area with
  | none => exact ⟨_, rfl, .idle c none⟩
  | some a =>
    refine ⟨_, by simp only [takeEntryAt, Checked.slice_append, Checked.ok_bind, addLinesAt_eq,
      Checked.pure_eq_ok]; rfl, ?_⟩
    dsimp only [Reading.takeEntry]
    cases (Block.ofLines entry).name with
    | none => exact .idle c (some a)
    | some name => exact .idle _ (some a)

theorem idleLineAt_eq (before : List String) (line : String) (behind : List String) (c : Config)
    (area : Option Area) :
    ∃ t, idleLineAt (before ++ line :: behind) ⟨c, area, none⟩ line before.length = .ok t
      ∧ Follows (before ++ [line]) t (Reading.idleLine ⟨c, area, none⟩ line) := by
  rw [idleLineAt, Reading.idleLine]
  cases Area.opened? line with
  | some a => exact ⟨_, rfl, .idle c (some a)⟩
  | none =>
    cases area with
    | none => exact ⟨_, rfl, .idle _ none⟩
    | some a =>
      simp only [entryNameAt_eq, Checked.ok_bind]
      split
      · exact ⟨_, rfl, .idle c none⟩
      · split
        · exact ⟨_, rfl, .idle c (some a)⟩
        · split
          · simpa using takeEntryAt_eq before [line] behind c (some a) none none (before ++ [line])
          · exact ⟨_, rfl, .inside c (some a) 1 rfl⟩

/-- **A step of the scan stops with no fault**, and is where the reading is after it. -/
theorem stepAt_eq {before : List String} {s : Cursor} {r : Reading} (h : Follows before s r)
    {line : String} (hline : Text.trim line = line) (behind : List String) :
    ∃ t, stepAt (before ++ line :: behind) s (line, before.length) = .ok t
      ∧ Follows (before ++ [line]) t (r.step line) := by
  rw [Reading.step, hline]
  cases h with
  | idle c area => exact idleLineAt_eq before line behind c area
  | @inside c area depth ahead entry hbefore =>
    subst hbefore
    by_cases hzero : depthAfter depth line = 0
    · have htake := takeEntryAt_eq ahead (entry ++ [line]) behind c area
        (some (ahead.length, depth)) (some (entry.reverse, depth)) (ahead ++ entry ++ [line])
      simpa [stepAt, hzero, Nat.add_assoc] using htake
    · refine ⟨⟨c, area, some (ahead.length, depthAfter depth line)⟩, if_neg hzero, ?_⟩
      have hinside := Follows.inside c area (depthAfter depth line) (List.append_assoc ahead entry [line])
      simpa [hzero] using hinside

/-- **The scan of a document stops with no fault**, and is where the reading is at its end. -/
theorem foldlM_stepAt {before : List String} {s : Cursor} {r : Reading} (h : Follows before s r)
    {behind : List String} (hbehind : ∀ line ∈ behind, Text.trim line = line) :
    ∃ t, (behind.zipIdx before.length).foldlM (stepAt (before ++ behind)) s = .ok t
      ∧ Follows (before ++ behind) t (r.run behind) := by
  induction behind generalizing before s r with
  | nil => exact ⟨s, rfl, by rwa [List.append_nil]⟩
  | cons line behind ih =>
    obtain ⟨hline, hbehind⟩ := List.forall_mem_cons.1 hbehind
    obtain ⟨t, ht, hfollows⟩ := stepAt_eq h hline behind
    have hrest := ih hfollows hbehind
    rw [List.append_assoc, List.singleton_append, List.length_append, List.length_singleton] at hrest
    rwa [List.zipIdx_cons, List.foldlM_cons, ht, Checked.ok_bind, Reading.run_cons]

end Cursor

/-- **No place is missed in any text.** -/
theorem readAt_eq (text : String) : readAt text = .ok (read text) := by
  have htrim : ∀ line ∈ (Text.lines text).map Text.trim, Text.trim line = line := by
    rintro _ hline
    obtain ⟨line, -, rfl⟩ := List.mem_map.1 hline
    exact Text.trim_trim line
  have hstart : Follows [] {} {} := .idle {} none
  obtain ⟨t, ht, hfollows⟩ := Cursor.foldlM_stepAt hstart htrim
  have hscan : Cursor.scanAt ((Text.lines text).map Text.trim) = .ok t := ht
  have hconfig : t.config = (Reading.run {} (Text.lines text)).config := by
    rw [hfollows.config_eq, Reading.run_map_trim]
  rw [readAt, hscan, Checked.ok_bind, hconfig]
  rfl

end FirewallConfig.PanOs
