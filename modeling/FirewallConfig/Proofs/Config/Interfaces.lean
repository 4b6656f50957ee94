import FirewallConfig.Proofs.Cisco.Interfaces
import FirewallConfig.Proofs.Config.Groups
import FirewallConfig.Proofs.FortiOs.Network
import FirewallConfig.Proofs.PanOs.Network

/-!
# Proofs/Config/Interfaces — which state of an interface every dialect keeps

An interface has an address, a VLAN and a state of being shut down or not, and every dialect writes all
three of them.  Three of the dialects read back all of them, too.  The fourth reads back the address
only: a VLAN that is written there is lost, and an interface that is shut down comes up
(`interface_read_write_iff`).
-/

namespace FirewallConfig

open Text

/-! ## Names -/

theorem Cisco.nodup_interfaces_read (flavor : Cisco.Flavor) (text : String) :
    ((Cisco.read flavor text).interfaces.map (·.name)).Nodup := by
  rw [Cisco.interfaces_read, Cisco.BlockKind.stored_read]
  exact nodup_map_foldl_putBy Interface.name _ List.nodup_nil

theorem FortiOs.nodup_interfaces_read (text : String) :
    ((FortiOs.read text).interfaces.map (·.name)).Nodup := by
  rw [FortiOs.interfaces_read]
  exact nodup_map_foldl_putBy Interface.name _ List.nodup_nil

namespace PanOs

theorem nodup_interfaces_addEntry (c : Config) (b : Block) (name : String) (a : Area)
    (hc : (c.interfaces.map (·.name)).Nodup) :
    ((addEntry c b name a).interfaces.map (·.name)).Nodup := by
  cases a with
  | interfaces =>
    rw [addEntry, foldl_putInterface_eq]
    exact nodup_map_foldl_putBy Interface.name _ (nodup_map_putBy Interface.name _ hc)
  | addresses =>
    rw [addEntry, foldl_putAddressObject_eq]
    exact hc
  | _ => exact hc

theorem nodup_interfaces_settingLine (c : Config) (line : String)
    (hc : (c.interfaces.map (·.name)).Nodup) :
    ((Reading.settingLine c line).interfaces.map (·.name)).Nodup := by
  rw [Reading.settingLine]
  split <;> exact hc

/-- Interfaces keep their names where they are joined with their zones. -/
theorem map_name_interfaces_read (text : String) : (read text).interfaces.map (·.name)
    = (Reading.run {} (Text.lines text)).config.interfaces.map (·.name) := by
  rw [read, List.map_map]
  rfl

theorem nodup_interfaces_read (text : String) :
    ((read text).interfaces.map (·.name)).Nodup := by
  rw [map_name_interfaces_read]
  exact Reading.config_run (P := fun c => (c.interfaces.map (·.name)).Nodup)
    nodup_interfaces_addEntry nodup_interfaces_settingLine (r := {}) List.nodup_nil
    (Text.lines text)

end PanOs

/-- **No two interfaces of a text have the same name**, in any dialect. -/
theorem Dialect.nodup_interfaces_read (source : Dialect) (text : String) :
    ((source.read text).interfaces.map (·.name)).Nodup := by
  cases source with
  | ciscoAsa => exact Cisco.nodup_interfaces_read .asa text
  | ciscoFtd => exact Cisco.nodup_interfaces_read .ftd text
  | fortiGate => exact FortiOs.nodup_interfaces_read text
  | paloAlto => exact PanOs.nodup_interfaces_read text

/-- A second block takes the place of the first one of its name. -/
example : (Dialect.ciscoAsa.read "interface e0\n vlan 2\ninterface e0\n vlan 3\n").interfaces
    = [{ name := "e0", vlan := some 3 }] := by decide +kernel

/-! ## The state of an interface -/

/-- **An interface keeps its name and its address** from any dialect to any dialect.  It keeps its VLAN
and its state, too, but for one target: there it keeps them just if it has no VLAN and is not shut
down. -/
theorem interface_read_write_iff (source target : Dialect) (text : String)
    (hnames : ∀ i ∈ (source.read text).interfaces, IsWord i.name) {i : Interface}
    (hi : i ∈ (source.read text).interfaces) {ip mask : String}
    (haddress : i.address? = some (ip, mask)) (hip : isIPv4 ip = true)
    (hmask : mask ∈ Netmask.table) :
    ∃ j, (target.read (target.write source (source.read text))).interface? i.name = some j
      ∧ j.name = i.name ∧ j.address? = i.address?
      ∧ (j.vlan = i.vlan ↔ (target = .paloAlto → i.vlan = none))
      ∧ (j.enabled = i.enabled ↔ (target = .paloAlto → i.enabled = true)) := by
  have hc := Dialect.oneLine_read source text
  have hkinds := source.mem_profileKinds_of_mem_securityProfiles text
  have hnodup := source.nodup_interfaces_read text
  generalize source.read text = c at hnames hi hc hkinds hnodup ⊢
  have hcisco (flavor : Cisco.Flavor) :
      (Cisco.read flavor (Cisco.write flavor source c)).interface? i.name
        = some (Cisco.interfaceReadBack c i) := by
    rw [Cisco.interface?_read_write hc hkinds flavor source hnodup hnames hi, Cisco.blockReadBack,
      Cisco.foldl_bodyLines haddress hip hmask]
  cases target with
  | ciscoAsa => exact ⟨_, hcisco .asa, rfl, rfl, by simp [Cisco.interfaceReadBack]⟩
  | ciscoFtd => exact ⟨_, hcisco .ftd, rfl, rfl, by simp [Cisco.interfaceReadBack]⟩
  | fortiGate =>
    have hread := FortiOs.interface?_read_write source hc hnodup hi
    rw [FortiOs.readInterface_interfaceEntry c haddress hip hmask] at hread
    exact ⟨_, hread, rfl, haddress.symm, by simp [FortiOs.interfaceReadBack]⟩
  | paloAlto =>
    obtain ⟨zones, hread⟩ := PanOs.exists_interface?_read_write source hc hnodup hi
    rw [PanOs.entryReadBack_eq haddress hip hmask] at hread
    exact ⟨_, hread, rfl, haddress.symm, ⟨fun h _ => h.symm, fun h => (h rfl).symm⟩,
      fun h _ => h.symm, fun h => (h rfl).symm⟩

/-- An interface of a VLAN that is shut down. -/
def downText : String :=
  "config system interface\nedit port1\nset ip 192.0.2.2 255.255.255.0\nset alias dmz\n"
    ++ "set vlanid 100\nset status down\nend\n"

/-- What is read of it. -/
def downInterface : Interface :=
  { name := "port1", ip := some "192.0.2.2", mask := some "255.255.255.0", nickname := some "dmz"
    zone := some "untrust", vlan := some 100, enabled := false }

theorem address?_downInterface :
    downInterface.address? = some ("192.0.2.2", "255.255.255.0") := rfl

theorem interfaces_downText :
    (Dialect.fortiGate.read downText).interfaces = [downInterface] := by decide +kernel

/-- Another dialect gives it back as it is. -/
theorem interface_read_write_iff_downText :
    (∀ i ∈ (Dialect.fortiGate.read downText).interfaces, IsWord i.name)
      ∧ downInterface ∈ (Dialect.fortiGate.read downText).interfaces
      ∧ ∃ j, (Dialect.ciscoAsa.read (Dialect.ciscoAsa.write .fortiGate
          (Dialect.fortiGate.read downText))).interface? "port1" = some j
        ∧ j.vlan = some 100 ∧ j.enabled = false := by
  have hnames : ∀ i ∈ (Dialect.fortiGate.read downText).interfaces, IsWord i.name := by
    rw [interfaces_downText]
    decide
  have hmem : downInterface ∈ (Dialect.fortiGate.read downText).interfaces := by
    rw [interfaces_downText]
    exact List.mem_singleton_self _
  obtain ⟨j, hj, -, -, hvlan, henabled⟩ := interface_read_write_iff .fortiGate .ciscoAsa downText
    hnames hmem address?_downInterface (by decide) (by decide)
  exact ⟨hnames, hmem, j, hj, hvlan.2 nofun, henabled.2 nofun⟩

/-- **One dialect gives it back without its VLAN, and no longer shut down.** -/
theorem not_kept_downText :
    ∃ i ∈ (Dialect.fortiGate.read downText).interfaces,
      (IsWord i.name ∧ ∀ s ∈ i.nickname, IsWord s)
        ∧ i.address? = some ("192.0.2.2", "255.255.255.0") ∧ isIPv4 "192.0.2.2" = true
        ∧ "255.255.255.0" ∈ Netmask.table ∧ i.vlan = some 100 ∧ i.enabled = false
        ∧ ∃ j, (Dialect.paloAlto.read (Dialect.paloAlto.write .fortiGate
            (Dialect.fortiGate.read downText))).interface? i.name = some j
          ∧ j.vlan = none ∧ j.enabled = true := by
  have hmem : downInterface ∈ (Dialect.fortiGate.read downText).interfaces := by
    rw [interfaces_downText]
    exact List.mem_singleton_self _
  have hnodup := Dialect.fortiGate.nodup_interfaces_read downText
  have hc := Dialect.oneLine_read .fortiGate downText
  obtain ⟨zones, hread⟩ := PanOs.exists_interface?_read_write .fortiGate hc hnodup hmem
  rw [PanOs.entryReadBack_eq address?_downInterface (by decide) (by decide)] at hread
  exact ⟨downInterface, hmem, by decide, rfl, by decide, by decide, rfl, rfl, _, hread, rfl, rfl⟩

end FirewallConfig
