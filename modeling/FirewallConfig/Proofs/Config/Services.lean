import FirewallConfig.Proofs.Cisco.Services
import FirewallConfig.Proofs.Config.Groups
import FirewallConfig.Proofs.FortiOs.Services

/-!
# Proofs/Config/Services — which services a dialect reads back

A service is looked up by its name, so what counts of a written text is what stands there under that
name (`service?_read_write`).  Every dialect keeps one port and one range.  Of a list of several one
dialect keeps all, one the first only, and the line-directive grammar loses the service
(`keepsService_read_write_iff`).
-/

namespace FirewallConfig

open Text

/-- What a service is read back as from a text of the dialect. -/
def Dialect.serviceReadBack? : Dialect → ServiceObject → Option ServiceObject
  | .ciscoAsa, s | .ciscoFtd, s => Cisco.serviceReadBack? s
  | .fortiGate, s => some (FortiOs.serviceReadBack s)
  | .paloAlto, s => some s

theorem Dialect.name_of_serviceReadBack? (target : Dialect) {s s' : ServiceObject}
    (h : target.serviceReadBack? s = some s') : s'.name = s.name := by
  have hcisco (h : Cisco.serviceReadBack? s = some s') : s'.name = s.name := by
    rw [Cisco.serviceReadBack?] at h
    split at h <;> cases h
    rfl
  cases target with
  | ciscoAsa | ciscoFtd => exact hcisco h
  | fortiGate | paloAlto =>
    cases h
    rfl

/-- Of a list, the first port is left. -/
example : Dialect.fortiGate.serviceReadBack? { name := "web", protocol := "tcp", port := some "80,443" }
    = some { name := "web", protocol := "tcp", port := some "80" } := by decide +kernel

/-- The service has become another of its protocol and with the same ports. -/
def ServiceObject.IsKeptAs (s s' : ServiceObject) : Prop :=
  s'.protocol = s.protocol ∧ s'.port.map portSet = s.port.map portSet

/-- What stands under the name of a service has its protocol and the same ports. -/
def Config.KeepsService (c : Config) (s : ServiceObject) : Prop :=
  ∃ s', c.service? s.name = some s' ∧ s.IsKeptAs s'

/-- A list of ports is read back from a text of the dialect: any list from one of them, from one a
list whose first ports are all of them, and from the others a list without a comma. -/
def Dialect.KeepsPorts : Dialect → String → Prop
  | .ciscoAsa, ports | .ciscoFtd, ports => Cisco.isPortList ports = false
  | .fortiGate, ports => portSet (firstPorts ports) = portSet ports
  | .paloAlto, _ => True

section ReadWrite

variable {c : Config} (hc : c.OneLine) (hservices : ∀ s ∈ c.services, s.IsPlain)
include hc hservices

/-- One dialect keeps the services, and those that rules spell out stand behind them. -/
theorem PanOs.services_read_write (origin : Dialect) :
    ∃ spelled, (PanOs.read (PanOs.write origin c)).services = c.services ++ spelled := by
  generalize hr : PanOs.read (PanOs.write origin c) = r
  have hplace : c.services.filter PanOs.hasPlace = c.services :=
    List.filter_eq_self.2 fun s hs => by
      rw [PanOs.hasPlace]
      rcases (hservices s hs).protocol with h | h <;> rw [h] <;> decide
  have hkept : ∀ s ∈ c.services, ({ s with
      protocol := PanOs.protocolReadBack (lower s.protocol)
      port := some (s.port.getD "1-65535") } : ServiceObject) = s := fun s hs => by
    obtain ⟨ports, hport, -⟩ := (hservices s hs).port
    have hprotocol : PanOs.protocolReadBack (lower s.protocol) = s.protocol := by
      rcases (hservices s hs).protocol with h | h <;> rw [h] <;> decide
    rw [hprotocol, hport, Option.getD_some, ← hport]
  rw [PanOs.services_of_eq_read_write hc hr.symm, PanOs.writtenServices, hplace, List.map_append,
    List.map_map]
  exact ⟨_, congrArg (· ++ _) ((List.map_congr_left hkept).trans (List.map_id _))⟩

variable (hkinds : ∀ p ∈ c.securityProfiles, p.kind ∈ Cisco.profileKinds)
  (hnames : (c.services.map (·.name)).Nodup)
include hkinds hnames

/-- **Under the name of a service stands what it is read back as**, also where the rules of the
configuration spell out services of that name. -/
theorem service?_read_write (origin target : Dialect) {s : ServiceObject} (hs : s ∈ c.services) :
    (target.read (target.write origin c)).service? s.name = target.serviceReadBack? s := by
  have hfind : (c.services.filterMap target.serviceReadBack?).find? (·.name == s.name)
      = target.serviceReadBack? s :=
    find?_filterMap_of_nodup (·.name) (fun _ _ h => target.name_of_serviceReadBack? h) hnames hs
  have hcisco (flavor : Cisco.Flavor) :
      (Cisco.read flavor (Cisco.write flavor origin c)).services
        = c.services.filterMap Cisco.serviceReadBack? :=
    Cisco.services_read_write hc hkinds flavor origin hservices
  cases target with
  | ciscoAsa => exact (congrArg (List.find? _) (hcisco .asa)).trans hfind
  | ciscoFtd => exact (congrArg (List.find? _) (hcisco .ftd)).trans hfind
  | fortiGate =>
    have hmap : c.services.filterMap Dialect.fortiGate.serviceReadBack?
        = c.services.map FortiOs.serviceReadBack :=
      congrFun List.filterMap_eq_map' _
    have hread := FortiOs.services_read_write origin hc hservices
    rw [hmap] at hfind
    refine (congrArg (List.find? _) hread).trans ?_
    rw [List.find?_append, hfind]
    rfl
  | paloAlto =>
    obtain ⟨spelled, hread⟩ := PanOs.services_read_write hc hservices origin
    refine (congrArg (List.find? _) hread).trans ?_
    rw [List.find?_append, find?_eq_some_of_nodup (·.name) hnames hs]
    rfl

/-- **A service is kept exactly if the dialect keeps its ports**, whatever else the configuration
holds. -/
theorem keepsService_read_write_iff (origin target : Dialect) {s : ServiceObject}
    (hs : s ∈ c.services) {ports : String} (hports : s.port = some ports) :
    (target.read (target.write origin c)).KeepsService s ↔ target.KeepsPorts ports := by
  have hcisco : (∃ s', Cisco.serviceReadBack? s = some s' ∧ s.IsKeptAs s')
      ↔ Cisco.isPortList ports = false := by
    rw [Cisco.serviceReadBack?, hports, Option.any_some]
    cases Cisco.isPortList ports with
    | true => simp
    | false => simp [ServiceObject.IsKeptAs, hports]
  rw [Config.KeepsService, service?_read_write hc hservices hkinds hnames origin target hs]
  cases target with
  | ciscoAsa | ciscoFtd => exact hcisco
  | fortiGate =>
    simp [Dialect.serviceReadBack?, Dialect.KeepsPorts, FortiOs.serviceReadBack,
      ServiceObject.IsKeptAs, hports]
  | paloAlto => simp [Dialect.serviceReadBack?, Dialect.KeepsPorts, ServiceObject.IsKeptAs]

end ReadWrite

/-- A service with two ports, and one with a range. -/
def listedLines : List String :=
  ["config firewall service custom", "edit web", "set tcp-portrange 80,443", "next", "edit high",
   "set udp-portrange 9000-9010", "end"]

/-- The text of these lines. -/
def listedText : String := unlines listedLines

/-- What is read of the service with two ports. -/
def webService : ServiceObject where
  name := "web"
  protocol := "tcp"
  port := some "80,443"

/-- What is read of the service with a range. -/
def highService : ServiceObject where
  name := "high"
  protocol := "udp"
  port := some "9000-9010"

/-- What is read of the text. -/
def listedConfig : Config where
  services := [webService, highService]

theorem read_listedText : Dialect.fortiGate.read listedText = listedConfig := by
  rw [Dialect.read, FortiOs.read, listedText, FortiOs.readForest_unlines_eq (by decide +kernel)]
  decide +kernel

theorem oneLine_listedConfig : listedConfig.OneLine :=
  read_listedText ▸ Dialect.oneLine_read .fortiGate listedText

theorem isPlain_listedConfig : ∀ s ∈ listedConfig.services, s.IsPlain := by
  have hnumeral {p : String} (n : Nat) (h : toString n = p) : IsNumeral p := h ▸ isNumeral_toString n
  refine List.forall_mem_cons.2 ⟨⟨by decide, .inl rfl, "80,443", rfl, ?_⟩,
    List.forall_mem_singleton.2 ⟨by decide, .inr rfl, "9000-9010", rfl, ?_⟩⟩
  · have hpieces : pieces ',' "80,443" = ["80", "443"] := by decide +kernel
    rw [ListsPorts, hpieces]
    exact List.forall_mem_cons.2 ⟨.port (hnumeral 80 (by decide)),
      List.forall_mem_singleton.2 (.port (hnumeral 443 (by decide)))⟩
  · have hpieces : pieces ',' "9000-9010" = ["9000" ++ "-" ++ "9010"] := by decide +kernel
    rw [ListsPorts, hpieces]
    exact List.forall_mem_singleton.2
      (.range (hnumeral 9000 (by decide)) (hnumeral 9010 (by decide)))

theorem keepsService_read_write_iff_listedText :
    listedConfig.OneLine ∧ (∀ s ∈ listedConfig.services, s.IsPlain)
      ∧ (∀ p ∈ listedConfig.securityProfiles, p.kind ∈ Cisco.profileKinds)
      ∧ (listedConfig.services.map (·.name)).Nodup ∧ highService ∈ listedConfig.services
      ∧ highService.port = some "9000-9010"
      ∧ (Dialect.ciscoAsa.read (Dialect.ciscoAsa.write .fortiGate listedConfig)).KeepsService
        highService := by
  have hkinds : ∀ p ∈ listedConfig.securityProfiles, p.kind ∈ Cisco.profileKinds :=
    List.forall_mem_nil _
  have hnames : (listedConfig.services.map (·.name)).Nodup := by decide
  have hmem : highService ∈ listedConfig.services := by decide
  exact ⟨oneLine_listedConfig, isPlain_listedConfig, hkinds, hnames, hmem, rfl,
    (keepsService_read_write_iff oneLine_listedConfig isPlain_listedConfig hkinds hnames .fortiGate
      .ciscoAsa hmem rfl).2 (by decide : Cisco.isPortList "9000-9010" = false)⟩

/-- **A list of ports is lost**: read back, the service has its first port only, or it is gone. -/
theorem not_kept_listedText :
    Dialect.fortiGate.read listedText = listedConfig
      ∧ (∀ s ∈ listedConfig.services, s.IsPlain) ∧ (listedConfig.services.map (·.name)).Nodup
      ∧ webService ∈ listedConfig.services
      ∧ (¬ ∃ s' ∈ (Dialect.fortiGate.read (Dialect.fortiGate.write .fortiGate
          listedConfig)).services, s'.name = webService.name ∧ webService.IsKeptAs s')
      ∧ ¬ ∃ s' ∈ (Dialect.ciscoAsa.read (Dialect.ciscoAsa.write .fortiGate
          listedConfig)).services, s'.name = webService.name ∧ webService.IsKeptAs s' := by
  have hfirst : (Dialect.fortiGate.read (Dialect.fortiGate.write .fortiGate listedConfig)).services
      = [{ webService with port := some "80" }, highService] := by
    refine (FortiOs.services_read_write .fortiGate oneLine_listedConfig
      isPlain_listedConfig).trans ?_
    decide +kernel
  have hgone : (Dialect.ciscoAsa.read (Dialect.ciscoAsa.write .fortiGate listedConfig)).services
      = [highService] := by
    refine (Cisco.services_read_write oneLine_listedConfig (List.forall_mem_nil _) .asa .fortiGate
      isPlain_listedConfig).trans ?_
    decide +kernel
  have hhigh : highService.name ≠ webService.name := by decide
  have hports : portSet "80" ≠ portSet "80,443" := fun heq => by
    have hmem : (443 : UInt16) ∈ portSet "80,443" := by decide +kernel
    have hnot : (443 : UInt16) ∉ portSet "80" := by decide +kernel
    exact hnot (heq ▸ hmem)
  refine ⟨read_listedText, isPlain_listedConfig, by decide, by decide, ?_, ?_⟩
  · rw [hfirst]
    rintro ⟨s', hs', hname, hkept⟩
    rcases List.mem_cons.1 hs' with rfl | hs'
    · exact hports (Option.some.inj hkept.2)
    · exact hhigh (List.mem_singleton.1 hs' ▸ hname)
  · rw [hgone]
    rintro ⟨s', hs', hname, -⟩
    exact hhigh (List.mem_singleton.1 hs' ▸ hname)

end FirewallConfig
