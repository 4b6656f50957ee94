import FirewallConfig.Proofs.Cisco.Operand
import FirewallConfig.Proofs.Cisco.Records
import FirewallConfig.Proofs.Service.PortList
import Mathlib.Data.List.Basic

/-!
# Proofs/Cisco/Services — which services of a written text are read back

One port or one range is written as the test of a service, which is read back
(`adds_serviceLines`).  A list of several is written as a group of services, and such a group is no
directive: its header opens a block whose lines mean nothing.  So the services of a written text are
those of the configuration that list no more than one (`services_read_write`).
-/

namespace FirewallConfig.Cisco

open Text

/-- The service that a block builds, if it builds one. -/
def Block.service? : Block → Option ServiceObject
  | .service s => some s
  | _ => none

/-- Services, as a kind of records. -/
def serviceKind : RecordKind ServiceObject where
  stored := Kept.services
  built? := Block.service?
  line := serviceLine
  first := "object"
  second := "service"
  directive := .objectService
  new name := { name }
  first_head := by decide
  isWord_first := by decide
  isWord_second := by decide
  ne_object := by decide
  stored_start _ := rfl
  stored_store b r := by
    cases b <;>
      simp [Reading.amend, Reading.kept, Reading.store, Config.putInterface, Config.putAddressObject,
        Block.service?]
  built?_builder? b := by cases b <;> rfl
  built?_take b l := by cases b <;> rfl
  built?_directive _ := rfl
  enables_directive flavor _ := by cases flavor <;> rfl
  readWords_header _ _ := rfl
  words_eq {d} _ _ hread h := by
    cases d with
    | objectService name => exact ⟨name, hread⟩
    | _ => cases h

/-- What a service is read back as; nothing if it lists several ports. -/
def serviceReadBack? (s : ServiceObject) : Option ServiceObject :=
  if s.port.any isPortList then none else some { s with description := s.description.map trim }

theorem isPortList_eq_false {ports : String} : isPortList ports = false ↔ ',' ∉ ports.toList := by
  rw [isPortList, ← Bool.not_eq_true, List.contains_iff_mem]

/-- A list of several ports is written as a group, which adds no service. -/
theorem adds_nil_of_isPortList {s : ServiceObject} (hs : s.port.any isPortList = true) :
    serviceKind.Adds (serviceLines s) [] := by
  obtain ⟨ports, hports, hseveral⟩ := (Option.any_eq_true _ _).1 hs
  have hgroup (protocol : String) :
      ¬ IsHeader "object" "service" s!"object-group service {s.name} {protocol}" := by
    rw [serviceGroupHeader_eq]
    exact not_isHeader_of_words (by decide) (by decide) (.inl (by decide)) _
  refine RecordKind.adds_nil (forall_mem_block (not_isHeader_bang (by decide))
    (List.forall_mem_append.2
      ⟨?_, (holdsBelow_not_isHeader (by decide)).forall_mem_descriptionLines s.description⟩))
  rw [servicePortLines, hports]
  dsimp only
  rw [if_pos hseveral]
  exact List.forall_mem_cons.2 ⟨hgroup _,
    List.forall_mem_map.2 fun ports _ => not_isHeader_append (by decide) (by decide) _⟩

/-- The line of the ports of a service is read as its protocol and these ports. -/
theorem builds_portLine (a : ServiceObject) {protocol ports : String} (hprotocol : IsWord protocol)
    (hports : IsPorts ports) :
    serviceKind.Builds a [" service " ++ protocol ++ " destination " ++ portTest ports]
      { a with protocol, port := some ports } := by
  have hline : " service " ++ protocol ++ " destination " ++ portTest ports
      = " " ++ "service" ++ " " ++ (protocol ++ " " ++ ("destination" ++ " " ++ portTest ports)) := by
    apply String.toList_inj.1
    simp
  have hwords : words (protocol ++ " " ++ ("destination" ++ " " ++ portTest ports))
      = protocol :: "destination" :: words (portTest ports) := by
    rw [hprotocol.words_append, IsWord.words_append (by decide)]
  have hread : readPorts (words (portTest ports)) = some (ports, []) := by
    have hreads := readsPorts_portTest hports []
    rwa [List.append_nil] at hreads
  have hafter : destinationWords ("destination" :: words (portTest ports))
      = words (portTest ports) := rfl
  have hservice (l : Line) :
      serviceLine a l ("service" :: protocol :: "destination" :: words (portTest ports))
        = { a with protocol, port := some ports } := by
    rw [serviceLine, hafter, hread]
    rfl
  rw [hline, ← hservice (Line.ofText (" " ++ "service" ++ " "
    ++ (protocol ++ " " ++ ("destination" ++ " " ++ portTest ports)))), ← hwords]
  exact RecordKind.builds_below a (by decide) (by decide) _

/-- **The lines of a service add the service**, unless it lists several ports. -/
theorem adds_serviceLines {s : ServiceObject} (hs : s.IsPlain) :
    serviceKind.Adds (serviceLines s) (serviceReadBack? s).toList := by
  rw [serviceReadBack?]
  split
  · next hseveral => exact adds_nil_of_isPortList hseveral
  · next hone =>
    obtain ⟨ports, hports, hlist⟩ := hs.port
    have hsingle : isPortList ports = false := by
      rw [hports] at hone
      exact Bool.eq_false_iff.2 hone
    have hprotocol : IsWord s.protocol := by rcases hs.protocol with h | h <;> rw [h] <;> decide
    have hport := builds_portLine { name := s.name } hprotocol
      (hlist.isPorts (isPortList_eq_false.1 hsingle))
    have hdescription : serviceKind.Builds
        { name := s.name, protocol := s.protocol, port := some ports }
        (descriptionLines s.description) { s with description := s.description.map trim } := by
      have hbuilds := RecordKind.builds_descriptionLines (k := serviceKind)
        { name := s.name, protocol := s.protocol, port := some ports }
        (fun d => { name := s.name, protocol := s.protocol, port := some ports
                    description := some d })
        (fun _ _ => rfl) s.description
      rw [← hports] at hbuilds ⊢
      cases hd : s.description <;> rwa [hd] at hbuilds
    have hadds := RecordKind.adds_block (k := serviceKind) hs.name (hport.append hdescription)
    have hlines : serviceLines s
        = block ((serviceKind.first ++ " " ++ serviceKind.second ++ " " ++ s.name)
          :: ([" service " ++ s.protocol ++ " destination " ++ portTest ports]
            ++ descriptionLines s.description)) := by
      have hheader : serviceKind.first ++ " " ++ serviceKind.second ++ " " ++ s.name
          = s!"object service {s.name}" := (serviceHeader_eq s.name).symm
      rw [serviceLines, servicePortLines, hports, hheader, hprotocol.isEmpty_eq]
      dsimp only
      rw [hsingle]
      rfl
    rwa [← hlines] at hadds

theorem services_read (flavor : Flavor) (text : String) : (read flavor text).services
    = serviceKind.stored ((Reading.start flavor).run (lines text)).closeBlock.kept := rfl

/-- **The services of a written text that are read back** are those that list one port or one range,
in order, whatever else the configuration holds. -/
theorem services_read_write {c : Config} (hc : c.OneLine)
    (hkinds : ∀ p ∈ c.securityProfiles, p.kind ∈ profileKinds) (flavor : Flavor) (origin : Dialect)
    (hservices : ∀ s ∈ c.services, s.IsPlain) :
    (read flavor (write flavor origin c)).services = c.services.filterMap serviceReadBack? := by
  have hgroups : serviceKind.Adds (c.addressGroups.flatMap (groupLines c)) [] :=
    RecordKind.adds_nil (List.forall_mem_flatMap.2 fun g _ =>
      not_isHeader_groupLines serviceKind.first_head (by decide) c g)
  have hadds : serviceKind.Adds (c.services.flatMap serviceLines)
      (c.services.filterMap serviceReadBack?) := by
    rw [List.filterMap_eq_flatMap_toList]
    exact RecordKind.adds_flatMap fun s hs => adds_serviceLines (hservices s hs)
  rw [services_read, stored_write serviceKind hc hkinds flavor origin hgroups hadds,
    List.nil_append]

end FirewallConfig.Cisco
