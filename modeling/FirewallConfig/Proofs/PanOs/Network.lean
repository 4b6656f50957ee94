import FirewallConfig.Proofs.Config.Network
import FirewallConfig.Proofs.PanOs.Sections

/-!
# Proofs/PanOs/Network — the interfaces and the routes of a written document are read back

A network is written in slash notation and read back from it.  So a route leads where it led
(`path_routeReadBack`).  An interface has its address again, but neither its VLAN nor the state that it
was shut down into: both are written into its entry, and neither is read from there
(`entryReadBack_eq`).
-/

namespace FirewallConfig.PanOs

open Xml (Node linesOfAll)

/-! ## Routes -/

/-- **A route leads where it led**, if it leads from addresses to an address. -/
theorem path_routeReadBack (c : Config) {r : Route} (hr : r.IsConcrete) (position : Nat) :
    (routeReadBack c r position).path = r.path := by
  have hread := Network.read?_cidr (n := ⟨r.network, r.mask⟩) hr.network hr.mask
  rw [routeReadBack, hread]
  rfl

/-! ## Interfaces -/

/-- The address of an interface is the name of the entry after its tag. -/
theorem entryAfter_interfaceEntry {i : Interface} {n : Network}
    (haddress : i.address? = some (n.address, n.mask)) :
    (Block.ofLines (interfaceEntry i).lines).entryAfter "ip" = some n.cidr := by
  have hip (more : List Node) :
      (Node.branch "layer3" (Node.branch "ip" [entry n.cidr []] :: more)).lines
        = (Mark.opening "layer3").line :: (Mark.opening "ip").line :: (Mark.emptyEntry n.cidr).line
          :: ((Mark.closing "ip").line :: (linesOfAll more ++ [(Mark.closing "layer3").line])) := by
    rw [lines_branch, if_neg (by simp), Xml.linesOfAll_cons, lines_branch, if_neg (by simp),
      Xml.linesOfAll_singleton, lines_entry, if_pos (by rfl)]
    simp only [List.cons_append, List.nil_append]
  obtain ⟨rest, hlines⟩ : ∃ rest, (interfaceEntry i).lines
      = [(Mark.entry i.name).line, (Mark.opening "layer3").line]
        ++ (Mark.opening "ip").line :: (Mark.emptyEntry n.cidr).line :: rest := by
    rw [interfaceEntry, haddress, lines_entry, if_neg (by simp)]
    simp only [Option.toList_some, List.map_singleton, List.cons_append, List.nil_append,
      Xml.linesOfAll_cons, hip, List.append_assoc]
    exact ⟨_, rfl⟩
  have hbefore : ∀ l ∈ [(Mark.entry i.name).line, (Mark.opening "layer3").line],
      opensWith "ip" l = false := by
    have hentry : opensWith "ip" (Mark.entry i.name).line = false :=
      Mark.opensWith_line (by decide) (m := .entry _) trivial
    exact List.forall_mem_cons.2 ⟨hentry, by decide⟩
  rw [hlines]
  exact entryAfter_ofLines (by decide) (by decide) n.cidr hbefore rest

/-- The interface that is read from an entry, before it is joined with its zone. -/
def entryReadBack (i : Interface) : Interface :=
  readInterface (Block.ofLines (interfaceEntry i).lines) i.name

/-- **An interface is read back with its address**, and with nothing else of it but its comment. -/
theorem entryReadBack_eq {i : Interface} {ip mask : String}
    (haddress : i.address? = some (ip, mask)) (hip : isIPv4 ip = true)
    (hmask : mask ∈ Netmask.table) :
    entryReadBack i = { name := i.name, ip := some ip, mask := some mask
                        nickname := (Block.ofLines (interfaceEntry i).lines).leaf "comment" } := by
  have hread : Network.read? (Network.mk ip mask).cidr = some ⟨ip, mask⟩ :=
    Network.read?_cidr hip hmask
  rw [entryReadBack, readInterface, entryAfter_interfaceEntry (n := ⟨ip, mask⟩) haddress,
    Option.bind_some, hread]
  rfl

theorem name_entryReadBack (i : Interface) : (entryReadBack i).name = i.name :=
  name_readInterface _ i.name

theorem name_joinZone (zones : List Zone) (i : Interface) : (joinZone zones i).name = i.name := rfl

/-- The interfaces of a document are those of its entries, each with its zone. -/
theorem interfaces_read_write (origin : Dialect) {c : Config} (hc : c.OneLine)
    (hnames : (c.interfaces.map (·.name)).Nodup) :
    (read (write origin c)).interfaces
      = c.interfaces.map fun i => joinZone (read (write origin c)).zones (entryReadBack i) := by
  have hjoined (text : String) : (read text).interfaces
      = (interfacesPart.get (Reading.run {} (Text.lines text)).config).map
        (joinZone (read text).zones) := rfl
  rw [hjoined, interfaces_run_write origin hc hnames, List.map_map]
  rfl

/-- **Under the name of an interface stands what its entry says**, if all names differ, with its
zone. -/
theorem exists_interface?_read_write (origin : Dialect) {c : Config} (hc : c.OneLine)
    (hnames : (c.interfaces.map (·.name)).Nodup) {i : Interface} (hi : i ∈ c.interfaces) :
    ∃ zones, (read (write origin c)).interface? i.name
      = some (joinZone zones (entryReadBack i)) := by
  refine ⟨(read (write origin c)).zones, ?_⟩
  rw [Config.interface?, interfaces_read_write origin hc hnames]
  exact find?_map_of_nodup (·.name)
    (fun j => (name_joinZone _ _).trans (name_entryReadBack j)) hnames hi

end FirewallConfig.PanOs
