import FirewallConfig.Proofs.Cisco.Routes
import FirewallConfig.Proofs.Config.Groups
import FirewallConfig.Proofs.FortiOs.Network
import FirewallConfig.Proofs.PanOs.Network

/-!
# Proofs/Config/Routes — routes lead where they led in every dialect

Each dialect has a layout of its own for a route, and none of them keeps all of it: the name, the
interface and the description may come back as others.  Where the route leads is kept by all of them,
and so are the order of the routes and their number (`path_routes_read_write`).
-/

namespace FirewallConfig

/-- **Routes lead where they led**, from any dialect to any dialect, one by one and in order, if they
lead from addresses to an address and nothing that is called like an address stands for an
interface. -/
theorem path_routes_read_write (source target : Dialect) (text : String)
    (hinterfaces : ∀ i ∈ (source.read text).interfaces, i.IsCallable)
    (hroutes : ∀ r ∈ (source.read text).routes, r.IsConcrete) :
    (target.read (target.write source (source.read text))).routes.map Route.path
      = (source.read text).routes.map Route.path := by
  have hc := Dialect.oneLine_read source text
  have hkinds := source.mem_profileKinds_of_mem_securityProfiles text
  generalize source.read text = c at hinterfaces hroutes hc hkinds ⊢
  have hcisco (flavor : Cisco.Flavor) :
      (Cisco.read flavor (Cisco.write flavor source c)).routes.map Route.path
        = c.routes.map Route.path := by
    rw [Cisco.routes_read_write hc hkinds flavor source hinterfaces hroutes, List.map_map]
    rfl
  have hpositions {f : Route → Nat → Route}
      (hf : ∀ r ∈ c.routes, ∀ position, (f r position).path = r.path) :
      (c.routes.zipIdx.map fun placed => f placed.1 placed.2).map Route.path
        = c.routes.map Route.path := by
    have hplaces : c.routes.zipIdx.map (Route.path ∘ Prod.fst) = c.routes.map Route.path := by
      rw [← List.map_map, List.zipIdx_map_fst]
    rw [List.map_map, ← hplaces]
    exact List.map_congr_left fun placed hplaced =>
      hf placed.1 (List.fst_mem_of_mem_zipIdx hplaced) placed.2
  cases target with
  | ciscoAsa => exact hcisco .asa
  | ciscoFtd => exact hcisco .ftd
  | fortiGate =>
    have hread := FortiOs.routes_read_write source hc hroutes
    exact (congrArg (List.map Route.path) hread).trans (hpositions fun _ _ _ => rfl)
  | paloAlto =>
    have hread := PanOs.routes_of_eq_read_write hc (Eq.refl (PanOs.read (PanOs.write source c)))
    exact (congrArg (List.map Route.path) hread).trans
      (hpositions fun r hr position => PanOs.path_routeReadBack c (hroutes r hr) position)

/-- An interface with a default route, and twice the same route, which names no interface. -/
def routedLines : List String :=
  ["config system interface", "edit port1", "set ip 192.0.2.2 255.255.255.0", "set alias wan",
   "end", "config router static", "edit 1", "set gateway 192.0.2.1", "set device port1", "next",
   "edit 2", "set dst 10.0.0.0 255.0.0.0", "set gateway 192.0.2.9", "set distance 20", "next",
   "edit 3", "set dst 10.0.0.0 255.0.0.0", "set gateway 192.0.2.9", "set distance 20", "end"]

def routedText : String := Text.unlines routedLines

theorem path_routes_read_write_routedText :
    (∀ i ∈ (Dialect.fortiGate.read routedText).interfaces, i.IsCallable)
      ∧ (∀ r ∈ (Dialect.fortiGate.read routedText).routes, r.IsConcrete)
      ∧ (Dialect.ciscoFtd.read (Dialect.ciscoFtd.write .fortiGate
          (Dialect.fortiGate.read routedText))).routes.map Route.path
        = [(⟨"0.0.0.0", "0.0.0.0"⟩, some "192.0.2.1", none),
           (⟨"10.0.0.0", "255.0.0.0"⟩, some "192.0.2.9", some 20),
           (⟨"10.0.0.0", "255.0.0.0"⟩, some "192.0.2.9", some 20)] := by
  have hforest : FortiOs.readForest routedText = (FortiOs.Reading.run {} routedLines).finish :=
    FortiOs.readForest_unlines_eq (by decide +kernel)
  have hinterfaces : (Dialect.fortiGate.read routedText).interfaces
      = [{ name := "port1", ip := some "192.0.2.2", mask := some "255.255.255.0",
           nickname := some "wan", zone := some "untrust" }] := by
    refine (FortiOs.interfaces_read routedText).trans ?_
    rw [hforest]
    decide +kernel
  have hroutes : (Dialect.fortiGate.read routedText).routes
      = [{ name := some "1", network := "0.0.0.0", mask := "0.0.0.0", gateway := some "192.0.2.1",
           interface := some "port1" },
         { name := some "2", network := "10.0.0.0", mask := "255.0.0.0", gateway := some "192.0.2.9",
           distance := some 20 },
         { name := some "3", network := "10.0.0.0", mask := "255.0.0.0", gateway := some "192.0.2.9",
           distance := some 20 }] := by
    refine (FortiOs.routes_read routedText).trans ?_
    rw [hforest]
    decide +kernel
  have hcallable : ∀ i ∈ (Dialect.fortiGate.read routedText).interfaces, i.IsCallable := by
    rw [hinterfaces]
    exact List.forall_mem_singleton.2
      { name := by decide, nickname := by decide, zone := by decide }
  have hconcrete : ∀ r ∈ (Dialect.fortiGate.read routedText).routes, r.IsConcrete := by
    rw [hroutes]
    simp only [List.forall_mem_cons]
    refine ⟨?_, ?_, ?_, List.forall_mem_nil _⟩
    · exact { network := by decide, mask := by decide, gateway := ⟨_, rfl, by decide⟩
              interface := by decide }
    · exact { network := by decide, mask := by decide, gateway := ⟨_, rfl, by decide⟩ }
    · exact { network := by decide, mask := by decide, gateway := ⟨_, rfl, by decide⟩ }
  refine ⟨hcallable, hconcrete, ?_⟩
  rw [path_routes_read_write .fortiGate .ciscoFtd routedText hcallable hconcrete, hroutes]
  rfl

end FirewallConfig
