import FirewallConfig.Proofs.Cisco.Foreign
import FirewallConfig.Proofs.Cisco.Standing
import FirewallConfig.Proofs.Config.Network

/-!
# Proofs/Cisco/Routes — routes in lines

A route is one line of words, and a line of another kind says nothing of routes, in a block or outside.
What stands for the interface comes first, and a line whose first operand is an address has the
interface last: so a route is read back if no interface is called by an address
(`routes_read_write`).
-/

namespace FirewallConfig

namespace Cisco

open Text

/-! ## Routes of a text -/

/-- The route that words say. -/
def routeOfWords? : List String → Option Route
  | "route" :: word :: rest => readRoute (word :: rest)
  | _ => none

/-- The route that a directive says. -/
def Directive.route? : Directive → Option Route
  | .route said => said
  | _ => none

theorem route?_readWords (l : Line) (ws : List String) :
    (Directive.readWords l ws).route? = routeOfWords? ws := by
  unfold routeOfWords?
  split
  · rfl
  · next hnot =>
    have hreads := Directive.reads_readWords l ws
    generalize Directive.readWords l ws = d at hreads ⊢
    cases hreads with
    | route word rest => exact absurd rfl (hnot word rest)
    | _ => rfl

namespace Reading

theorem routes_closeBlock (r : Reading) : r.closeBlock.config.routes = r.config.routes := by
  unfold closeBlock
  split
  · next b _ => cases b <;> rfl
  · rfl

theorem routes_blockLine (r : Reading) (b : Block) (l : Line) :
    (r.blockLine b l).config.routes = r.config.routes := by
  cases b with
  | object o =>
    unfold blockLine
    dsimp only
    split <;> rfl
  | _ => rfl

theorem routes_apply (r : Reading) (d : Directive) :
    (r.apply d).config.routes = r.config.routes ++ d.route?.toList := by
  have hnone {s : Reading} (h : s.config.routes = r.config.routes) :
      s.config.routes = r.config.routes ++ [] := h.trans (List.append_nil _).symm
  cases d with
  | route route => rfl
  | accessList acl line => cases line <;> exact hnone rfl
  | cryptoMap map line =>
    rw [apply]
    unfold applyCryptoMap
    split <;> exact hnone rfl
  | aaaServer name operands =>
    rw [apply]
    unfold applyServer
    split <;> exact hnone rfl
  | groupPolicy name kind =>
    rw [apply]
    unfold applyGroupPolicy
    split <;> exact hnone rfl
  | tunnelGroup name operands =>
    rw [apply]
    unfold applyTunnelGroup
    split <;> exact hnone rfl
  | _ => exact hnone rfl

end Reading

/-- Routes, which their lines say. -/
def routeKind : StandingKind Route where
  kept r := r.config.routes
  ofWords? := routeOfWords?
  ofDirective? := Directive.route?
  ofDirective?_readWords := route?_readWords
  ofDirective?_other := rfl
  kept_closeBlock := Reading.routes_closeBlock
  kept_blockLine := Reading.routes_blockLine
  kept_apply := Reading.routes_apply

/-- **The routes of lines** are what each of them says, in order. -/
theorem routes_read_unlines (flavor : Flavor) {ls : List String} (h : ∀ l ∈ ls, OneLine l) :
    (read flavor (unlines ls)).routes = ls.filterMap routeKind.ofLine? := by
  have hread : (read flavor (unlines ls)).routes
      = ((Reading.start flavor).run (lines (unlines ls))).closeBlock.config.routes := rfl
  rw [hread, Reading.run_lines_unlines _ h, Reading.routes_closeBlock]
  refine routeKind.kept_run (fun d hd => ?_) ls
  cases d with
  | route => cases flavor <;> rfl
  | _ => cases hd

/-! ## One line -/

/-- A line that begins with another letter says no route. -/
theorem ofLine?_of_head {raw : String} (h : raw.toList.head? ≠ some 'r') :
    routeKind.ofLine? raw = none := by
  rw [StandingKind.ofLine?]
  split
  · rfl
  · next hraw =>
    have hwords : (words raw).head? ≠ some "route" := fun hhead =>
      h (head?_of_words (Bool.eq_false_iff.2 hraw) hhead)
    show routeOfWords? (words raw) = none
    unfold routeOfWords?
    split
    · next heq => exact absurd (congrArg List.head? heq) hwords
    · rfl

/-- The block of an interface says no route. -/
theorem head?_ne_of_mem_interfaceLines (c : Config) (i : Interface) :
    ∀ l ∈ interfaceLines c i, l.toList.head? ≠ some 'r' := by
  unfold interfaceLines
  generalize nameif c i = name
  dsimp only
  refine forall_mem_block (by decide) (List.forall_mem_append.2 ⟨List.forall_mem_append.2
    ⟨List.forall_mem_append.2 ⟨List.forall_mem_append.2 ⟨List.forall_mem_append.2
      ⟨List.forall_mem_cons.2 ⟨by simp, List.forall_mem_map.2 fun comment _ => by simp⟩,
      List.forall_mem_map.2 fun vlan _ => by simp⟩, List.forall_mem_singleton.2 (by simp)⟩,
      List.forall_mem_map.2 fun level _ => by simp⟩, List.forall_mem_singleton.2 ?_⟩, ?_⟩)
  · split <;> simp
  · split <;> simp

variable {c : Config}

/-- What an interface is called has no slash, and is no address either. -/
theorem isInterfaceName_withoutSlashes {name : String} (h : IsInterfaceName name) :
    IsInterfaceName (withoutSlashes name) := by
  have hlist : (withoutSlashes name).toList
      = name.toList.map fun c => if c == '/' then '_' else c := String.toList_ofList
  by_cases hslash : '/' ∈ name.toList
  · refine ⟨⟨?_, fun d hd => ?_⟩, Bool.eq_false_iff.2 fun haddress => ?_⟩
    · rw [hlist]
      exact mt List.map_eq_nil_iff.1 h.1.1
    · rw [hlist] at hd
      obtain ⟨c, hc, rfl⟩ := List.mem_map.1 hd
      split
      · decide
      · exact h.1.2 c hc
    · have hmem : '_' ∈ (withoutSlashes name).toList := by
        rw [hlist]
        exact List.mem_map.2 ⟨'/', hslash, rfl⟩
      exact absurd ((isNumeric_of_isIPv4 haddress).2 _ hmem) (by decide)
  · have hsame : withoutSlashes name = name := by
      rw [← String.toList_inj, hlist]
      refine (List.map_congr_left fun c hc => ?_).trans (List.map_id _)
      exact if_neg fun heq : (c == '/') = true => hslash (eq_of_beq heq ▸ hc)
    rwa [hsame]

theorem isInterfaceName_nameif {i : Interface} (hi : i.IsCallable) :
    IsInterfaceName (nameif c i) := by
  unfold nameif
  split
  · next hnickname => exact hi.nickname _ (Option.filter_eq_some_iff.1 hnickname).1
  · next hzone => exact hi.zone _ (Option.filter_eq_some_iff.1 hzone).1
  · exact isInterfaceName_withoutSlashes hi.name

theorem isInterfaceName_nameifOr (hnames : ∀ i ∈ c.interfaces, i.IsCallable)
    {reference : Option String} (h : ∀ s ∈ reference, IsInterfaceName s) :
    IsInterfaceName (nameifOr c egress reference) := by
  cases reference with
  | none => exact (by decide : IsInterfaceName egress)
  | some reference =>
    rw [nameifOr, nameifOf]
    split
    · next i hi => exact isInterfaceName_nameif (hnames i (Config.mem_of_findInterface? hi))
    · exact h reference rfl

/-- The route as it is read back: with what its interface is called. -/
def routeReadBack (c : Config) (r : Route) : Route where
  network := r.network
  mask := r.mask
  gateway := r.gateway
  interface := some (nameifOr c egress r.interface)
  distance := r.distance

/-- Operands that begin with the interface, and perhaps end with a distance. -/
theorem readRoute_of_interface {interface : String} (h : isIPv4 interface = false)
    (network mask gateway : String) (distance : Option UInt16) :
    readRoute ([interface, network, mask, gateway] ++ (distance.map toString).toList)
      = some { network, mask, gateway := some gateway, interface := some interface, distance } := by
  simp only [readRoute, List.cons_append, List.nil_append, h, if_neg Bool.false_ne_true]
  cases distance with
  | none => rfl
  | some distance => simp [readUInt16_toString]

/-- **The line of a route is read back.** -/
theorem ofLine?_routeLine (hnames : ∀ i ∈ c.interfaces, i.IsCallable) {r : Route}
    (hr : r.IsConcrete) : routeKind.ofLine? (routeLine c r) = some (routeReadBack c r) := by
  obtain ⟨gateway, hgateway, hnext⟩ := hr.gateway
  obtain ⟨hword, hnot⟩ := isInterfaceName_nameifOr hnames hr.interface
  have hline : routeLine c r
      = unwords (["route", nameifOr c egress r.interface, r.network, r.mask, gateway]
          ++ (r.distance.map toString).toList) := by
    rw [routeLine, hgateway]
    cases r.distance <;> rfl
  have hmask : IsWord r.mask := isWord_of_isIPv4 (Netmask.isIPv4_of_mem_table hr.mask)
  have hws : ∀ w ∈ ["route", nameifOr c egress r.interface, r.network, r.mask, gateway]
      ++ (r.distance.map toString).toList, IsWord w := by
    refine List.forall_mem_append.2 ⟨?_, fun w hw => ?_⟩
    · simp +decide [hword, isWord_of_isIPv4 hr.network, hmask, isWord_of_isIPv4 hnext]
    · obtain ⟨d, -, rfl⟩ := Option.map_eq_some_iff.1 (Option.mem_toList.1 hw)
      exact (isNumeral_toString d.toNat).isWord
  rw [hline, StandingKind.ofLine?, words_unwords_of_isWord hws, List.cons_append,
    isIndented_unwords (by decide), if_neg Bool.false_ne_true, routeReadBack, hgateway]
  exact readRoute_of_interface hnot r.network r.mask gateway r.distance

/-! ## The whole text -/

/-- **The routes of a written text are read back**, each once and in order, whatever else the
configuration holds. -/
theorem routes_read_write (hc : c.OneLine)
    (hkinds : ∀ p ∈ c.securityProfiles, p.kind ∈ profileKinds) (flavor : Flavor) (origin : Dialect)
    (hnames : ∀ i ∈ c.interfaces, i.IsCallable) (hroutes : ∀ r ∈ c.routes, r.IsConcrete) :
    (read flavor (write flavor origin c)).routes = c.routes.map (routeReadBack c) := by
  have hnone {ls : List String} (h : ∀ l ∈ ls, l.toList.head? ≠ some 'r') :
      ls.filterMap routeKind.ofLine? = [] :=
    List.filterMap_eq_nil_iff.2 fun l hl => ofLine?_of_head (h l hl)
  have hwritten : (part (c.routes.map (routeLine c))).filterMap routeKind.ofLine?
      = c.routes.map (routeReadBack c) := by
    have hlines : (c.routes.map (routeLine c)).filterMap routeKind.ofLine?
        = c.routes.map (routeReadBack c) := by
      rw [List.filterMap_map, ← List.filterMap_eq_map]
      exact List.filterMap_congr fun r hr => ofLine?_routeLine hnames (hroutes r hr)
    rw [part]
    split
    · next hempty => rw [← hlines, List.isEmpty_iff.1 hempty]
    · have hbang : ["!"].filterMap routeKind.ofLine? = [] := hnone (by decide)
      rw [block, List.filterMap_append, hlines, hbang, List.append_nil]
  obtain ⟨before, between, after, hlines, hbefore, hbetween, hafter⟩ :=
    exists_writeLines_eq_network hkinds flavor origin
  have hinterfaces : ∀ l ∈ c.interfaces.flatMap (interfaceLines c), l.toList.head? ≠ some 'r' :=
    List.forall_mem_flatMap.2 fun i _ => head?_ne_of_mem_interfaceLines c i
  rw [write, routes_read_unlines flavor (oneLine_of_mem_writeLines groupKind hc hkinds flavor origin),
    hlines]
  simp only [List.filterMap_append, hwritten, hnone hinterfaces, hnone fun l hl => (hbefore l hl).2,
    hnone fun l hl => (hbetween l hl).2, hnone fun l hl => (hafter l hl).2, List.nil_append,
    List.append_nil]

end Cisco

end FirewallConfig
