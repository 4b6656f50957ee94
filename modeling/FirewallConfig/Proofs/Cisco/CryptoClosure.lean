import FirewallConfig.Proofs.Cisco.CryptoFacts
import FirewallConfig.Proofs.Cisco.Tunnels
import FirewallConfig.Proofs.Config.Groups

/-!
# Proofs/Cisco/CryptoClosure — what a written text says about tunnels hangs together

What tunnels need and the configuration lacks is written for them.  Main statement: how far what is
written of a text refers only to what is written with it (`hangTogether_read`).
-/

namespace FirewallConfig

namespace Cisco

open Text

/-! ## Transform sets are added where one is lacking -/

section SelectSets

variable {sets more : List TransformSet}

/-- The second list has other sets behind those of the first, each of a name of its own. -/
def AddsApart (sets more : List TransformSet) : Prop :=
  ∃ added, more = sets ++ added ∧ (added.map (·.name)).Nodup
    ∧ ∀ s ∈ added, s.name ∉ sets.map (·.name)

theorem addsApart_refl (sets : List TransformSet) : AddsApart sets sets :=
  ⟨[], (List.append_nil _).symm, List.nodup_nil, List.forall_mem_nil _⟩

theorem AddsApart.trans {most : List TransformSet} (h : AddsApart sets more)
    (h' : AddsApart more most) : AddsApart sets most := by
  obtain ⟨first, rfl, hfirst, hfresh⟩ := h
  obtain ⟨second, rfl, hsecond, hfresh'⟩ := h'
  have hother : ∀ s ∈ second, s.name ∉ sets.map (·.name) ∧ s.name ∉ first.map (·.name) := by
    intro s hs
    have hnot := hfresh' s hs
    rwa [List.map_append, List.mem_append, not_or] at hnot
  refine ⟨first ++ second, List.append_assoc _ _ _, ?_,
    List.forall_mem_append.2 ⟨hfresh, fun s hs => (hother s hs).1⟩⟩
  rw [List.map_append, List.nodup_append]
  refine ⟨hfirst, hsecond, fun name hname name' hname' heq => ?_⟩
  obtain ⟨s, hs, rfl⟩ := List.mem_map.1 hname'
  exact (hother s hs).2 (heq ▸ hname)

theorem AddsApart.subset (h : AddsApart sets more) : sets ⊆ more := by
  obtain ⟨added, rfl, -, -⟩ := h
  exact List.subset_append_left _ _

theorem isDeclared_iff {name : String} :
    isDeclared sets name = true ↔ name ∈ sets.map (·.name) := by
  simp [isDeclared]

theorem isWord_chosenSet (hsets : ∀ s ∈ sets, IsWord s.name) (proposal : String) :
    IsWord (chosenSet sets proposal) := by
  unfold chosenSet
  split
  · next name names hwords => exact isWord_of_mem_words (hwords ▸ List.mem_cons_self)
  · exact hsets _ List.mem_cons_self
  · decide

/-- What is selected for tunnels, where the sets of `more` are written. -/
structure Selects (sets more : List TransformSet) (texts : List String) : Prop where
  apart : AddsApart sets more
  words : ∀ s ∈ more, IsWord s.name
  resolves : ∀ text ∈ texts, ∀ name ∈ Text.words text, name ∈ more.map (·.name)

theorem selects_selectSet (hsets : ∀ s ∈ sets, IsWord s.name) (t : Tunnel) :
    Selects sets (selectSet sets t).2 [(selectSet sets t).1] := by
  unfold selectSet
  generalize t.proposal.getD "" = proposal
  dsimp only
  split
  · next hdeclared =>
    have hall := List.all_eq_true.1 (Bool.and_eq_true_iff.1 hdeclared).2
    exact ⟨addsApart_refl sets, hsets,
      List.forall_mem_singleton.2 fun name hname => isDeclared_iff.1 (hall name hname)⟩
  · have hword := isWord_chosenSet hsets proposal
    generalize chosenSet sets proposal = name at hword
    dsimp only
    -- the text is this one name
    have hresolves {more : List TransformSet} (hname : name ∈ more.map (·.name)) :
        ∀ text ∈ [name], ∀ w ∈ Text.words text, w ∈ more.map (·.name) := by
      refine List.forall_mem_singleton.2 fun w hw => ?_
      rw [hword.words_eq, List.mem_singleton] at hw
      exact hw ▸ hname
    split
    · next hdeclared =>
      exact ⟨addsApart_refl sets, hsets, hresolves (isDeclared_iff.1 hdeclared)⟩
    · next hdeclared =>
      have hfresh : ∀ s ∈ [transformOfProposal name], s.name ∉ sets.map (·.name) :=
        List.forall_mem_singleton.2 fun hmem => hdeclared (isDeclared_iff.2 hmem)
      refine ⟨⟨_, rfl, List.nodup_singleton _, hfresh⟩, forall_mem_concat hsets hword, hresolves ?_⟩
      exact List.mem_map_of_mem (List.mem_append_right _ (List.mem_singleton_self _))

/-- **Every set that tunnels are written with is among the sets that are written**, and those that
were lacking are added once. -/
theorem selects_selectSets (hsets : ∀ s ∈ sets, IsWord s.name) (ts : List Tunnel) :
    Selects sets (selectSets sets ts).2 ((selectSets sets ts).1.map Prod.snd) := by
  induction ts generalizing sets with
  | nil => exact ⟨addsApart_refl sets, hsets, List.forall_mem_nil _⟩
  | cons t ts ih =>
    have hfirst := selects_selectSet hsets t
    have hrest := ih hfirst.words
    refine ⟨hfirst.apart.trans hrest.apart, hrest.words, List.forall_mem_cons.2 ⟨?_, hrest.resolves⟩⟩
    intro name hname
    exact List.map_subset _ hrest.apart.subset
      (hfirst.resolves _ (List.mem_singleton_self _) name hname)

/-- All tunnels are written, in order. -/
theorem map_fst_selectSets (sets : List TransformSet) (ts : List Tunnel) :
    (selectSets sets ts).1.map Prod.fst = ts := by
  induction ts generalizing sets with
  | nil => rfl
  | cons t ts ih => exact congrArg (t :: ·) (ih _)

/-- Each tunnel is written at its own place. -/
theorem zipIdx_selectSets (sets : List TransformSet) (ts : List Tunnel) :
    (selectSets sets ts).1.zipIdx.map (Prod.map Prod.fst id) = ts.zipIdx := by
  rw [← List.zipIdx_map, map_fst_selectSets]

theorem mem_zipIdx_of_mem_selectSets {ts : List Tunnel} {p : (Tunnel × String) × Nat}
    (hp : p ∈ (selectSets sets ts).1.zipIdx) : (p.1.1, p.2) ∈ ts.zipIdx :=
  zipIdx_selectSets sets ts ▸ List.mem_map_of_mem hp

end SelectSets

/-! ## The part about tunnels -/

theorem writtenIkePolicies_ne_nil {v : Vpn} (h : v.tunnels ≠ []) : writtenIkePolicies v ≠ [] := by
  rw [writtenIkePolicies]
  split
  · exact List.cons_ne_nil _ _
  · next hnone =>
    intro hempty
    simp [hempty, h] at hnone

/-- There is a group for every peer, or the group of the configuration. -/
theorem exists_mem_writtenTunnelGroups {v : Vpn} {t : Tunnel} (ht : t ∈ v.tunnels) {peer : String}
    (hpeer : peer ∈ t.peer) : ∃ g ∈ writtenTunnelGroups v, g.name = peer := by
  cases hdeclared : v.tunnelGroups.any (·.name == peer) with
  | true =>
    obtain ⟨g, hg, hname⟩ := List.any_eq_true.1 hdeclared
    exact ⟨g, List.mem_append_left _ hg, eq_of_beq hname⟩
  | false =>
    refine ⟨{ name := peer, preSharedKey := t.preSharedKey }, List.mem_append_right _
      (List.mem_filterMap.2 ⟨t, ht, Option.map_eq_some_iff.2 ⟨peer, ?_, rfl⟩⟩), rfl⟩
    exact Option.filter_eq_some_iff.2 ⟨hpeer, by rw [hdeclared]; rfl⟩

section Facts

variable {c : Config}

theorem isWord_mapEntry (hv : IsOrderly c.vpn) {t : Tunnel} (ht : t ∈ c.vpn.tunnels)
    (position : Nat) : IsWord (mapEntry t position).1 := by
  have hname := hv.maps t ht
  unfold mapEntry
  split
  · next sequence hsequence => exact hname (by rw [hsequence]; rfl)
  · exact (by decide : IsWord defaultMap)

/-- Every number of an entry is read. -/
theorem number_lt (hsize : 10 * c.vpn.tunnels.length < UInt32.size) {p : Tunnel × Nat}
    (hp : p ∈ c.vpn.tunnels.zipIdx) : (mapEntry p.1 p.2).2 < UInt32.size := by
  have hposition : p.2 < c.vpn.tunnels.length := by
    simpa using (List.mem_zipIdx (x := p.1) (i := p.2) hp).2.1
  unfold mapEntry
  split
  · next sequence _ => exact UInt32.toNat_lt sequence
  · show 10 * (p.2 + 1) < UInt32.size
    omega

/-- The entries that the tunnels are written as, each with the text that names its sets. -/
def entryFacts (c : Config) : List CryptoFact :=
  (selectSets c.vpn.transformSets c.vpn.tunnels).1.zipIdx.flatMap fun ((t, sets), position) =>
    (entrySettings c t sets).map
      (.entry (mapEntry t position).1 (.ofNat (mapEntry t position).2))

/-- The groups that are written. -/
def groupFacts (c : Config) : List CryptoFact :=
  factsOf ((writtenTunnelGroups c.vpn).flatMap tunnelGroupLines)

/-- What is written about tunnels, kind by kind. -/
def writtenFacts (c : Config) : List CryptoFact :=
  (writtenIkePolicies c.vpn).map (.policy ·.priority)
    ++ (selectSets c.vpn.transformSets c.vpn.tunnels).2.map (.set ·.name)
    ++ entryFacts c
    ++ (mapBindings c).filterMap (fun b => (words b.2).head?.map (.bound b.1))
    ++ groupFacts c

/-- Where there is nothing about tunnels, nothing is written. -/
theorem writtenFacts_of_isEmpty (h : c.vpn.isEmpty = true) : writtenFacts c = [] := by
  obtain ⟨⟨⟨⟨⟨htunnels, hpolicies⟩, hsets⟩, -⟩, -⟩, hgroups⟩ :
      (((((c.vpn.tunnels = [] ∧ c.vpn.ikePolicies = []) ∧ c.vpn.transformSets = [])
        ∧ c.vpn.selectors = []) ∧ c.vpn.groupPolicies = []) ∧ c.vpn.tunnelGroups = []) := by
    simpa [Vpn.isEmpty] using h
  simp [writtenFacts, entryFacts, groupFacts, mapBindings, writtenIkePolicies, writtenTunnelGroups,
    htunnels, hpolicies, hsets, hgroups, selectSets, factsOf]

section Parts

variable (hv : IsOrderly c.vpn)
include hv

theorem isWord_priority_of_mem_writtenIkePolicies :
    ∀ p ∈ writtenIkePolicies c.vpn, IsWord p.priority := by
  rw [writtenIkePolicies]
  split
  · exact List.forall_mem_singleton.2 (by decide)
  · exact hv.policies

theorem isWord_of_mem_mapBindings : ∀ b ∈ mapBindings c, IsWord b.1 := by
  intro b hb
  obtain ⟨⟨t, position⟩, ht, rfl⟩ := List.mem_map.1 (List.mem_eraseDups.1 hb)
  exact isWord_mapEntry hv (List.fst_mem_of_mem_zipIdx ht) position

theorem factsOf_writtenIkePolicies : factsOf ((writtenIkePolicies c.vpn).flatMap ikePolicyLines)
    = (writtenIkePolicies c.vpn).map (.policy ·.priority) := by
  rw [factsOf_flatMap, List.map_eq_flatMap]
  exact List.flatMap_congr fun p hp =>
    factsOf_ikePolicyLines (isWord_priority_of_mem_writtenIkePolicies hv p hp)

theorem factsOf_writtenSets :
    factsOf ((selectSets c.vpn.transformSets c.vpn.tunnels).2.map transformSetLine)
      = (selectSets c.vpn.transformSets c.vpn.tunnels).2.map (.set ·.name) :=
  factsOf_map fun s hs => crypto?_transformSetLine ((selects_selectSets hv.sets _).words s hs)

theorem factsOf_writtenTunnels (hsize : 10 * c.vpn.tunnels.length < UInt32.size) :
    factsOf ((selectSets c.vpn.transformSets c.vpn.tunnels).1.zipIdx.flatMap
      fun ((t, sets), position) => tunnelLines c position t sets) = entryFacts c := by
  rw [factsOf_flatMap, entryFacts]
  refine List.flatMap_congr fun p hp => ?_
  have hplace : (p.1.1, p.2) ∈ c.vpn.tunnels.zipIdx := mem_zipIdx_of_mem_selectSets hp
  exact factsOf_tunnelLines c (isWord_mapEntry hv (List.fst_mem_of_mem_zipIdx hplace) p.2)
    (number_lt hsize hplace) p.1.2

/-- **The part about tunnels says of each kind of things what is written of it.** -/
theorem factsOf_cryptoLines (hsize : 10 * c.vpn.tunnels.length < UInt32.size) :
    factsOf (cryptoLines c) = writtenFacts c := by
  cases hempty : c.vpn.isEmpty with
  | true =>
    rw [writtenFacts_of_isEmpty hempty, cryptoLines, if_pos hempty]
    rfl
  | false =>
    have hpolicyLines : factsOf (c.vpn.groupPolicies.flatMap groupPolicyLines) = [] :=
      factsOf_eq_nil (List.forall_mem_flatMap.2 fun g _ => begins_groupPolicyLines g) (by decide)
    have hbang : factsOf ["!"] = [] := by decide
    rw [cryptoLines_eq hempty, block, factsOf_append, factsOf_append, factsOf_append,
      factsOf_append, factsOf_append, factsOf_append, factsOf_writtenIkePolicies hv,
      factsOf_writtenSets hv, factsOf_writtenTunnels hv hsize,
      factsOf_mapBindingLines (isWord_of_mem_mapBindings hv), hpolicyLines, hbang,
      List.append_nil, List.append_nil]
    rfl

end Parts

theorem cryptoFacts_write (hc : c.OneLine) (hkinds : ∀ p ∈ c.securityProfiles, p.kind ∈ profileKinds)
    (origin : Dialect) : cryptoFacts (write .asa origin c) = factsOf (cryptoLines c) := by
  have hreturn (ls : List String) : factsOf (ls.map withoutReturn) = factsOf ls := by
    rw [factsOf, List.filterMap_map]
    exact List.filterMap_congr fun raw _ => crypto?_withoutReturn raw
  obtain ⟨before, after, hlines, hbefore, hafter⟩ := exists_writeLines_eq_crypto hkinds origin
  rw [cryptoFacts, write,
    lines_unlines_map (oneLine_of_mem_writeLines groupKind hc hkinds .asa origin), hreturn, hlines,
    factsOf_append, factsOf_append, factsOf_eq_nil hbefore (by decide),
    factsOf_eq_nil hafter (by decide), List.nil_append, List.append_nil]

/-! ## What is said of each kind -/

/-- The names of the sets that are said. -/
def CryptoFact.set? : CryptoFact → Option String
  | .set name => some name
  | _ => none

/-- The entry that is given the sets it uses: its map and its number. -/
def CryptoFact.user? : CryptoFact → Option (String × Nat)
  | .entry map sequence ("set" :: "ikev1" :: "transform-set" :: _) => some (map, sequence.toNat)
  | _ => none

/-- The sets that an entry uses are those that its tunnel is written with. -/
theorem eq_words_of_mem_entrySettings {t : Tunnel} {sets : String} {names : List String}
    (h : "set" :: "ikev1" :: "transform-set" :: names ∈ entrySettings c t sets) :
    names = words sets := by
  rcases List.mem_append.1 h with h | h
  · rcases List.mem_append.1 h with h | h
    · obtain ⟨acl, -, hacl⟩ := List.mem_map.1 h
      exact absurd (List.cons.inj hacl).1 (by decide)
    · obtain ⟨peer, -, hpeer⟩ := List.mem_map.1 h
      exact absurd (List.cons.inj (List.cons.inj hpeer).2).1 (by decide)
  · cases List.mem_singleton.1 h
    rfl

/-- One setting of an entry is the sets it uses. -/
theorem users_entrySettings (t : Tunnel) (sets map : String) (sequence : UInt32) :
    ((entrySettings c t sets).map (.entry map sequence)).filterMap CryptoFact.user?
      = [(map, sequence.toNat)] := by
  have hnone {α : Type} {f : α → List String} (as : List α)
      (h : ∀ a, (CryptoFact.entry map sequence (f a)).user? = none) :
      ((as.map f).map (.entry map sequence)).filterMap CryptoFact.user? = [] :=
    List.filterMap_eq_nil_iff.2 (List.forall_mem_map.2 (List.forall_mem_map.2 fun a _ => h a))
  rw [entrySettings, List.map_append, List.map_append, List.filterMap_append,
    List.filterMap_append, hnone _ fun _ => rfl, hnone _ fun _ => rfl]
  rfl

/-- **Each tunnel is an entry that uses sets**, under its own map and number. -/
theorem users_entryFacts (hsize : 10 * c.vpn.tunnels.length < UInt32.size) :
    (entryFacts c).filterMap CryptoFact.user? = entryKeys c.vpn := by
  have hone : ∀ p ∈ (selectSets c.vpn.transformSets c.vpn.tunnels).1.zipIdx,
      ((entrySettings c p.1.1 p.1.2).map
        (.entry (mapEntry p.1.1 p.2).1 (.ofNat (mapEntry p.1.1 p.2).2))).filterMap CryptoFact.user?
        = [mapEntry p.1.1 p.2] := by
    intro p hp
    have hnumber : (mapEntry p.1.1 p.2).2 < UInt32.size :=
      number_lt hsize (mem_zipIdx_of_mem_selectSets hp)
    rw [users_entrySettings, UInt32.toNat_ofNat_of_lt' hnumber]
  rw [entryFacts, List.filterMap_flatMap, entryKeys,
    ← zipIdx_selectSets c.vpn.transformSets c.vpn.tunnels, List.map_map, List.map_eq_flatMap]
  exact List.flatMap_congr hone

theorem mem_groupFacts {fact : CryptoFact} (h : fact ∈ groupFacts c) :
    ∃ name, IsWord name ∧ fact = .group name :=
  exists_group_of_mem_factsOf
    (List.forall_mem_flatMap.2 fun g _ => begins_tunnelGroupLines g) h

theorem mem_writtenFacts {fact : CryptoFact} : fact ∈ writtenFacts c
    ↔ (∃ p ∈ writtenIkePolicies c.vpn, .policy p.priority = fact)
      ∨ (∃ s ∈ (selectSets c.vpn.transformSets c.vpn.tunnels).2, .set s.name = fact)
      ∨ (∃ p ∈ (selectSets c.vpn.transformSets c.vpn.tunnels).1.zipIdx,
        ∃ setting ∈ entrySettings c p.1.1 p.1.2,
          .entry (mapEntry p.1.1 p.2).1 (.ofNat (mapEntry p.1.1 p.2).2) setting = fact)
      ∨ (∃ b ∈ mapBindings c, ∃ interface, (words b.2).head? = some interface
        ∧ .bound b.1 interface = fact)
      ∨ ∃ name, .group name ∈ groupFacts c ∧ .group name = fact := by
  have hgroups : fact ∈ groupFacts c ↔ ∃ name, .group name ∈ groupFacts c ∧ .group name = fact := by
    constructor
    · intro h
      obtain ⟨name, -, rfl⟩ := mem_groupFacts h
      exact ⟨name, h, rfl⟩
    · rintro ⟨name, h, rfl⟩
      exact h
  rw [← hgroups]
  simp only [writtenFacts, entryFacts, List.mem_append, List.mem_map, List.mem_filterMap,
    List.mem_flatMap, Option.map_eq_some_iff, or_assoc]

theorem set_mem_writtenFacts {name : String} : .set name ∈ writtenFacts c
    ↔ name ∈ (selectSets c.vpn.transformSets c.vpn.tunnels).2.map (·.name) := by
  simp [mem_writtenFacts]

theorem exists_of_entry_mem_writtenFacts {map : String} {sequence : UInt32} {setting : List String}
    (h : .entry map sequence setting ∈ writtenFacts c) :
    ∃ p ∈ (selectSets c.vpn.transformSets c.vpn.tunnels).1.zipIdx,
      setting ∈ entrySettings c p.1.1 p.1.2 ∧ map = (mapEntry p.1.1 p.2).1
        ∧ sequence = .ofNat (mapEntry p.1.1 p.2).2 := by
  simp only [mem_writtenFacts, reduceCtorEq, and_false, exists_false, false_or, or_false] at h
  obtain ⟨p, hp, setting, hsetting, heq⟩ := h
  cases heq
  exact ⟨p, hp, hsetting, rfl, rfl⟩

/-- A map is bound where the interface of one of its tunnels is called anything. -/
theorem bound_mem_writtenFacts {map : String} : (∃ interface, .bound map interface ∈ writtenFacts c)
    ↔ ∃ p ∈ c.vpn.tunnels.zipIdx,
      (mapEntry p.1 p.2).1 = map ∧ words (tunnelInterface c p.1) ≠ [] := by
  have hbinding (b : String × String) : b ∈ mapBindings c
      ↔ ∃ p ∈ c.vpn.tunnels.zipIdx, ((mapEntry p.1 p.2).1, tunnelInterface c p.1) = b := by
    rw [mapBindings, List.mem_eraseDups, List.mem_map]
  simp only [mem_writtenFacts, reduceCtorEq, and_false, exists_false, false_or, or_false]
  constructor
  · rintro ⟨_, b, hb, interface, hhead, heq⟩
    obtain ⟨p, hp, rfl⟩ := (hbinding b).1 hb
    cases heq
    exact ⟨p, hp, rfl, List.ne_nil_of_mem (List.mem_of_head? hhead)⟩
  · rintro ⟨p, hp, rfl, hwords⟩
    obtain ⟨interface, rest, hcons⟩ := List.exists_cons_of_ne_nil hwords
    exact ⟨interface, _, (hbinding _).2 ⟨p, hp, rfl⟩, interface, by rw [hcons]; rfl, rfl⟩

/-- A peer has a group of its name where it is a word. -/
theorem group_mem_writtenFacts {t : Tunnel} (ht : t ∈ c.vpn.tunnels) {peer : String}
    (hpeer : peer ∈ t.peer) : .group peer ∈ writtenFacts c ↔ IsWord peer := by
  simp only [mem_writtenFacts, reduceCtorEq, and_false, exists_false, false_or, CryptoFact.group.injEq,
    exists_eq_right]
  constructor
  · intro h
    obtain ⟨name, hname, ⟨⟩⟩ := mem_groupFacts h
    exact hname
  · intro hword
    obtain ⟨g, hg, rfl⟩ := exists_mem_writtenTunnelGroups ht hpeer
    rw [groupFacts, factsOf_flatMap]
    exact List.mem_flatMap.2 ⟨g, hg, mem_factsOf_tunnelGroupLines hword⟩

section Kinds

variable {α : Type} {f : CryptoFact → Option α}

/-- What is asked of sets and entries only. -/
theorem filterMap_writtenFacts (hpolicy : ∀ priority, f (.policy priority) = none)
    (hbound : ∀ map interface, f (.bound map interface) = none)
    (hgroup : ∀ name, f (.group name) = none) : (writtenFacts c).filterMap f
      = ((selectSets c.vpn.transformSets c.vpn.tunnels).2.map (.set ·.name)).filterMap f
        ++ (entryFacts c).filterMap f := by
  have hpolicies : ((writtenIkePolicies c.vpn).map (.policy ·.priority)).filterMap f = [] :=
    List.filterMap_eq_nil_iff.2 (List.forall_mem_map.2 fun p _ => hpolicy p.priority)
  have hbounds : ((mapBindings c).filterMap fun b => (words b.2).head?.map (.bound b.1)).filterMap f
      = [] := by
    refine List.filterMap_eq_nil_iff.2 (List.forall_mem_filterMap.2 fun b _ fact hfact => ?_)
    obtain ⟨interface, -, rfl⟩ := Option.map_eq_some_iff.1 hfact
    exact hbound b.1 interface
  have hgroups : (groupFacts c).filterMap f = [] := by
    refine List.filterMap_eq_nil_iff.2 fun fact hfact => ?_
    obtain ⟨name, -, rfl⟩ := mem_groupFacts hfact
    exact hgroup name
  rw [writtenFacts, List.filterMap_append, List.filterMap_append, List.filterMap_append,
    List.filterMap_append, hpolicies, hbounds, hgroups, List.nil_append, List.append_nil,
    List.append_nil]

theorem sets_writtenFacts : (writtenFacts c).filterMap CryptoFact.set?
    = (selectSets c.vpn.transformSets c.vpn.tunnels).2.map (·.name) := by
  have hentries : (entryFacts c).filterMap CryptoFact.set? = [] :=
    List.filterMap_eq_nil_iff.2
      (List.forall_mem_flatMap.2 fun _ _ => List.forall_mem_map.2 fun _ _ => rfl)
  rw [filterMap_writtenFacts (fun _ => rfl) (fun _ _ => rfl) (fun _ => rfl), hentries,
    List.append_nil, List.filterMap_map, ← List.filterMap_eq_map]
  rfl

theorem users_writtenFacts (hsize : 10 * c.vpn.tunnels.length < UInt32.size) :
    (writtenFacts c).filterMap CryptoFact.user? = entryKeys c.vpn := by
  have hsets : ((selectSets c.vpn.transformSets c.vpn.tunnels).2.map (.set ·.name)).filterMap
      CryptoFact.user? = [] := List.filterMap_eq_nil_iff.2 (List.forall_mem_map.2 fun _ _ => rfl)
  rw [filterMap_writtenFacts (fun _ => rfl) (fun _ _ => rfl) (fun _ => rfl), hsets,
    users_entryFacts hsize]
  rfl

end Kinds

/-! ## What hangs together -/

/-- How far what is said about the tunnels of a configuration refers only to what is said. -/
structure HangTogether (c : Config) (facts : List CryptoFact) : Prop where
  /-- Every set that an entry uses is defined. -/
  sets : ∀ map sequence names,
    .entry map sequence ("set" :: "ikev1" :: "transform-set" :: names) ∈ facts →
      ∀ name ∈ names, .set name ∈ facts
  /-- The sets are those of the configuration and others, each of a name of its own. -/
  added : ∃ names, facts.filterMap CryptoFact.set? = c.vpn.transformSets.map (·.name) ++ names
    ∧ names.Nodup ∧ ∀ name ∈ names, name ∉ c.vpn.transformSets.map (·.name)
  /-- Each tunnel is an entry of its own, which uses sets. -/
  users : facts.filterMap CryptoFact.user? = entryKeys c.vpn
  keys : (entryKeys c.vpn).Nodup
  /-- There are no entries but those of tunnels. -/
  entries : ∀ map sequence setting,
    .entry map sequence setting ∈ facts → (map, sequence.toNat) ∈ entryKeys c.vpn
  /-- A map is bound just if the interface of one of its tunnels is called anything. -/
  bound : ∀ map, (∃ interface, .bound map interface ∈ facts)
    ↔ ∃ p ∈ c.vpn.tunnels.zipIdx,
      (mapEntry p.1 p.2).1 = map ∧ words (tunnelInterface c p.1) ≠ []
  /-- A peer has a group of its name just if it is a word. -/
  groups : ∀ t ∈ c.vpn.tunnels, ∀ peer ∈ t.peer, .group peer ∈ facts ↔ IsWord peer
  policies : c.vpn.tunnels ≠ [] → ∃ priority, .policy priority ∈ facts

/-- What a tunnel is written under is an entry. -/
theorem HangTogether.exists_entry {facts : List CryptoFact} (h : HangTogether c facts)
    {key : String × Nat} (hkey : key ∈ entryKeys c.vpn) :
    ∃ sequence setting, .entry key.1 sequence setting ∈ facts := by
  obtain ⟨fact, hfact, huser⟩ := List.mem_filterMap.1 (h.users ▸ hkey)
  unfold CryptoFact.user? at huser
  split at huser
  · next map sequence names =>
    cases huser
    exact ⟨sequence, _, hfact⟩
  · cases huser

/-- **What is written about tunnels hangs together**, but for interfaces that are called nothing and
peers that are not words. -/
theorem hangTogether_write (hv : IsOrderly c.vpn)
    (hsize : 10 * c.vpn.tunnels.length < UInt32.size) (hc : c.OneLine)
    (hkinds : ∀ p ∈ c.securityProfiles, p.kind ∈ profileKinds) (origin : Dialect) :
    HangTogether c (cryptoFacts (write .asa origin c)) := by
  have hselects := selects_selectSets hv.sets c.vpn.tunnels
  rw [cryptoFacts_write hc hkinds, factsOf_cryptoLines hv hsize]
  constructor
  case sets =>
    intro map sequence names h name hname
    obtain ⟨p, hp, hsetting, -, -⟩ := exists_of_entry_mem_writtenFacts h
    rw [eq_words_of_mem_entrySettings hsetting] at hname
    have htext : p.1.2 ∈ (selectSets c.vpn.transformSets c.vpn.tunnels).1.map Prod.snd :=
      List.mem_map_of_mem (List.fst_mem_of_mem_zipIdx hp)
    exact set_mem_writtenFacts.2 (hselects.resolves _ htext name hname)
  case added =>
    obtain ⟨added, hadded, hnodup, hfresh⟩ := hselects.apart
    refine ⟨added.map (·.name), ?_, hnodup, List.forall_mem_map.2 hfresh⟩
    rw [sets_writtenFacts, hadded, List.map_append]
  case users => exact users_writtenFacts hsize
  case keys => exact hv.keys
  case entries =>
    intro map sequence setting h
    obtain ⟨p, hp, -, rfl, rfl⟩ := exists_of_entry_mem_writtenFacts h
    have hplace : (p.1.1, p.2) ∈ c.vpn.tunnels.zipIdx := mem_zipIdx_of_mem_selectSets hp
    have hnumber : (mapEntry p.1.1 p.2).2 < UInt32.size := number_lt hsize hplace
    rw [UInt32.toNat_ofNat_of_lt' hnumber]
    exact List.mem_map_of_mem hplace
  case bound => exact fun map => bound_mem_writtenFacts
  case groups => exact fun t ht peer hpeer => group_mem_writtenFacts ht hpeer
  case policies =>
    intro htunnels
    obtain ⟨p, hp⟩ := List.exists_mem_of_ne_nil _ (writtenIkePolicies_ne_nil htunnels)
    exact ⟨p.priority, mem_writtenFacts.2 (.inl ⟨p, hp, rfl⟩)⟩

end Facts

/-- **What is written of a text about tunnels hangs together**, but for interfaces that are called
nothing and peers that are not words: the sets that entries use are defined, none twice for want of
one, no two tunnels are one entry, and where there are tunnels there is a policy. -/
theorem hangTogether_read (source : Dialect) (text : String)
    (hsize : 10 * (source.read text).vpn.tunnels.length < UInt32.size) :
    HangTogether (source.read text) (cryptoFacts (write .asa source (source.read text))) :=
  hangTogether_write (source.isOrderly_read text) hsize (source.oneLine_read text)
    (source.mem_profileKinds_of_mem_securityProfiles text) source

/-- Two crypto maps.  An entry of one names a declared set and another, the entry of the other one
that is not declared. -/
def setsText : String :=
  Text.unlines
    ["crypto ipsec ikev1 transform-set S esp-aes esp-sha-hmac", "crypto map m 1 set peer 192.0.2.1",
     "crypto map m 1 set ikev1 transform-set S T", "crypto map m interface outside",
     "crypto map n 1 set peer 192.0.2.2", "crypto map n 1 set ikev1 transform-set aes256-sha256"]

theorem hangTogether_read_setsText :
    10 * (Dialect.ciscoAsa.read setsText).vpn.tunnels.length < UInt32.size
      ∧ HangTogether (Dialect.ciscoAsa.read setsText)
        (cryptoFacts (write .asa .ciscoAsa (Dialect.ciscoAsa.read setsText))) := by
  have htunnels : (Dialect.ciscoAsa.read setsText).vpn.tunnels.length = 2 := by
    rw [Dialect.read, Cisco.read, setsText, Reading.run_lines_unlines _ (by decide +kernel)]
    decide +kernel
  have hsize : 10 * (Dialect.ciscoAsa.read setsText).vpn.tunnels.length < UInt32.size := by
    rw [htunnels]
    decide
  exact ⟨hsize, hangTogether_read .ciscoAsa setsText hsize⟩

/-- A tunnel whose interface has an empty name. -/
def unnamedText : String :=
  Text.unlines
    ["config vpn ipsec phase1-interface", "edit \"t\"", "set interface \"\"",
     "set remote-gw 192.0.2.1", "end"]

/-- A tunnel with two peers. -/
def twoPeersText : String := Text.unlines ["crypto map m 1 set peer 192.0.2.1 192.0.2.2"]

/-- **A map that has an entry and is bound to no interface, and a peer that no group is called
like.** -/
theorem not_closed_unnamedText_twoPeersText :
    (∃ map, (∃ sequence setting, .entry map sequence setting
          ∈ cryptoFacts (write .asa .fortiGate (Dialect.fortiGate.read unnamedText)))
        ∧ ∀ interface, .bound map interface
          ∉ cryptoFacts (write .asa .fortiGate (Dialect.fortiGate.read unnamedText)))
      ∧ ∃ t ∈ (Dialect.ciscoAsa.read twoPeersText).vpn.tunnels, ∃ peer ∈ t.peer,
        .group peer ∉ cryptoFacts (write .asa .ciscoAsa (Dialect.ciscoAsa.read twoPeersText)) := by
  have hunnamed : Dialect.fortiGate.read unnamedText = { vpn.tunnels :=
      [{ name := "t", interface := some "", peer := some "192.0.2.1" }] } := by
    rw [Dialect.read, FortiOs.read, unnamedText, FortiOs.readForest_unlines_eq (by decide +kernel)]
    decide +kernel
  have hpair : Dialect.ciscoAsa.read twoPeersText = { vpn.tunnels :=
      [{ name := "m", sequence := some 1, peer := some "192.0.2.1 192.0.2.2" }] } := by
    rw [Dialect.read, Cisco.read, twoPeersText, Reading.run_lines_unlines _ (by decide +kernel)]
    decide +kernel
  have hwritten (source : Dialect) (text : String)
      (hone : (source.read text).vpn.tunnels.length = 1) :
      HangTogether (source.read text) (cryptoFacts (write .asa source (source.read text))) :=
    hangTogether_write (source.isOrderly_read text) (by rw [hone]; decide)
      (source.oneLine_read text) (source.mem_profileKinds_of_mem_securityProfiles text) source
  constructor
  · have hfacts := hwritten .fortiGate unnamedText (by rw [hunnamed]; rfl)
    rw [hunnamed] at hfacts ⊢
    have hkey : (defaultMap, 10) ∈ entryKeys { tunnels :=
        [{ name := "t", interface := some "", peer := some "192.0.2.1" }] } := by decide
    refine ⟨defaultMap, hfacts.exists_entry hkey, fun interface hbound => ?_⟩
    obtain ⟨p, hp, -, hwords⟩ := (hfacts.bound defaultMap).1 ⟨interface, hbound⟩
    cases List.mem_singleton.1 hp
    exact hwords (by decide +kernel)
  · have hfacts := hwritten .ciscoAsa twoPeersText (by rw [hpair]; rfl)
    rw [hpair] at hfacts ⊢
    refine ⟨_, List.mem_singleton_self _, _, rfl, fun hgroup => ?_⟩
    have hword := (hfacts.groups _ (List.mem_singleton_self _) _ rfl).1 hgroup
    revert hword
    decide

end Cisco

end FirewallConfig
