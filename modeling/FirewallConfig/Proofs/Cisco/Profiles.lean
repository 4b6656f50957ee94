import FirewallConfig.Proofs.Cisco.Step

/-!
# Proofs/Cisco/Profiles — the profiles that a text can hold

A profile has the kind that its header gives it.  So every profile of a text has a kind that a header
can give in its product (`kind_of_mem_securityProfiles`): one of the products has no such header, and
no profile (`securityProfiles_read_asa`).
-/

namespace FirewallConfig.Cisco

open Text

namespace Reading

/-- Every profile, stored or open, has a kind with the property, and so does every header that the
product has. -/
structure HasKinds (P : String → Prop) (r : Reading) : Prop where
  headers : ∀ kind name, r.flavor.enables (.profile kind name) = true → kind ∈ profileKinds → P kind
  stored : ∀ p ∈ r.config.securityProfiles, P p.kind
  opened : ∀ p, r.builder? = some (.profile p) → P p.kind

namespace HasKinds

variable {P : String → Prop} {r : Reading} (hr : r.HasKinds P)
include hr

theorem closeBlock : r.closeBlock.HasKinds P := by
  have hnone : r.closeBlock.builder? = none := builder?_of_block_none (block_closeBlock r)
  have hopened : ∀ p, r.closeBlock.builder? = some (.profile p) → P p.kind := fun p hp => by
    rw [hnone] at hp
    cases hp
  unfold Reading.closeBlock at hopened ⊢
  split at hopened
  · next b hblock =>
    have hbuilder := builder?_of_block hblock
    cases b with
    | profile p =>
      exact ⟨hr.headers, List.forall_mem_append.2
        ⟨hr.stored, List.forall_mem_singleton.2 (hr.opened p hbuilder)⟩, hopened⟩
    | _ => exact ⟨hr.headers, hr.stored, hopened⟩
  · exact hr

theorem blockLine {b : Block} (hblock : r.block = some b) (l : Line) :
    (r.blockLine b l).HasKinds P := by
  obtain ⟨hkept, hbuilder⟩ := kept_blockLine hblock l
  have hflavor : (r.blockLine b l).flavor = r.flavor := congrArg Kept.flavor hkept
  have hstored : (r.blockLine b l).config.securityProfiles = r.config.securityProfiles :=
    congrArg Kept.securityProfiles hkept
  refine ⟨by rw [hflavor]; exact hr.headers, by rw [hstored]; exact hr.stored, fun p hp => ?_⟩
  rw [hbuilder] at hp
  obtain ⟨b', hb', htake⟩ := Option.map_eq_some_iff.1 hp
  cases b' with
  | profile p' =>
    cases htake
    exact hr.opened p' ((builder?_of_block hblock).trans hb')
  | _ => cases htake

theorem apply (hblock : r.block = none) {d : Directive} {ws : List String}
    (hread : d.IsReadFrom ws) (henables : r.flavor.enables d = true) : (r.apply d).HasKinds P := by
  obtain ⟨hkept, hbuilder⟩ := kept_apply hblock d
  have hflavor : (r.apply d).flavor = r.flavor := congrArg Kept.flavor hkept
  have hstored : (r.apply d).config.securityProfiles = r.config.securityProfiles :=
    congrArg Kept.securityProfiles hkept
  refine ⟨by rw [hflavor]; exact hr.headers, by rw [hstored]; exact hr.stored, fun p hp => ?_⟩
  rw [hbuilder] at hp
  cases d with
  | profile kind name =>
    cases hp
    exact hr.headers kind name henables hread
  | _ => cases hp

theorem step (raw : String) : (r.step raw).HasKinds P := by
  have hmoves := moves_step r raw
  generalize r.step raw = r' at hmoves ⊢
  cases hmoves with
  | stay => exact hr
  | close => exact hr.closeBlock
  | blockLine hblock => exact hr.blockLine hblock _
  | apply _ _ hread henables =>
    exact hr.closeBlock.apply (block_closeBlock r) hread (by rwa [flavor_closeBlock])

theorem run (ls : List String) : (r.run ls).HasKinds P :=
  run_invariant (fun _ raw hr => hr.step raw) hr ls

end HasKinds

end Reading

/-- **Every profile of a text has a kind that a header can give it.** -/
theorem kind_of_mem_securityProfiles {flavor : Flavor} {P : String → Prop}
    (hP : ∀ kind name, flavor.enables (.profile kind name) = true → kind ∈ profileKinds → P kind)
    {text : String} {p : SecurityProfile} (hp : p ∈ (read flavor text).securityProfiles) :
    P p.kind := by
  have hstart : (Reading.start flavor).HasKinds P := ⟨hP, List.forall_mem_nil _, nofun⟩
  exact (hstart.run (lines text)).closeBlock.stored p hp

theorem mem_profileKinds_of_mem_securityProfiles {flavor : Flavor} {text : String}
    {p : SecurityProfile} (hp : p ∈ (read flavor text).securityProfiles) :
    p.kind ∈ profileKinds := kind_of_mem_securityProfiles (fun _ _ _ h => h) hp

theorem securityProfiles_read_asa (text : String) : (read .asa text).securityProfiles = [] :=
  List.eq_nil_iff_forall_not_mem.2 fun _ hp =>
    kind_of_mem_securityProfiles (P := fun _ => False) (fun _ _ h _ => by cases h) hp

end FirewallConfig.Cisco
