import FirewallConfig.FortiOs.Writer.Literal
import FirewallConfig.Proofs.Address.Endpoint
import FirewallConfig.Proofs.FortiOs.Rules
import FirewallConfig.Proofs.Text.Case
import Mathlib.Data.List.Basic

/-!
# Proofs/FortiOs/Groups — the address groups of a written configuration are read back

A member is written as a name, which is the text of its network where it spells one out.  A group
keeps its name, its description and its place, and its members are the names that are written for
them; a group without members is written, but not read.
-/

namespace FirewallConfig.FortiOs

/-! ## Members -/

/-- What is spelled out is referred to by the text of its network. -/
theorem addressName_of_literalNetwork? {e : String} {n : Network} (h : literalNetwork? e = some n) :
    isIPv4 n.address = true ∧ addressName e = n.cidr := by
  have hspec := Endpoint.classify_spec e
  rw [literalNetwork?] at h
  rw [addressName]
  cases hc : Endpoint.classify e with
  | any => rw [hc] at h; cases h
  | named name => rw [hc] at h; cases h
  | host address =>
    rw [hc] at h hspec
    cases h
    have hcidr := Network.cidr_eq (n := ⟨address, Netmask.single⟩) hspec
    have hbits : toString (Netmask.prefixOrDefault Netmask.single) = "32" := by decide +kernel
    rw [hbits, String.append_assoc] at hcidr
    exact ⟨hspec, hcidr.symm⟩
  | network m =>
    rw [hc] at h hspec
    dsimp only at h ⊢
    split at h
    · cases h
    · next hmask =>
      cases h
      exact ⟨hspec, if_neg hmask⟩

/-- A network in slash notation is not the name of everything. -/
theorem endpointText_cidr (n : Network) : endpointText n.cidr = n.cidr := by
  refine if_neg fun hsame => ?_
  have hlower : Text.lower n.cidr = Text.lower allName := beq_iff_eq.1 hsame
  have hslash : '/' ∈ (Text.lower n.cidr).toList := Text.slash_mem_lower.2 (by simp [Network.cidr])
  rw [hlower] at hslash
  exact absurd hslash (by decide)

/-! ## Groups -/

/-- What a group is read back as. -/
def groupReadBack (g : AddressGroup) : AddressGroup :=
  { g with members := g.members.map fun m => endpointText (addressName m) }

/-- The groups that are read are the entries of one path. -/
theorem addressGroups_read (text : String) :
    (read text).addressGroups
      = (entriesAt "firewall addrgrp" (readForest text)).filterMap readGroup := by
  rw [read, ofForest]
  dsimp only
  rw [foldl_putAddressObject_eq, foldl_putInterface_eq]

/-- **A group with members is read back from its entry.** -/
theorem readGroup_groupEntry {g : AddressGroup} (hmembers : g.members ≠ []) :
    readGroup (groupEntry g).readBack = some (groupReadBack g) := by
  have hsettings : (groupEntry g).readBack.settings
      = [⟨"member", g.members.map addressName⟩]
        ++ g.description.toList.map fun d => ⟨"comment", [d]⟩ := by
    have hlist : quotedList? "member" (g.members.map addressName)
        = [quotedSetting "member" (g.members.map addressName)] :=
      if_neg (by simpa using hmembers)
    rw [groupEntry, Entry.readBack, hlist, List.map_append, map_readBack_quotedSetting?,
      List.map_singleton, readBack_quotedSetting]
  have hkeys : (((groupEntry g).readBack.settings).map Setting.key).Nodup := by
    rw [hsettings]
    cases g.description <;> simp
  have hmember : valuesOf (groupEntry g).readBack.settings "member"
      = g.members.map addressName :=
    valuesOf_eq hkeys (s := ⟨"member", g.members.map addressName⟩) (by rw [hsettings]; simp)
  have hdescription : valueOf (groupEntry g).readBack.settings "comment" = g.description := by
    rw [hsettings]
    exact valueOf_append_toList (by simp) g.description
  have hname : (groupEntry g).readBack.name = g.name := rfl
  obtain ⟨m, ms, hcons⟩ := List.exists_cons_of_ne_nil hmembers
  rw [readGroup, hmember, hdescription, hname, groupReadBack, hcons]
  simp

/-- **The groups of a written configuration are read back**, each once and in order, whatever else
the configuration holds. -/
theorem addressGroups_read_write (origin : Dialect) {c : Config} (hc : c.OneLine)
    (hmembers : ∀ g ∈ c.addressGroups, g.members ≠ []) :
    (read (write origin c)).addressGroups = c.addressGroups.map groupReadBack := by
  have hentries : entriesAt "firewall addrgrp" ((document c).map Section.readBack)
      = (c.addressGroups.map groupEntry).map Entry.readBack := by
    rw [entriesAt_listings (by decide) (by decide)]
    simp [listings]
  rw [addressGroups_read, readForest_write hc, hentries, List.map_map, List.filterMap_map]
  exact List.filterMap_eq_map_iff_forall_eq_some.2 fun g hg =>
    readGroup_groupEntry (hmembers g hg)

end FirewallConfig.FortiOs
