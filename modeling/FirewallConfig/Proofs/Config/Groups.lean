import FirewallConfig.Proofs.Cisco.Groups
import FirewallConfig.Proofs.Cisco.Profiles
import FirewallConfig.Proofs.Config.ZoneBased
import FirewallConfig.Proofs.FortiOs.Groups
import FirewallConfig.Proofs.PanOs.Sections
import FirewallConfig.Proofs.PanOs.WellFormed
import FirewallConfig.Writer

/-!
# Proofs/Config/Groups — address groups keep their meaning in every dialect

Each dialect has a spelling of its own for everything, for one address and for a network, and it reads
back what it writes in a spelling that need not be the one it was given.  What a member **means** is
the canonical endpoint of its text, and each of the spellings means what the member meant
(`meaning_normalize`, `meaning_memberText`, `meaning_endpointText`).  So a group that every dialect can
spell keeps its place, its name and the meaning of each of its members
(`meaning_addressGroups_read_write`).
-/

namespace FirewallConfig

open Text

/-! ## The meaning of a member -/

namespace Endpoint

/-- What the text of an endpoint means, however it is spelled: a mask that leaves no address out
means everything, and one that leaves one address means that address. -/
def meaning (s : String) : Endpoint := (classify s).canonical

theorem meaning_of_isIPv4 {address : String} (h : isIPv4 address = true) :
    meaning address = .host address := by
  rw [meaning, classify_of_isIPv4 h]
  rfl

theorem meaning_cidr {n : Network} (ha : isIPv4 n.address = true) (hm : n.mask ∈ Netmask.table) :
    meaning n.cidr = canonical (.network n) := by rw [meaning, classify_cidr ha hm]

/-- One address, spelled as a network. -/
example : meaning "10.0.0.1/32" = meaning "10.0.0.1" := by decide +kernel

variable {s : String} (h : (classify s).IsPlain)
include h

theorem meaning_normalize : meaning (normalize s) = meaning s := by
  have hspec := classify_spec s
  rw [normalize, meaning.eq_1 s]
  cases hc : classify s with
  | any => decide
  | host address =>
    rw [hc] at hspec
    exact meaning_of_isIPv4 hspec
  | network n =>
    rw [hc] at hspec h
    exact meaning_cidr hspec h
  | named name =>
    rw [hc] at hspec
    exact congrArg canonical hspec

theorem meaning_memberText : meaning (Cisco.memberText (classify s)) = meaning s := by
  have hspec := classify_spec s
  rw [meaning.eq_1 s]
  cases hc : classify s with
  | any => decide +kernel
  | host address =>
    rw [hc] at hspec
    exact meaning_of_isIPv4 hspec
  | network n =>
    rw [hc] at hspec h
    rw [Cisco.memberText]
    by_cases hsingle : n.mask = Netmask.single
    · have hne : n.mask ≠ Netmask.everything := by
        rw [hsingle]
        decide
      rw [if_pos (beq_iff_eq.2 hsingle), meaning_of_isIPv4 hspec, canonical, if_neg hne,
        if_pos hsingle]
    · rw [if_neg (mt beq_iff_eq.1 hsingle)]
      exact meaning_cidr hspec h
  | named name =>
    rw [hc] at hspec
    exact congrArg canonical hspec

theorem meaning_endpointText
    (hname : ∀ name, classify s = .named name → sameIgnoringCase name FortiOs.allName = false) :
    meaning (FortiOs.endpointText (FortiOs.addressName s)) = meaning s := by
  have hspec := classify_spec s
  have hall : meaning (FortiOs.endpointText FortiOs.allName) = .any := by decide
  have hliteral {n : Network} (hn : FortiOs.literalNetwork? s = some n) (hm : n.mask ∈ Netmask.table) :
      meaning (FortiOs.endpointText (FortiOs.addressName s)) = canonical (.network n) := by
    obtain ⟨ha, hwritten⟩ := FortiOs.addressName_of_literalNetwork? hn
    rw [hwritten, FortiOs.endpointText_cidr, meaning_cidr ha hm]
  rw [meaning.eq_1 s]
  cases hc : classify s with
  | any =>
    rw [FortiOs.addressName, hc]
    exact hall
  | host address =>
    exact hliteral (by rw [FortiOs.literalNetwork?, hc])
      (by decide : Netmask.single ∈ Netmask.table)
  | network n =>
    rw [hc] at h
    by_cases heverything : n.mask = Netmask.everything
    · have hname : FortiOs.addressName s = FortiOs.allName := by
        rw [FortiOs.addressName, hc]
        exact if_pos (beq_iff_eq.2 heverything)
      rw [hname, hall, canonical, if_pos heverything]
    · refine hliteral ?_ h
      rw [FortiOs.literalNetwork?, hc]
      exact if_neg (mt beq_iff_eq.1 heverything)
  | named name =>
    rw [hc] at hspec
    have hwritten : FortiOs.addressName s = name := by rw [FortiOs.addressName, hc]
    have hnot : FortiOs.endpointText name = name := if_neg (Bool.eq_false_iff.1 (hname name hc))
    rw [hwritten, hnot]
    exact congrArg canonical hspec

end Endpoint

/-! ## Groups -/

namespace AddressGroup

/-- What a group means: its name, and what each of its members means. -/
def meaning (g : AddressGroup) : String × List Endpoint := (g.name, g.members.map Endpoint.meaning)

/-- Every dialect can spell the group: it has members, its name and the names among its members are
single words, and its masks are those of the table; no member has the name of everything. -/
structure IsPlain (g : AddressGroup) : Prop where
  name : IsWord g.name
  nonempty : g.members ≠ []
  members : ∀ m ∈ g.members, (Endpoint.classify m).IsPlain
  names : ∀ m ∈ g.members, ∀ name, Endpoint.classify m = .named name →
    sameIgnoringCase name FortiOs.allName = false

/-- A group means the same if each member is spelled with the same meaning. -/
theorem meaning_eq_of_members {g : AddressGroup} {f : String → String}
    (hf : ∀ m ∈ g.members, Endpoint.meaning (f m) = Endpoint.meaning m)
    (description : Option String) :
    meaning { g with members := g.members.map f, description } = meaning g := by
  rw [meaning, meaning, List.map_map]
  exact congrArg (Prod.mk g.name) (List.map_congr_left hf)

end AddressGroup

/-- The profiles of a text have the kinds of headers, and two of the dialects have none. -/
theorem Dialect.mem_profileKinds_of_mem_securityProfiles (source : Dialect) (text : String) :
    ∀ p ∈ (source.read text).securityProfiles, p.kind ∈ Cisco.profileKinds := by
  have hnone {c : Config} (hc : c.IsZoneBased) :
      ∀ p ∈ c.securityProfiles, p.kind ∈ Cisco.profileKinds := by
    rw [hc.securityProfiles]
    exact List.forall_mem_nil _
  cases source with
  | ciscoAsa | ciscoFtd => exact fun p hp => Cisco.mem_profileKinds_of_mem_securityProfiles hp
  | fortiGate => exact hnone (FortiOs.isZoneBased_read text)
  | paloAlto => exact hnone (PanOs.isZoneBased_read text)

/-- **Address groups keep their meaning**, from any dialect to any dialect: the groups that are read
back stand in the same order under the same names, and each member means what it meant. -/
theorem meaning_addressGroups_read_write (source target : Dialect) (text : String)
    (hgroups : ∀ g ∈ (source.read text).addressGroups, g.IsPlain) :
    (target.read (target.write source (source.read text))).addressGroups.map AddressGroup.meaning
      = (source.read text).addressGroups.map AddressGroup.meaning := by
  have hc := Dialect.oneLine_read source text
  have hkinds := source.mem_profileKinds_of_mem_securityProfiles text
  generalize source.read text = c at hgroups hc hkinds ⊢
  have hsame {f : AddressGroup → AddressGroup}
      (hf : ∀ g : AddressGroup, g.IsPlain → (f g).meaning = g.meaning) {gs : List AddressGroup}
      (h : gs = c.addressGroups.map f) :
      gs.map AddressGroup.meaning = c.addressGroups.map AddressGroup.meaning := by
    rw [h, List.map_map]
    exact List.map_congr_left fun g hg => hf g (hgroups g hg)
  have hcisco (flavor : Cisco.Flavor) :
      (Cisco.read flavor (Cisco.write flavor source c)).addressGroups
        = c.addressGroups.map Cisco.groupReadBack :=
    Cisco.addressGroups_read_write hc hkinds flavor source (fun g hg => (hgroups g hg).name)
      fun g hg m hm => ((hgroups g hg).members m hm).isSpelled
  have hpan : (PanOs.read (PanOs.write source c)).addressGroups
      = c.addressGroups.map fun g => { g with members := g.members.map Endpoint.normalize } := by
    generalize hr : PanOs.read (PanOs.write source c) = r
    exact PanOs.addressGroups_of_eq_read_write hc hr.symm
  have hmember (g : AddressGroup) (hg : g.IsPlain) :
      (Cisco.groupReadBack g).meaning = g.meaning :=
    AddressGroup.meaning_eq_of_members
      (fun m hm => Endpoint.meaning_memberText (hg.members m hm)) _
  cases target with
  | ciscoAsa => exact hsame hmember (hcisco .asa)
  | ciscoFtd => exact hsame hmember (hcisco .ftd)
  | fortiGate =>
    refine hsame (fun g hg => ?_)
      (FortiOs.addressGroups_read_write source hc fun g hg => (hgroups g hg).nonempty)
    exact AddressGroup.meaning_eq_of_members
      (fun m hm => Endpoint.meaning_endpointText (hg.members m hm) (hg.names m hm)) _
  | paloAlto =>
    refine hsame (fun g hg => ?_) hpan
    exact AddressGroup.meaning_eq_of_members
      (fun m hm => Endpoint.meaning_normalize (hg.members m hm)) _

/-- A group of everything, one address, a network and a name, and a group of that group. -/
def nestedText : String :=
  "config firewall addrgrp\nedit nets\nset member ALL 10.0.0.1/32 10.1.0.0/16 web\nnext\n"
    ++ "edit all-nets\nset member nets\nend\n"

/-- What is read of the two groups. -/
def nestedGroups : List AddressGroup :=
  [{ name := "nets", members := ["any", "10.0.0.1/32", "10.1.0.0/16", "web"] },
   { name := "all-nets", members := ["nets"] }]

theorem isPlain_of_mem_nestedGroups : ∀ g ∈ nestedGroups, g.IsPlain := by
  have hnames {members : List String}
      (h : ∀ m ∈ members, (Endpoint.classify m).name?.all
        (fun name => !sameIgnoringCase name FortiOs.allName) = true) :
      ∀ m ∈ members, ∀ name, Endpoint.classify m = .named name →
        sameIgnoringCase name FortiOs.allName = false := by
    intro m hm name hname
    have hall := h m hm
    rw [hname] at hall
    simpa [Endpoint.name?] using hall
  refine List.forall_mem_cons.2 ⟨?_, List.forall_mem_singleton.2 ?_⟩
  · exact
      { name := by decide
        nonempty := by decide
        members := by decide +kernel
        names := hnames (by decide +kernel) }
  · exact
      { name := by decide
        nonempty := by decide
        members := by decide +kernel
        names := hnames (by decide +kernel) }

theorem meaning_addressGroups_read_write_nestedText :
    (∀ g ∈ (Dialect.fortiGate.read nestedText).addressGroups, g.IsPlain)
      ∧ (Dialect.ciscoAsa.read (Dialect.ciscoAsa.write .fortiGate
          (Dialect.fortiGate.read nestedText))).addressGroups.map AddressGroup.meaning
        = [("nets", [.any, .host "10.0.0.1", .network ⟨"10.1.0.0", "255.255.0.0"⟩, .named "web"]),
           ("all-nets", [.named "nets"])] := by
  have hread : (Dialect.fortiGate.read nestedText).addressGroups = nestedGroups := by decide +kernel
  have hgroups : ∀ g ∈ (Dialect.fortiGate.read nestedText).addressGroups, g.IsPlain := by
    rw [hread]
    exact isPlain_of_mem_nestedGroups
  have hmeaning : nestedGroups.map AddressGroup.meaning
      = [("nets", [.any, .host "10.0.0.1", .network ⟨"10.1.0.0", "255.255.0.0"⟩, .named "web"]),
         ("all-nets", [.named "nets"])] := by decide +kernel
  exact ⟨hgroups, (meaning_addressGroups_read_write .fortiGate .ciscoAsa nestedText hgroups).trans
    (by rw [hread, hmeaning])⟩

end FirewallConfig
