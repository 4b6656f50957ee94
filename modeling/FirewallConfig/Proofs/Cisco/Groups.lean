import FirewallConfig.Proofs.Cisco.Operand
import FirewallConfig.Proofs.Cisco.Records

/-!
# Proofs/Cisco/Groups — the address groups of a written text are read back

The lines of a group build it, each member in the spelling that it is read with
(`adds_groupLines`), and no other line of a written text opens a group.  So the groups of a written
text are those of the configuration (`addressGroups_read_write`).
-/

namespace FirewallConfig.Cisco

open Text

/-- The group that a block builds, if it builds one. -/
def Block.group? : Block → Option AddressGroup
  | .group g => some g
  | _ => none

/-- Address groups, as a kind of records. -/
def groupKind : RecordKind AddressGroup where
  stored := Kept.addressGroups
  built? := Block.group?
  line := groupLine
  first := "object-group"
  second := "network"
  directive := .objectGroupNetwork
  new name := { name }
  first_head := by decide
  isWord_first := by decide
  isWord_second := by decide
  ne_object := by decide
  stored_start _ := rfl
  stored_store b r := by
    cases b <;>
      simp [Reading.amend, Reading.kept, Reading.store, Config.putInterface, Config.putAddressObject,
        Block.group?]
  built?_builder? b := by cases b <;> rfl
  built?_take b l := by cases b <;> rfl
  built?_directive _ := rfl
  enables_directive flavor _ := by cases flavor <;> rfl
  readWords_header _ _ := rfl
  words_eq {d} _ _ hread h := by
    cases d with
    | objectGroupNetwork name => exact ⟨name, hread⟩
    | _ => cases h

/-! ## The lines of a group -/

/-- What a member is read back as: everything is a network without bits of its own. -/
def memberText : Endpoint → String
  | .any => (Network.mk Netmask.everything Netmask.everything).cidr
  | .host address => address
  | .network n => if n.mask == Netmask.single then n.address else n.cidr
  | .named name => name

/-- What a group is read back as. -/
def groupReadBack (g : AddressGroup) : AddressGroup where
  name := g.name
  members := g.members.map fun m => memberText (Endpoint.classify m)
  description := g.description.map trim

/-- The line of an address adds the address that is read off its words. -/
theorem groupLine_networkObject {text member : String} (h : ReadsAddress (words text) member)
    (g : AddressGroup) (l : Line) : groupLine g l ("network-object" :: words text)
      = { g with members := g.members ++ [member] } := by
  have hread := h.address []
  rw [List.append_nil] at hread
  rw [groupLine, hread]

/-- **The line of a member is read as that member.** -/
theorem exists_memberLine_eq (c : Config) {m : String} (hm : (Endpoint.classify m).IsSpelled) :
    ∃ keyword text, memberLine c m = " " ++ keyword ++ " " ++ text ∧ IsWord keyword
      ∧ beginsWith "!" keyword = false
      ∧ ∀ (g : AddressGroup) (l : Line), groupLine g l (keyword :: words text)
        = { g with members := g.members ++ [memberText (Endpoint.classify m)] } := by
  have hspec := Endpoint.classify_spec m
  unfold memberLine
  cases hc : Endpoint.classify m with
  | any =>
    have heverything : isIPv4 Netmask.everything = true := by decide
    exact ⟨"network-object", "0.0.0.0 0.0.0.0", rfl, by decide, by decide,
      groupLine_networkObject (readsAddress_networkText heverything heverything)⟩
  | host address =>
    rw [hc] at hspec
    refine ⟨"network-object", "host " ++ address, ?_, by decide, by decide,
      groupLine_networkObject (readsAddress_hostText hspec)⟩
    apply String.toList_inj.1
    simp
  | network n =>
    rw [hc] at hspec hm
    refine ⟨"network-object", n.address ++ " " ++ n.mask, ?_, by decide, by decide,
      groupLine_networkObject (readsAddress_networkText hspec hm)⟩
    apply String.toList_inj.1
    simp
  | named name =>
    rw [hc] at hm
    have hname : words name = [name] := IsWord.words_eq hm
    dsimp only
    split
    · refine ⟨"group-object", name, ?_, by decide, by decide, fun g l => by rw [hname]; rfl⟩
      apply String.toList_inj.1
      simp
    · refine ⟨"network-object", "object " ++ name, ?_, by decide, by decide,
        groupLine_networkObject (readsAddress_objectText hm)⟩
      apply String.toList_inj.1
      simp

theorem builds_memberLines (c : Config) (g : AddressGroup) {members : List String}
    (hmembers : ∀ m ∈ members, (Endpoint.classify m).IsSpelled) :
    groupKind.Builds g (members.map (memberLine c)) { g with
      members := g.members ++ members.map fun m => memberText (Endpoint.classify m) } := by
  induction members generalizing g with
  | nil =>
    rw [List.map_nil, List.map_nil, List.append_nil]
    exact RecordKind.builds_nil g
  | cons m members ih =>
    obtain ⟨hm, hmembers⟩ := List.forall_mem_cons.1 hmembers
    obtain ⟨keyword, text, hline, hkeyword, hbang, hread⟩ := exists_memberLine_eq c hm
    have hmember : groupKind.Builds g [memberLine c m]
        { g with members := g.members ++ [memberText (Endpoint.classify m)] } := by
      rw [hline, ← hread g (Line.ofText (" " ++ keyword ++ " " ++ text))]
      exact RecordKind.builds_below g hkeyword hbang text
    have hbuilds := hmember.append (ih _ hmembers)
    rwa [List.append_assoc, List.singleton_append, List.singleton_append] at hbuilds

/-- **The lines of a group add the group.** -/
theorem adds_groupLines (c : Config) {g : AddressGroup} (hname : IsWord g.name)
    (hmembers : ∀ m ∈ g.members, (Endpoint.classify m).IsSpelled) :
    groupKind.Adds (groupLines c g) [groupReadBack g] := by
  have hdescription : groupKind.Builds { name := g.name } (descriptionLines g.description)
      { name := g.name, description := g.description.map trim } := by
    have hbuilds := RecordKind.builds_descriptionLines (k := groupKind) { name := g.name }
      (fun d => { name := g.name, description := some d }) (fun _ _ => rfl) g.description
    cases hd : g.description <;> rwa [hd] at hbuilds
  have hadds := RecordKind.adds_block (k := groupKind) hname
    (hdescription.append (builds_memberLines c _ hmembers))
  have hheader : groupKind.first ++ " " ++ groupKind.second ++ " " ++ g.name
      = s!"object-group network {g.name}" := (groupHeader_eq g.name).symm
  rwa [hheader] at hadds

theorem addressGroups_read (flavor : Flavor) (text : String) : (read flavor text).addressGroups
    = groupKind.stored ((Reading.start flavor).run (lines text)).closeBlock.kept := rfl

/-- **The address groups of a written text are read back**, each once and in order, whatever else the
configuration holds. -/
theorem addressGroups_read_write {c : Config} (hc : c.OneLine)
    (hkinds : ∀ p ∈ c.securityProfiles, p.kind ∈ profileKinds) (flavor : Flavor) (origin : Dialect)
    (hnames : ∀ g ∈ c.addressGroups, IsWord g.name)
    (hmembers : ∀ g ∈ c.addressGroups, ∀ m ∈ g.members, (Endpoint.classify m).IsSpelled) :
    (read flavor (write flavor origin c)).addressGroups = c.addressGroups.map groupReadBack := by
  have hgroups : groupKind.Adds (c.addressGroups.flatMap (groupLines c))
      (c.addressGroups.map groupReadBack) := by
    rw [List.map_eq_flatMap]
    exact RecordKind.adds_flatMap fun g hg => adds_groupLines c (hnames g hg) (hmembers g hg)
  have hservices : groupKind.Adds (c.services.flatMap serviceLines) [] :=
    RecordKind.adds_nil (List.forall_mem_flatMap.2 fun s _ =>
      not_isHeader_serviceLines groupKind.first_head (by decide) s)
  rw [addressGroups_read, stored_write groupKind hc hkinds flavor origin hgroups hservices,
    List.append_nil]

end FirewallConfig.Cisco
