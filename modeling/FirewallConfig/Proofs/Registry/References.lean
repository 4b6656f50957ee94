import FirewallConfig.Proofs.Address.Endpoint
import FirewallConfig.Proofs.Cisco.Access
import FirewallConfig.Proofs.Registry.Conversion

/-!
# Proofs/Registry/References — when a strict conversion is refused

A member of an address group **dangles** if it is no keyword, spells out no address and no network, and
is the name of no address object and no address group.  The check takes the names of services for
declared ones too, so it counts the members that dangle and name no service (`length_groupFindings`).
A strict conversion is refused just if there are some, with their number, which is the number of errors
in the list of findings (`convert_strict_iff`).
-/

namespace FirewallConfig

open Text

/-! ## Texts that spell out what they mean -/

/-- The text is an address with a mask or a prefix: behind a slash, or as a second word. -/
inductive SpellsNetwork (s : String) : Prop
  | slash {address tail : String} (ha : isIPv4 address = true)
      (hs : words s = [address ++ "/" ++ tail]) : SpellsNetwork s
  | twoWords {address mask : String} {rest : List String} (ha : isIPv4 address = true)
      (hs : words s = address :: mask :: rest) : SpellsNetwork s

/-- A word with a slash is read as a network just if an address stands before the slash. -/
theorem Network.isSome_read?_of_cut {s word address tail : String} (hs : words s = [word])
    (hcut : cut '/' word = some (address, tail)) :
    ((Network.read? s).filter fun n => isIPv4 n.address).isSome = isIPv4 address := by
  have hword : IsWord word := isWord_of_mem_words (hs ▸ List.mem_singleton_self word)
  rw [Network.read?, hs, Option.isSome_filter]
  simp only [hcut]
  split
  · rfl
  · rw [Network.ofCidr?, hword.trim_eq]
    simp only [hcut]
    split
    · next hempty =>
      rw [String.isEmpty_iff.1 hempty]
      decide
    · rfl

theorem spellsNetwork_iff (s : String) :
    SpellsNetwork s ↔ ((Network.read? s).filter fun n => isIPv4 n.address).isSome = true := by
  constructor
  · rintro (⟨ha, hs⟩ | ⟨ha, hs⟩)
    · rw [Network.isSome_read?_of_cut hs (cut_append (not_mem_slash_of_isIPv4 ha) _)]
      exact ha
    · rw [Network.read?, hs, Option.isSome_filter]
      exact ha
  · intro h
    cases hs : words s with
    | nil =>
      rw [Network.read?, hs] at h
      cases h
    | cons word rest =>
      cases rest with
      | nil =>
        cases hcut : cut '/' word with
        | none =>
          rw [Network.read?, hs] at h
          simp only [hcut] at h
          cases h
        | some ends =>
          obtain ⟨address, tail⟩ := ends
          rw [Network.isSome_read?_of_cut hs hcut] at h
          exact .slash h (hs.trans (congrArg (fun w => [w]) (eq_append_of_cut hcut)))
      | cons mask rest =>
        rw [Network.read?, hs, Option.isSome_filter] at h
        exact .twoWords h hs

instance (s : String) : Decidable (SpellsNetwork s) := decidable_of_iff _ (spellsNetwork_iff s).symm

/-- **What a name is**: no blank text, no keyword of everything, no address and no network. -/
theorem Endpoint.exists_classify_eq_named_iff {s : String} (hs : trim s = s) :
    (∃ name, classify s = .named name) ↔ s ≠ "" ∧ sameIgnoringCase s anyText = false ∧ s ≠ "any4"
      ∧ ¬ isIPv4 s = true ∧ ¬ SpellsNetwork s := by
  rw [classify, hs, spellsNetwork_iff]
  split
  · next hany =>
    refine iff_of_false (by rintro ⟨_, h⟩; cases h) ?_
    rintro ⟨hne, hkeyword, hany4, -⟩
    rw [Bool.or_eq_true, Bool.or_eq_true, String.isEmpty_iff, beq_iff_eq] at hany
    rcases hany with (rfl | h) | rfl
    · exact hne rfl
    · rw [h] at hkeyword
      cases hkeyword
    · exact hany4 rfl
  · next hany =>
    simp only [Bool.or_eq_true, String.isEmpty_iff, beq_iff_eq, not_or, Bool.not_eq_true] at hany
    rw [← and_assoc, ← and_assoc, and_iff_right hany]
    cases (Network.read? s).filter fun n => isIPv4 n.address with
    | some n => exact iff_of_false (by rintro ⟨_, h⟩; cases h) fun h => h.2 rfl
    | none =>
      cases hip : isIPv4 s with
      | true => exact iff_of_false (by rintro ⟨_, h⟩; cases h) fun h => h.1 rfl
      | false => exact iff_of_true ⟨s, rfl⟩ ⟨Bool.false_ne_true, Bool.false_ne_true⟩

namespace Config

/-! ## Members that dangle -/

/-- The members of all address groups. -/
def groupMembers (c : Config) : List String := c.addressGroups.flatMap (·.members)

/-- The member refers to an address object or an address group, and there is none of that name. -/
structure Dangles (c : Config) (member : String) : Prop where
  notBlank : trim member ≠ ""
  noKeyword : ∀ k ∈ builtinNames, sameIgnoringCase (trim member) k = false
  noAddress : ¬ isIPv4 (trim member) = true
  noNetwork : ¬ SpellsNetwork (trim member)
  noObject : ∀ o ∈ c.addressObjects, o.name ≠ trim member
  noGroup : ∀ g ∈ c.addressGroups, g.name ≠ trim member

/-- The member is the name of a service. -/
def NamesService (c : Config) (member : String) : Prop := ∃ s ∈ c.services, s.name = trim member

instance (c : Config) (member : String) : Decidable (c.Dangles member) :=
  decidable_of_iff
    (trim member ≠ "" ∧ (∀ k ∈ builtinNames, sameIgnoringCase (trim member) k = false)
      ∧ ¬ isIPv4 (trim member) = true ∧ ¬ SpellsNetwork (trim member)
      ∧ (∀ o ∈ c.addressObjects, o.name ≠ trim member)
      ∧ ∀ g ∈ c.addressGroups, g.name ≠ trim member)
    ⟨fun ⟨h1, h2, h3, h4, h5, h6⟩ => ⟨h1, h2, h3, h4, h5, h6⟩,
      fun ⟨h1, h2, h3, h4, h5, h6⟩ => ⟨h1, h2, h3, h4, h5, h6⟩⟩

instance (c : Config) (member : String) : Decidable (c.NamesService member) :=
  inferInstanceAs (Decidable (∃ s ∈ c.services, s.name = trim member))

theorem declares_eq_false_iff {c : Config} {name : String} : c.declares name = false
    ↔ (∀ o ∈ c.addressObjects, o.name ≠ name) ∧ (∀ g ∈ c.addressGroups, g.name ≠ name)
      ∧ ∀ s ∈ c.services, s.name ≠ name := by
  simp only [declares, addressObject?, addressGroup?, service?, Bool.or_eq_false_iff,
    Option.isSome_eq_false_iff, Option.isNone_iff_eq_none, List.find?_eq_none, beq_iff_eq, and_assoc,
    ne_eq]

/-- **What the check of a member finds**: that it dangles, unless a service has its name. -/
theorem isSome_unresolved?_iff {c : Config} {member : String} :
    (c.unresolved? member).isSome = true ↔ c.Dangles member ∧ ¬ c.NamesService member := by
  have hnamed := Endpoint.exists_classify_eq_named_iff (trim_trim member)
  have hany : anyText ∈ builtinNames ∧ "any4" ∈ builtinNames := by decide
  have hservice : ¬ c.NamesService member ↔ ∀ s ∈ c.services, s.name ≠ trim member := by
    simp only [NamesService, not_exists, not_and, ne_eq]
  rw [unresolved?]
  split
  · next hkeyword =>
    obtain ⟨k, hk, hsame⟩ := List.any_eq_true.1 hkeyword
    refine iff_of_false Bool.false_ne_true fun h => ?_
    rw [h.1.noKeyword k hk] at hsame
    cases hsame
  · next hkeyword =>
    rw [Bool.not_eq_true, List.any_eq_false] at hkeyword
    have hkeyword : ∀ k ∈ builtinNames, sameIgnoringCase (trim member) k = false := fun k hk =>
      Bool.eq_false_iff.2 (hkeyword k hk)
    split
    · next name hname =>
      obtain ⟨hblank, -, -, haddress, hnetwork⟩ := hnamed.1 ⟨name, hname⟩
      rw [hservice]
      cases hdeclares : c.declares (trim member) with
      | false =>
        obtain ⟨hobject, hgroup, hservices⟩ := declares_eq_false_iff.1 hdeclares
        exact iff_of_true rfl
          ⟨⟨hblank, hkeyword, haddress, hnetwork, hobject, hgroup⟩, hservices⟩
      | true =>
        refine iff_of_false Bool.false_ne_true fun ⟨hdangles, hservices⟩ => ?_
        have hfalse := declares_eq_false_iff.2 ⟨hdangles.noObject, hdangles.noGroup, hservices⟩
        rw [hdeclares] at hfalse
        cases hfalse
    · next hname =>
      refine iff_of_false Bool.false_ne_true fun ⟨hdangles, _⟩ => ?_
      have hany4 : trim member ≠ "any4" := fun h => by
        have hsame := hkeyword _ hany.2
        rw [h] at hsame
        exact absurd hsame (by decide)
      obtain ⟨name, hnamed⟩ := hnamed.2
        ⟨hdangles.notBlank, hkeyword _ hany.1, hany4, hdangles.noAddress, hdangles.noNetwork⟩
      exact hname name hnamed

/-- **How many members are found**: those that dangle and name no service. -/
theorem length_groupFindings (c : Config) : c.groupFindings.length
    = c.groupMembers.countP fun m => decide (c.Dangles m ∧ ¬ c.NamesService m) := by
  rw [groupFindings, groupMembers, List.length_flatMap, List.countP_flatMap]
  refine congrArg List.sum (List.map_congr_left fun g _ => ?_)
  rw [List.length_filterMap_eq_countP]
  refine List.countP_congr fun m _ => ?_
  rw [Option.isSome_map, isSome_unresolved?_iff, decide_eq_true_iff]

/-! ## The two ways to check -/

/-- **The errors are the findings in groups.** -/
theorem errorCount_findings (c : Config) : errorCount c.findings = c.groupFindings.length := by
  have hgroups : ∀ f ∈ c.groupFindings, f.isError = true := by
    intro f hf
    obtain ⟨g, -, hf⟩ := List.mem_flatMap.1 hf
    obtain ⟨m, -, hf⟩ := List.mem_filterMap.1 hf
    obtain ⟨name, -, rfl⟩ := Option.map_eq_some_iff.1 hf
    rfl
  have hpolicies : ∀ f ∈ c.policyFindings, ¬ f.isError = true := by
    intro f hf
    obtain ⟨p, -, hf⟩ := List.mem_flatMap.1 hf
    rcases List.mem_append.1 hf with hf | hf <;>
    · obtain ⟨t, -, hf⟩ := List.mem_filterMap.1 hf
      obtain ⟨name, -, rfl⟩ := Option.map_eq_some_iff.1 hf
      nofun
  rw [errorCount, findings, List.countP_append, List.countP_eq_length.2 hgroups,
    List.countP_eq_zero.2 hpolicies, Nat.add_zero]

/-- The strict check fails with the number of the findings in groups, and with the first of them. -/
theorem checkGroups_true (c : Config) : c.checkGroups true
    = match c.groupFindings.head? with
      | some first => .error (.unresolved c.groupFindings.length first)
      | none => .ok () := by
  cases hfindings : c.groupFindings <;> simp only [checkGroups, hfindings] <;> rfl

end Config

namespace Registry

variable {r : Registry} {source target : String} {v w : Vendor} {complexity : Complexity}

/-- A strict conversion fails just with the number of the findings in groups and the first of them. -/
theorem convert_strict_eq_error_iff (h : r.Supports source target v w complexity) {text : String}
    {failure : ConversionFailure} :
    r.convert true source target text = .error failure
      ↔ ∃ first, (v.dialect.read text).groupFindings.head? = some first
        ∧ failure = { error := .unresolved (v.dialect.read text).groupFindings.length first
                      source? := some v.name, target? := some w.name } := by
  rw [convert_of_supports h, Config.checkGroups_true]
  cases hfirst : (v.dialect.read text).groupFindings.head? with
  | none => exact iff_of_false nofun nofun
  | some first =>
    constructor
    · intro heq
      cases heq
      exact ⟨first, rfl, rfl⟩
    · rintro ⟨_, hsome, rfl⟩
      cases hsome
      rfl

/-- **When a strict conversion is refused**: if a member of a group dangles and names no service.  It is
told how many do, and the list of findings has as many errors. -/
theorem convert_strict_iff (h : r.Supports source target v w complexity) (text : String) :
    let c := v.dialect.read text
    let count := c.groupMembers.countP fun m => decide (c.Dangles m ∧ ¬ c.NamesService m)
    (∀ failure, r.convert true source target text = .error failure
        ↔ ∃ first, c.groupFindings.head? = some first
          ∧ failure = { error := .unresolved count first
                        source? := some v.name, target? := some w.name })
      ∧ ((∃ failure, r.convert true source target text = .error failure) ↔ 0 < count)
      ∧ errorCount c.findings = count
      ∧ c.groupMembers.countP (fun m => decide (c.Dangles m))
        = count + c.groupMembers.countP fun m => decide (c.Dangles m ∧ c.NamesService m) := by
  intro c count
  have hcount : c.groupFindings.length = count := c.length_groupFindings
  have hfails : ∀ failure, r.convert true source target text = .error failure
      ↔ ∃ first, c.groupFindings.head? = some first
        ∧ failure = { error := .unresolved count first
                      source? := some v.name, target? := some w.name } := fun failure => by
    rw [convert_strict_eq_error_iff h, hcount]
  refine ⟨hfails, ?_, hcount ▸ c.errorCount_findings, ?_⟩
  · rw [← hcount, List.length_pos_iff]
    constructor
    · rintro ⟨failure, hfailure⟩ hnil
      obtain ⟨first, hfirst, -⟩ := (hfails failure).1 hfailure
      rw [hnil] at hfirst
      cases hfirst
    · intro hne
      exact ⟨_, (hfails _).2 ⟨_, List.head?_eq_some_head hne, rfl⟩⟩
  · have hcounted : (c.groupMembers.countP fun m =>
        decide (c.Dangles m) && decide (¬ c.NamesService m)) = count :=
      List.countP_congr fun m _ => by simp only [Bool.decide_and]
    rw [List.countP_eq_countP_filter_add _ _ fun m => decide (¬ c.NamesService m), List.countP_filter,
      List.countP_filter, hcounted]
    simp only [decide_not, Bool.not_not, Bool.decide_and]

/-- A group with the name of a service and a name that nothing has. -/
def mixedMembersText : String :=
  unlines
    ["object service web", " service tcp destination eq 80", "object-group network servers",
     " network-object object web", " network-object object db"]

/-- Of two members that are no addresses, one is a service, and the other one is told. -/
theorem convert_strict_iff_mixedMembers :
    let v := knownVendors[0]
    let w := knownVendors[2]
    let c := v.dialect.read mixedMembersText
    let count := c.groupMembers.countP fun m => decide (c.Dangles m ∧ ¬ c.NamesService m)
    Registry.builtin.Supports "cisco-asa" "fortigate" v w .high ∧ count = 1
      ∧ (∀ failure,
        Registry.builtin.convert true "cisco-asa" "fortigate" mixedMembersText = .error failure
          ↔ ∃ first, c.groupFindings.head? = some first
            ∧ failure = { error := .unresolved count first
                          source? := some v.name, target? := some w.name })
      ∧ ((∃ failure,
        Registry.builtin.convert true "cisco-asa" "fortigate" mixedMembersText = .error failure)
          ↔ 0 < count)
      ∧ errorCount c.findings = count
      ∧ c.groupMembers.countP (fun m => decide (c.Dangles m))
        = count + c.groupMembers.countP fun m => decide (c.Dangles m ∧ c.NamesService m) := by
  intro v w c count
  have hsupports : Registry.builtin.Supports "cisco-asa" "fortigate" v w .high := by
    constructor <;> decide
  have hread : c = Cisco.read .asa mixedMembersText := rfl
  have hfindings : c.groupFindings.length = 1 := by
    rw [hread, Cisco.read, mixedMembersText, Cisco.Reading.run_lines_unlines _ (by decide +kernel)]
    decide +kernel
  exact ⟨hsupports, c.length_groupFindings.symm.trans hfindings,
    convert_strict_iff hsupports mixedMembersText⟩

/-- A group with the name of a service. -/
def serviceMemberText : String :=
  unlines
    ["object service web", " service tcp destination eq 80", "object-group network servers",
     " network-object object web"]

/-- **A group whose one member dangles is converted strictly**, since a service has its name. -/
theorem not_refused_serviceMember :
    let c := Dialect.ciscoAsa.read serviceMemberText
    c.groupMembers = ["web"] ∧ c.Dangles "web"
      ∧ ∃ conversion,
        Registry.builtin.convert true "cisco-asa" "fortigate" serviceMemberText = .ok conversion := by
  intro c
  have hread : c.groupMembers = ["web"] ∧ c.Dangles "web" ∧ c.groupFindings = [] := by
    dsimp only [c, Dialect.read]
    rw [Cisco.read, serviceMemberText, Cisco.Reading.run_lines_unlines _ (by decide +kernel)]
    decide +kernel
  obtain ⟨hmembers, hdangles, hfindings⟩ := hread
  have hcheck : c.checkGroups true = .ok () := by rw [Config.checkGroups_true, hfindings]; rfl
  have hsupports :
      Registry.builtin.Supports "cisco-asa" "fortigate" knownVendors[0] knownVendors[2] .high := by
    constructor <;> decide
  exact ⟨hmembers, hdangles, _, convert_eq_ok_iff.2 ⟨_, _, _, hsupports, hcheck, rfl⟩⟩

end Registry

end FirewallConfig
