import FirewallConfig.Proofs.Cisco.Access
import FirewallConfig.Proofs.Cisco.OneLine
import FirewallConfig.Proofs.FortiOs.Rules
import FirewallConfig.Proofs.PanOs.Sections
import Mathlib.Data.List.NodupEquivFin

/-!
# Proofs/Cisco/RuleNames — what the rules of access lists are called

Rules of one list share its name, and a dialect that wants a name for each rule gets the name with
the place of the rule behind it.  Names made so differ from one another (`numbered_inj`); they are
compared with no other name, and a list that is called like one of them collides with it
(`nodup_names_written_iff`).
-/

namespace FirewallConfig

/-- **A name with a number behind it** tells both, whatever the name holds. -/
theorem numbered_inj {a b : String} {i j : Nat} (h : s!"{a}-{i}" = s!"{b}-{j}") :
    a = b ∧ i = j := by
  have hdash (n : Nat) : '-' ∉ (toString n).toList.reverse := fun hmem =>
    (Text.isNumeral_toString n).not_mem (by decide) (List.mem_reverse.1 hmem)
  -- The number holds no dash, so the last one stands before it.
  have hreverse (s : String) (n : Nat) : s!"{s}-{n}".toList.reverse
      = (toString n).toList.reverse ++ '-' :: s.toList.reverse := by
    simp [Text.toString_text]
  have hlists := congrArg (fun s : String => s.toList.reverse) h
  simp only [hreverse] at hlists
  obtain ⟨hnumber, hname⟩ := Chars.append_cons_inj (hdash i) (hdash j) hlists
  exact ⟨String.toList_inj.1 (List.reverse_injective hname),
    Text.toString_nat_injective (String.toList_inj.1 (List.reverse_injective hnumber))⟩

namespace Config

variable (c : Config)

/-- What the rules are called where they are written. -/
def ruleNames : List String :=
  c.effectivePolicies.zipIdx.map fun (p, position) => p.labelAmong c.effectivePolicies position

/-- How many rules a list has. -/
def ruleCount (acl : String) : Nat := (c.effectivePolicies.map (·.name)).count (some acl)

/-- No list of one rule is called like a rule that shares its list with others, with its place. -/
def AreListsApart : Prop :=
  ∀ (position : Nat) (p : Policy) (acl : String), c.effectivePolicies[position]? = some p →
    p.name = some acl → 1 < c.ruleCount acl → c.ruleCount s!"{acl}-{position + 1}" ≠ 1

variable {c}

theorem getElem?_ruleNames (position : Nat) : c.ruleNames[position]?
    = c.effectivePolicies[position]?.map (·.labelAmong c.effectivePolicies position) := by
  rw [ruleNames, List.getElem?_map, List.getElem?_zipIdx, Option.map_map, Nat.zero_add]
  rfl

theorem labelAmong_eq {p : Policy} {acl : String} (hp : p.name = some acl) (position : Nat) :
    p.labelAmong c.effectivePolicies position
      = if 1 < c.ruleCount acl then s!"{acl}-{position + 1}" else acl := by
  have hcount : c.effectivePolicies.countP (·.name == some acl) = c.ruleCount acl := by
    rw [ruleCount, List.count, List.countP_map]
    rfl
  simp only [Policy.labelAmong, Policy.label, hcount, hp]
  simp

/-- A list that two rules are in has several of them. -/
theorem one_lt_ruleCount {i j : Nat} {p q : Policy} {acl : String} (hlt : i < j)
    (hi : c.effectivePolicies[i]? = some p) (hj : c.effectivePolicies[j]? = some q)
    (hp : p.name = some acl) (hq : q.name = some acl) : 1 < c.ruleCount acl := by
  obtain ⟨hilt, hi⟩ := List.getElem?_eq_some_iff.1 hi
  obtain ⟨hjlt, hj⟩ := List.getElem?_eq_some_iff.1 hj
  have htwice : List.Duplicate (some acl) (c.effectivePolicies.map (·.name)) :=
    List.duplicate_iff_exists_distinct_get.2 ⟨⟨i, by simpa using hilt⟩, ⟨j, by simpa using hjlt⟩,
      hlt, by simp [hi, hp], by simp [hj, hq]⟩
  calc 1 < [some acl, some acl].count (some acl) := by simp
    _ ≤ c.ruleCount acl := (List.duplicate_iff_sublist.1 htwice).count_le _

theorem ruleCount_pos {i : Nat} {p : Policy} {acl : String}
    (hi : c.effectivePolicies[i]? = some p) (hp : p.name = some acl) : 0 < c.ruleCount acl :=
  List.count_pos_iff.2 (List.mem_map.2 ⟨p, List.mem_of_getElem? hi, hp⟩)

/-- **The names are pairwise different just if the lists are apart**, where every rule is in a
list. -/
theorem nodup_ruleNames_iff (hnamed : ∀ p ∈ c.effectivePolicies, p.name.isSome = true) :
    c.ruleNames.Nodup ↔ c.AreListsApart := by
  constructor
  · intro hnodup i p acl hi hp hshared hsingle
    obtain ⟨q, hq, hqname⟩ : ∃ q ∈ c.effectivePolicies, q.name = some s!"{acl}-{i + 1}" :=
      List.mem_map.1 (List.count_pos_iff.1 (by rw [← ruleCount, hsingle]; exact Nat.one_pos))
    obtain ⟨j, hj⟩ := List.mem_iff_getElem?.1 hq
    have hnames : c.ruleNames[i]? = c.ruleNames[j]? := by
      rw [getElem?_ruleNames, getElem?_ruleNames, hi, hj, Option.map_some, Option.map_some,
        labelAmong_eq hp, labelAmong_eq hqname, if_pos hshared, hsingle, if_neg (lt_irrefl 1)]
    have hlength : i < c.ruleNames.length := by
      simpa [ruleNames] using (List.getElem?_eq_some_iff.1 hi).1
    obtain rfl : i = j := (List.getElem?_inj hlength hnodup).1 hnames
    obtain rfl : p = q := Option.some.inj (hi.symm.trans hj)
    rw [hp, Option.some_inj] at hqname
    exact absurd (hqname ▸ hsingle) hshared.ne'
  · intro hapart
    refine List.nodup_iff_getElem?_ne_getElem?.2 fun i j hlt hlength hnames => ?_
    rw [ruleNames, List.length_map, List.length_zipIdx] at hlength
    obtain ⟨p, hi⟩ : ∃ p, c.effectivePolicies[i]? = some p :=
      ⟨_, List.getElem?_eq_getElem (hlt.trans hlength)⟩
    obtain ⟨q, hj⟩ : ∃ q, c.effectivePolicies[j]? = some q := ⟨_, List.getElem?_eq_getElem hlength⟩
    obtain ⟨a, hp⟩ := Option.isSome_iff_exists.1 (hnamed p (List.mem_of_getElem? hi))
    obtain ⟨b, hq⟩ := Option.isSome_iff_exists.1 (hnamed q (List.mem_of_getElem? hj))
    rw [getElem?_ruleNames, getElem?_ruleNames, hi, hj, Option.map_some, Option.map_some,
      Option.some_inj, labelAmong_eq hp, labelAmong_eq hq] at hnames
    split at hnames
    · next ha =>
      split at hnames
      · exact absurd (numbered_inj hnames).2 (by omega)
      · next hb =>
        have hone : c.ruleCount b = 1 := by have := ruleCount_pos hj hq; omega
        exact hapart i p a hi hp ha (hnames ▸ hone)
    · next ha =>
      split at hnames
      · next hb =>
        have hone : c.ruleCount a = 1 := by have := ruleCount_pos hi hp; omega
        exact hapart j q b hj hq hb (hnames ▸ hone)
      · exact ha (one_lt_ruleCount hlt hi hj hp (hnames ▸ hq))

end Config

/-! ## The names in a written configuration -/

section Written

variable (origin : Dialect) {c : Config} (hc : c.OneLine)
include hc

/-- The names are those of the entries, also where there are more rules than numbers for them. -/
theorem FortiOs.names_read_write :
    (FortiOs.read (FortiOs.write origin c)).policies.map (·.name) = c.ruleNames.map some := by
  have hname (p : Policy) (position : Nat) :
      (FortiOs.readPolicy (FortiOs.ruleEntry c c.effectivePolicies p position).readBack).name
        = some (p.labelAmong c.effectivePolicies position) := by
    have hmem : ⟨"name", [p.labelAmong c.effectivePolicies position]⟩
        ∈ FortiOs.ruleSettings c p position := List.mem_cons_self
    rw [FortiOs.readBack_ruleEntry]
    exact congrArg List.head?
      (FortiOs.valuesOf_eq (FortiOs.nodup_ruleSettings c p position) hmem)
  rw [FortiOs.policies_read, FortiOs.readForest_write hc, FortiOs.entriesAt_document,
    FortiOs.ruleEntries, Config.ruleNames]
  simp only [List.map_map]
  exact List.map_congr_left fun p _ => hname p.1 p.2

theorem PanOs.names_read_write :
    (PanOs.read (PanOs.write origin c)).policies.map (·.name) = c.ruleNames.map some := by
  rw [PanOs.policies_of_eq_read_write hc rfl, Config.ruleNames, List.map_map]
  rfl

end Written

namespace Cisco

/-- Every rule of a text is in a list, also one that stands for a list without entries. -/
theorem isSome_name_of_mem_effectivePolicies {flavor : Flavor} {text : String} {p : Policy}
    (hp : p ∈ (read flavor text).effectivePolicies) : p.name.isSome = true := by
  rw [Config.effectivePolicies] at hp
  split at hp
  · obtain ⟨-, -, acl, entry, -, id, description, zone, rfl⟩ := exists_entry_of_mem_policies hp
    rfl
  · obtain ⟨b, -, rfl⟩ := List.mem_map.1 hp
    rfl

/-- **The rules of a text have names of their own, as they are written, just if its lists are
apart**: else the number behind the name of a list makes the name of another one. -/
theorem nodup_names_written_iff (flavor : Flavor) (origin : Dialect) (text : String) :
    (FortiOs.read (FortiOs.write origin (read flavor text))).policies.map (·.name)
        = (read flavor text).ruleNames.map some
      ∧ (PanOs.read (PanOs.write origin (read flavor text))).policies.map (·.name)
        = (read flavor text).ruleNames.map some
      ∧ ((read flavor text).ruleNames.Nodup ↔ (read flavor text).AreListsApart) :=
  ⟨FortiOs.names_read_write origin (oneLine_read flavor text),
    PanOs.names_read_write origin (oneLine_read flavor text),
    Config.nodup_ruleNames_iff fun _ hp => isSome_name_of_mem_effectivePolicies hp⟩

/-- A list of two rules, and one that is called like the first of them. -/
def clashText : String :=
  "access-list a extended permit ip any any\naccess-list a extended deny ip any any\n"
    ++ "access-list a-1 extended permit ip any any\n"

/-- **Two rules may have one name** in what is written. -/
theorem not_nodup_clashText :
    (FortiOs.read (FortiOs.write .ciscoAsa (read .asa clashText))).policies.map (·.name)
        = [some "a-1", some "a-2", some "a-1"]
      ∧ (PanOs.read (PanOs.write .ciscoAsa (read .asa clashText))).policies.map (·.name)
        = [some "a-1", some "a-2", some "a-1"] := by
  have htext : clashText = Text.unlines ["access-list a extended permit ip any any",
      "access-list a extended deny ip any any", "access-list a-1 extended permit ip any any"] := by
    decide +kernel
  have hnames : (read .asa clashText).ruleNames = ["a-1", "a-2", "a-1"] := by
    rw [htext, read, Reading.run_lines_unlines _ (by decide +kernel)]
    decide +kernel
  rw [FortiOs.names_read_write _ (oneLine_read .asa clashText),
    PanOs.names_read_write _ (oneLine_read .asa clashText), hnames]
  exact ⟨rfl, rfl⟩

end Cisco

end FirewallConfig
