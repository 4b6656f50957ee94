import FirewallConfig.Proofs.Config.Interfaces
import FirewallConfig.Proofs.PanOs.Collect
import Mathlib.Data.List.Nodup
import Mathlib.Data.List.Pairwise

/-!
# Proofs/Cisco/Nameifs — which interfaces are called alike

An interface is called by its nickname, by the zone that it alone is in, or by its name without
slashes.  Nicknames are compared with nicknames where they are given, a zone is counted among zones,
and names differ; but what one interface is called by its nickname, another one may be called by its
zone or by its name.  Interfaces are called differently just if they do not clash in one of these ways
(`nodup_nameifs_iff`).
-/

namespace FirewallConfig

/-- The one entry that has a property is the only one that has it. -/
theorem eq_of_countP_eq_one {α : Type} {p : α → Bool} {as : List α} (h : as.countP p = 1) {a b : α}
    (ha : a ∈ as) (hpa : p a = true) (hb : b ∈ as) (hpb : p b = true) : a = b := by
  rw [List.countP_eq_length_filter] at h
  obtain ⟨x, hx⟩ := List.length_eq_one_iff.1 h
  have hmem {y : α} (hy : y ∈ as) (hpy : p y = true) : y = x := by
    rw [← List.mem_singleton, ← hx]
    exact List.mem_filter.2 ⟨hy, hpy⟩
  rw [hmem ha hpa, hmem hb hpb]

/-- What is made of an entry and of no other one tells the entry. -/
theorem eq_of_nodup_filterMap {α β : Type} {f : α → Option β} {as : List α}
    (h : (as.filterMap f).Nodup) {a b : α} {x : β} (ha : a ∈ as) (hfa : f a = some x) (hb : b ∈ as)
    (hfb : f b = some x) : a = b := by
  by_contra hne
  have hsymm : Std.Symm fun a b => ∀ x, f a = some x → ∀ y, f b = some y → x ≠ y :=
    ⟨fun _ _ hab x hx y hy heq => hab y hy x hx heq.symm⟩
  exact (List.pairwise_filterMap.1 h).forall ha hb hne x hfa x hfb rfl

namespace Config

variable (c : Config)

/-- The nicknames that are there and not empty. -/
def nicknames : List String :=
  c.interfaces.filterMap fun i => i.nickname.filter (!·.isEmpty)

variable {c}

/-- An interface with a name of its own is what its name refers to. -/
theorem findInterface?_name (hnames : (c.interfaces.map (·.name)).Nodup) {i : Interface}
    (hi : i ∈ c.interfaces) : c.findInterface? i.name = some i := by
  have hfind : c.interface? i.name = some i := find?_eq_some_of_nodup Interface.name hnames hi
  rw [findInterface?, hfind, Option.some_or]

end Config

namespace Cisco

open Text (toString_text)

/-! ## What an interface is called by -/

/-- Where what an interface is called is taken from. -/
inductive Calling where
  | nickname (s : String)
  | zone (s : String)
  | name (s : String)

namespace Calling

/-- What the interface is called. -/
def text : Calling → String
  | nickname s => s
  | zone s => s
  | name s => withoutSlashes s

/-- Interfaces that are called by different things are called alike. -/
inductive Clash : Calling → Calling → Prop
  | nickname_zone (s : String) : Clash (nickname s) (zone s)
  | nickname_name (s : String) : Clash (nickname (withoutSlashes s)) (name s)
  | zone_name (s : String) : Clash (zone (withoutSlashes s)) (name s)
  | name_name {s t : String} (hne : s ≠ t) (hsame : withoutSlashes s = withoutSlashes t) :
    Clash (name s) (name t)

theorem Clash.ne {a b : Calling} (h : Clash a b) : a ≠ b := by
  cases h with
  | name_name hne _ => exact fun heq => hne (name.inj heq)
  | _ => nofun

theorem Clash.text_eq {a b : Calling} (h : Clash a b) : a.text = b.text := by
  cases h with
  | name_name _ hsame => exact hsame
  | _ => rfl

/-- What is called alike is called by the same, or clashes. -/
theorem eq_or_clash_of_text_eq {a b : Calling} (h : a.text = b.text) :
    a = b ∨ Clash a b ∨ Clash b a := by
  cases a with
  | nickname s =>
    cases b with
    | nickname t => exact .inl (congrArg nickname h)
    | zone t =>
      obtain rfl : s = t := h
      exact .inr (.inl (.nickname_zone s))
    | name t =>
      obtain rfl : s = withoutSlashes t := h
      exact .inr (.inl (.nickname_name t))
  | zone s =>
    cases b with
    | nickname t =>
      obtain rfl : s = t := h
      exact .inr (.inr (.nickname_zone s))
    | zone t => exact .inl (congrArg zone h)
    | name t =>
      obtain rfl : s = withoutSlashes t := h
      exact .inr (.inl (.zone_name t))
  | name s =>
    cases b with
    | nickname t =>
      obtain rfl : withoutSlashes s = t := h
      exact .inr (.inr (.nickname_name s))
    | zone t =>
      obtain rfl : withoutSlashes s = t := h
      exact .inr (.inr (.zone_name s))
    | name t =>
      by_cases hst : s = t
      · exact .inl (congrArg name hst)
      · exact .inr (.inl (.name_name hst h))

end Calling

/-- What an interface is called by: its nickname, else its own zone, else its name. -/
def calling (c : Config) (i : Interface) : Calling :=
  match i.nickname.filter (!·.isEmpty), ownZone? c i with
  | some nickname, _ => .nickname nickname
  | none, some zone => .zone zone
  | none, none => .name i.name

section Calling

variable {c : Config}

theorem nameif_eq_text_calling (i : Interface) : nameif c i = (calling c i).text := by
  unfold nameif calling
  cases i.nickname.filter (!·.isEmpty) with
  | some nickname => rfl
  | none => cases ownZone? c i <;> rfl

theorem filter_nickname_of_calling {i : Interface} {s : String}
    (h : calling c i = .nickname s) : i.nickname.filter (!·.isEmpty) = some s := by
  unfold calling at h
  split at h
  · next hnickname => rw [hnickname, Calling.nickname.inj h]
  · cases h
  · cases h

theorem ownZone?_of_calling {i : Interface} {s : String} (h : calling c i = .zone s) :
    ownZone? c i = some s := by
  unfold calling at h
  split at h
  · cases h
  · next hzone => rw [hzone, Calling.zone.inj h]
  · cases h

theorem name_of_calling {i : Interface} {s : String} (h : calling c i = .name s) :
    i.name = s := by
  unfold calling at h
  split at h
  · cases h
  · cases h
  · exact Calling.name.inj h

variable (hnames : (c.interfaces.map (·.name)).Nodup) (hnicknames : c.nicknames.Nodup)
include hnames hnicknames

/-- **No two interfaces are called by the same**: not by one nickname, not by one zone, which each of
them would have to itself, and not by one name. -/
theorem eq_of_calling_eq {i j : Interface} (hi : i ∈ c.interfaces) (hj : j ∈ c.interfaces)
    (h : calling c i = calling c j) : i = j := by
  cases hcalling : calling c j with
  | nickname s =>
    exact eq_of_nodup_filterMap hnicknames hi (filter_nickname_of_calling (h.trans hcalling)) hj
      (filter_nickname_of_calling hcalling)
  | zone s =>
    obtain ⟨hzi, -⟩ := Option.filter_eq_some_iff.1 (ownZone?_of_calling (h.trans hcalling))
    obtain ⟨hzj, hone⟩ := Option.filter_eq_some_iff.1 (ownZone?_of_calling hcalling)
    exact eq_of_countP_eq_one (beq_iff_eq.1 hone) hi (beq_iff_eq.2 hzi) hj (beq_iff_eq.2 hzj)
  | name s =>
    have hsame : i.name = j.name :=
      (name_of_calling (h.trans hcalling)).trans (name_of_calling hcalling).symm
    exact List.inj_on_of_nodup_map hnames hi hj hsame

/-- **The interfaces are called differently just if no two of them clash.** -/
theorem nodup_map_nameif_iff : (c.interfaces.map (nameif c)).Nodup
    ↔ ∀ i ∈ c.interfaces, ∀ j ∈ c.interfaces, ¬ (calling c i).Clash (calling c j) := by
  rw [List.nodup_map_iff_inj_on hnames.of_map]
  constructor
  · intro hinj i hi j hj hclash
    have hsame : nameif c i = nameif c j := by
      rw [nameif_eq_text_calling, nameif_eq_text_calling, hclash.text_eq]
    exact hclash.ne (congrArg (calling c) (hinj i hi j hj hsame))
  · intro hapart i hi j hj hsame
    rw [nameif_eq_text_calling, nameif_eq_text_calling] at hsame
    rcases Calling.eq_or_clash_of_text_eq hsame with heq | hclash | hclash
    · exact eq_of_calling_eq hnames hnicknames hi hj heq
    · exact absurd hclash (hapart i hi j hj)
    · exact absurd hclash (hapart j hj i hi)

omit hnicknames in
/-- Interfaces are called differently just if what a reference is written as is what only one of them
is called. -/
theorem nodup_map_nameif_iff_nameifOf : (c.interfaces.map (nameif c)).Nodup
    ↔ ∀ (reference : String) (i : Interface), c.findInterface? reference = some i →
      ∀ j ∈ c.interfaces, nameif c j = nameifOf c reference → j = i := by
  rw [List.nodup_map_iff_inj_on hnames.of_map]
  constructor
  · intro hinj reference i hi j hj hsame
    rw [nameifOf, hi] at hsame
    exact hinj j hj i (Config.mem_of_findInterface? hi) hsame
  · intro hone i hi j hj hsame
    refine hone j.name j (Config.findInterface?_name hnames hj) i hi ?_
    rw [nameifOf, Config.findInterface?_name hnames hj, hsame]

end Calling

/-! ## What is written -/

/-- The name in a line that gives one to an interface. -/
def nameifOfLine? (line : String) : Option String := Text.withoutPrefix " nameif " line

/-- A line that begins with another keyword gives no name. -/
theorem nameifOfLine?_append (keyword text : String) (h : ∀ cs : List Char,
    Chars.withoutPrefix " nameif ".toList (keyword.toList ++ cs) = none) :
    nameifOfLine? (keyword ++ text) = none := by
  rw [nameifOfLine?, Text.withoutPrefix, String.toList_append, h]
  rfl

/-- **The block of an interface gives it one name.** -/
theorem filterMap_interfaceLines (c : Config) (i : Interface) :
    (interfaceLines c i).filterMap nameifOfLine? = [nameif c i] := by
  have hname (name : String) : nameifOfLine? (" nameif " ++ name) = some name :=
    Text.withoutPrefix_append " nameif " name
  have hnone {α : Type} {f : α → String} (a : Option α) (h : ∀ a, nameifOfLine? (f a) = none) :
      (a.toList.map f).filterMap nameifOfLine? = [] :=
    List.filterMap_eq_nil_iff.2 (List.forall_mem_map.2 fun a _ => h a)
  have hheader : nameifOfLine? s!"interface {i.name}" = none :=
    nameifOfLine?_append "interface " i.name fun _ => rfl
  have haddress (ip mask : String) :
      nameifOfLine? (" ip address " ++ ip ++ " " ++ mask) = none := by
    rw [String.append_assoc, String.append_assoc]
    exact nameifOfLine?_append " ip address " _ fun _ => rfl
  have hnoAddress : nameifOfLine? " no ip address" = none := by decide
  have hshutdown : (if i.enabled then [] else [" shutdown"]).filterMap nameifOfLine? = [] := by
    split <;> decide
  have hbang : nameifOfLine? "!" = none := by decide
  rw [interfaceLines_eq, bodyLines, List.filterMap_cons_none hheader]
  simp only [List.filterMap_append, toString_text]
  rw [hnone i.comment fun _ => nameifOfLine?_append " description " _ fun _ => rfl,
    hnone i.vlan fun _ => nameifOfLine?_append " vlan " _ fun _ => rfl,
    hnone (securityLevel c i) fun _ => nameifOfLine?_append " security-level " _ fun _ => rfl,
    hshutdown, List.filterMap_cons_some (hname _), List.filterMap_cons_none hbang]
  split
  · rw [List.filterMap_cons_none (haddress _ _)]
    rfl
  · rw [List.filterMap_cons_none hnoAddress]
    rfl

/-- An interface with a nickname. -/
example : (interfaceLines {} { name := "e0", nickname := some "dmz" }).filterMap nameifOfLine?
    = ["dmz"] := by decide +kernel

/-- The names that the blocks of the interfaces give them. -/
def writtenNameifs (c : Config) : List String :=
  (c.interfaces.flatMap (interfaceLines c)).filterMap nameifOfLine?

theorem writtenNameifs_eq (c : Config) : writtenNameifs c = c.interfaces.map (nameif c) := by
  rw [writtenNameifs, List.filterMap_flatMap, ← List.flatMap_pure_eq_map]
  exact List.flatMap_congr fun i _ => filterMap_interfaceLines c i

/-- **What the interfaces of a text are called differs just if no two of them clash**, where no two
of them share a nickname; and just then a name that is written for a reference tells the interface. -/
theorem nodup_writtenNameifs_iff (source : Dialect) (text : String)
    (hnicknames : (source.read text).nicknames.Nodup) :
    ((writtenNameifs (source.read text)).Nodup
        ↔ ∀ i ∈ (source.read text).interfaces, ∀ j ∈ (source.read text).interfaces,
          ¬ (calling (source.read text) i).Clash (calling (source.read text) j))
      ∧ ((writtenNameifs (source.read text)).Nodup
        ↔ ∀ (reference : String) (i : Interface),
          (source.read text).findInterface? reference = some i →
          ∀ j ∈ (source.read text).interfaces,
            nameif (source.read text) j = nameifOf (source.read text) reference → j = i) := by
  have hnames := source.nodup_interfaces_read text
  rw [writtenNameifs_eq]
  exact ⟨nodup_map_nameif_iff hnames hnicknames, nodup_map_nameif_iff_nameifOf hnames⟩

/-- One interface has a nickname, one is alone in its zone, and one has a name only. -/
def apartText : String := Text.unlines
  ["<ethernet>", "<entry name=\"ethernet1/1\">", "<comment>wan</comment>", "</entry>",
    "<entry name=\"ethernet1/2\">", "</entry>", "<entry name=\"ethernet1/3\">", "</entry>",
    "</ethernet>", "<zone>", "<entry name=\"dmz\">", "<network>", "<layer3>",
    "<member>ethernet1/2</member>", "</layer3>", "</network>", "</entry>"]

theorem interfaces_apartText : (Dialect.paloAlto.read apartText).interfaces
    = [{ name := "ethernet1/1", nickname := some "wan" },
       { name := "ethernet1/2", zone := some "dmz" }, { name := "ethernet1/3" }] := by
  rw [Dialect.read, apartText, PanOs.read_unlines (by decide +kernel)]
  decide +kernel

theorem nodup_writtenNameifs_iff_apartText :
    (Dialect.paloAlto.read apartText).nicknames.Nodup
      ∧ writtenNameifs (Dialect.paloAlto.read apartText) = ["wan", "dmz", "ethernet1_3"]
      ∧ ∀ i ∈ (Dialect.paloAlto.read apartText).interfaces,
        ∀ j ∈ (Dialect.paloAlto.read apartText).interfaces,
          ¬ (calling (Dialect.paloAlto.read apartText) i).Clash
            (calling (Dialect.paloAlto.read apartText) j) := by
  have hnodup : (Dialect.paloAlto.read apartText).nicknames.Nodup := by
    rw [Config.nicknames, interfaces_apartText]
    decide
  have hwritten : writtenNameifs (Dialect.paloAlto.read apartText)
      = ["wan", "dmz", "ethernet1_3"] := by
    rw [writtenNameifs_eq]
    unfold nameif ownZone?
    rw [interfaces_apartText]
    decide
  refine ⟨hnodup, hwritten, (nodup_writtenNameifs_iff .paloAlto apartText hnodup).1.1 ?_⟩
  rw [hwritten]
  decide

/-- An interface with the nickname that is the zone of another one. -/
def dmzTwiceText : String := Text.unlines
  ["<ethernet>", "<entry name=\"ethernet1/1\">", "<comment>dmz</comment>", "</entry>",
    "<entry name=\"ethernet1/2\">", "</entry>", "</ethernet>", "<zone>", "<entry name=\"dmz\">",
    "<network>", "<layer3>", "<member>ethernet1/2</member>", "</layer3>", "</network>", "</entry>"]

theorem interfaces_dmzTwiceText : (Dialect.paloAlto.read dmzTwiceText).interfaces
    = [{ name := "ethernet1/1", nickname := some "dmz" },
       { name := "ethernet1/2", zone := some "dmz" }] := by
  rw [Dialect.read, dmzTwiceText, PanOs.read_unlines (by decide +kernel)]
  decide +kernel

/-- **Two interfaces of different names and without a nickname in common may be called alike.** -/
theorem not_nodup_dmzTwiceText :
    ((Dialect.paloAlto.read dmzTwiceText).interfaces.map (·.name)).Nodup
      ∧ (Dialect.paloAlto.read dmzTwiceText).nicknames.Nodup
      ∧ writtenNameifs (Dialect.paloAlto.read dmzTwiceText) = ["dmz", "dmz"] := by
  rw [writtenNameifs_eq, Config.nicknames]
  unfold nameif ownZone?
  rw [interfaces_dmzTwiceText]
  decide

end Cisco

end FirewallConfig
