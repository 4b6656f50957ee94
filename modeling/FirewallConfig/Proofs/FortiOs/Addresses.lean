import FirewallConfig.Proofs.Config.Network
import FirewallConfig.Proofs.FortiOs.Network

/-!
# Proofs/FortiOs/Addresses — the addresses of a written configuration are read back

An address is an entry with settings for what it is, and maybe one for its description; whether it is
one address or a network is told from its mask again (`readAddress_addressEntry`).  Behind the declared
addresses come the networks that groups and rules spell out, each once and under the text of itself, in
the order in which they are first used: they are written as if they were declared there
(`addressEntries_eq`).
-/

namespace FirewallConfig.FortiOs

open Text

/-! ## Addresses -/

theorem readBack_networkSetting (key : String) {n : Network} (ha : isIPv4 n.address = true)
    (hm : n.mask ∈ Netmask.table) :
    (networkSetting key n).readBack = ⟨key, [n.address, n.mask]⟩ := by
  have hmask : IsBareWord n.mask.toList := isBareWord_of_isIPv4 (Netmask.isIPv4_of_mem_table hm)
  exact readBack_bareSetting_words key (by simp [isBareWord_of_isIPv4 ha, hmask])

/-- An entry of a network is the address or the network that its mask makes it. -/
theorem readAddress_of_network {o : AddressObject} {n : Network}
    (ho : addressSettings o = [networkSetting "subnet" n]) (ha : isIPv4 n.address = true)
    (hm : n.mask ∈ Netmask.table) :
    readAddress (addressEntry o).readBack = some (.ofNetwork o.name n o.description) := by
  have hname : (addressEntry o).readBack.name = o.name := rfl
  have hsettings : (addressEntry o).readBack.settings
      = [⟨"subnet", [n.address, n.mask]⟩]
        ++ o.description.toList.map fun comment => ⟨"comment", [comment]⟩ := by
    rw [addressEntry, Entry.readBack, List.map_append, ho, List.map_singleton,
      readBack_networkSetting _ ha hm, map_readBack_quotedSetting?]
  generalize (addressEntry o).readBack = e at hname hsettings
  have hsubnet : valuesOf e.settings "subnet" = [n.address, n.mask] := by
    simp only [hsettings, valuesOf_append_setting?, valuesOf_singleton, String.reduceEq, ↓reduceIte]
  obtain ⟨htype, hcomment⟩ : valueOf e.settings "type" = none
      ∧ valueOf e.settings "comment" = o.description := by
    simp only [hsettings, valueOf_append_setting?, valueOf_singleton, String.reduceEq, ↓reduceIte,
      Option.or_none, Option.map_id', and_self]
  rw [readAddress, readAddressValue, htype, hcomment, hsubnet, hname, AddressObject.ofNetwork]
  simp only [Option.getD_none, networkOfValues, Option.map_some]
  split <;> rfl

theorem readAddress_of_range {name first last : String} {description : Option String}
    (hfirst : isIPv4 first = true) (hlast : isIPv4 last = true) :
    readAddress (addressEntry
        { name, kind := .range, value := first ++ "-" ++ last, description }).readBack
      = some { name, kind := .range, value := first ++ "-" ++ last, description } := by
  generalize ho : AddressObject.mk name .range (first ++ "-" ++ last) none description = o
  have hname : (addressEntry o).readBack.name = name := by rw [← ho]; rfl
  have hends : rangeEnds (first ++ "-" ++ last) = (first, last) := by
    have hdash : '-' ∉ first.toList := fun hmem =>
      absurd ((isNumeric_of_isIPv4 hfirst).2 _ hmem) (by decide)
    have hcut : cut '-' (first ++ "-" ++ last) = some (first, last) := cut_append hdash last
    rw [rangeEnds, hcut]
    rfl
  have hvalue : addressSettings o = [bareSetting "type" ["iprange"],
      bareSetting "start-ip" [first], bareSetting "end-ip" [last]] := by
    rw [← ho, addressSettings, hends]
  have hsettings : (addressEntry o).readBack.settings
      = [⟨"type", ["iprange"]⟩] ++ [⟨"start-ip", [first]⟩] ++ [⟨"end-ip", [last]⟩]
        ++ description.toList.map fun comment => ⟨"comment", [comment]⟩ := by
    rw [addressEntry, Entry.readBack, List.map_append, hvalue, List.map_cons, List.map_cons,
      List.map_singleton, readBack_bareSetting _ (by decide : IsBareWord "iprange".toList),
      readBack_bareSetting _ (isBareWord_of_isIPv4 hfirst),
      readBack_bareSetting _ (isBareWord_of_isIPv4 hlast), map_readBack_quotedSetting?, ← ho]
    rfl
  generalize (addressEntry o).readBack = e at hname hsettings
  obtain ⟨htype, hstart, hend, hcomment⟩ : valueOf e.settings "type" = some "iprange"
      ∧ valueOf e.settings "start-ip" = some first ∧ valueOf e.settings "end-ip" = some last
      ∧ valueOf e.settings "comment" = description := by
    simp only [hsettings, valueOf_append_setting?, valueOf_append_singleton, valueOf_singleton,
      String.reduceEq, ↓reduceIte, Option.or_none, Option.map_id', List.head?_cons, and_self]
  rw [readAddress, readAddressValue, htype, hstart, hend, hcomment, hname, ← ho]
  simp

theorem readAddress_of_fqdn (name domain : String) (description : Option String) :
    readAddress (addressEntry { name, kind := .fqdn, value := domain, description }).readBack
      = some { name, kind := .fqdn, value := domain, description } := by
  generalize ho : AddressObject.mk name .fqdn domain none description = o
  have hname : (addressEntry o).readBack.name = name := by rw [← ho]; rfl
  have hsettings : (addressEntry o).readBack.settings
      = [⟨"type", ["fqdn"]⟩] ++ [⟨"fqdn", [domain]⟩]
        ++ description.toList.map fun comment => ⟨"comment", [comment]⟩ := by
    rw [addressEntry, Entry.readBack, List.map_append, map_readBack_quotedSetting?, ← ho,
      addressSettings, List.map_cons, List.map_singleton,
      readBack_bareSetting _ (by decide : IsBareWord "fqdn".toList), readBack_quotedSetting]
    rfl
  generalize (addressEntry o).readBack = e at hname hsettings
  obtain ⟨htype, hdomain, hcomment⟩ : valueOf e.settings "type" = some "fqdn"
      ∧ valueOf e.settings "fqdn" = some domain
      ∧ valueOf e.settings "comment" = description := by
    simp only [hsettings, valueOf_append_setting?, valueOf_append_singleton, valueOf_singleton,
      String.reduceEq, ↓reduceIte, Option.or_none, Option.map_id', List.head?_cons, and_self]
  rw [readAddress, readAddressValue, htype, hdomain, hcomment, hname, ← ho]
  simp

/-- **An address is read back from its entry.** -/
theorem readAddress_addressEntry {o : AddressObject} (ho : o.IsConcrete) :
    readAddress (addressEntry o).readBack = some o := by
  cases ho with
  | @host name address description haddress =>
    rw [readAddress_of_network (n := ⟨address, Netmask.single⟩) rfl haddress
      (by exact List.getLast_mem (List.cons_ne_nil _ _)), AddressObject.ofNetwork_single]
  | @subnet name address mask description haddress hmask hsingle =>
    rw [readAddress_of_network (n := ⟨address, mask⟩) rfl haddress hmask,
      AddressObject.ofNetwork_of_ne hsingle]
  | range name description hfirst hlast => exact readAddress_of_range hfirst hlast
  | fqdn name domain description => exact readAddress_of_fqdn name domain description

/-! ## Networks that are spelled out -/

/-- The networks that groups and rules spell out, in the order of use. -/
def spelledNetworks (c : Config) : List Network := (usedEndpoints c).filterMap literalNetwork?

/-- The address that stands for a network that is spelled out, under the text of the network. -/
def literalObject (n : Network) : AddressObject := .ofNetwork n.cidr n none

/-- The entry of what is spelled out is the one that it would have if it were declared. -/
theorem impliedAddressEntry_eq (name : String) (n : Network) :
    impliedAddressEntry name n = addressEntry (.ofNetwork name n none) := by
  by_cases hsingle : n.mask = Netmask.single
  · obtain ⟨address, mask⟩ := n
    obtain rfl : mask = Netmask.single := hsingle
    rw [AddressObject.ofNetwork_single]
    rfl
  · rw [AddressObject.ofNetwork_of_ne hsingle]
    rfl

theorem isIPv4_of_mem_spelledNetworks {c : Config} {n : Network} (hn : n ∈ spelledNetworks c) :
    isIPv4 n.address = true := by
  obtain ⟨e, -, he⟩ := List.mem_filterMap.1 hn
  exact (addressName_of_literalNetwork? he).1

/-- What an endpoint spells out has a mask of the table if the endpoint has, where it has one. -/
theorem mask_mem_table_of_literalNetwork? {e : String} {n : Network} (h : literalNetwork? e = some n)
    (he : ∀ n, Endpoint.classify e = .network n → n.mask ∈ Netmask.table) :
    n.mask ∈ Netmask.table := by
  rw [literalNetwork?] at h
  cases hc : Endpoint.classify e with
  | any => rw [hc] at h; cases h
  | named name => rw [hc] at h; cases h
  | host address =>
    rw [hc] at h
    cases h
    exact List.getLast_mem (List.cons_ne_nil _ _)
  | network m =>
    rw [hc] at h
    dsimp only at h
    split at h
    · cases h
    · cases h
      exact he n hc

section Spelled

variable {c : Config} (hliterals : ∀ n ∈ spelledNetworks c, n.mask ∈ Netmask.table)
include hliterals

theorem isConcrete_literalObject {n : Network} (hn : n ∈ spelledNetworks c) :
    (literalObject n).IsConcrete :=
  AddressObject.isConcrete_ofNetwork _ _ (isIPv4_of_mem_spelledNetworks hn) (hliterals n hn)

/-- Networks with masks of the table are the same if their texts are. -/
theorem cidr_inj {n m : Network} (hn : n ∈ spelledNetworks c) (hm : m ∈ spelledNetworks c)
    (h : n.cidr = m.cidr) : n = m := by
  have hread := Network.read?_cidr (isIPv4_of_mem_spelledNetworks hn) (hliterals n hn)
  rw [h, Network.read?_cidr (isIPv4_of_mem_spelledNetworks hm) (hliterals m hm)] at hread
  exact (Option.some.inj hread).symm

/-- **What is spelled out has one entry for each network.** -/
theorem impliedAddresses_eq :
    impliedAddresses c = (spelledNetworks c).eraseDups.map fun n => (n.cidr, n) := by
  have hnames : ((usedEndpoints c).filterMap fun e =>
      (literalNetwork? e).map fun n => (addressName e, n))
        = (spelledNetworks c).map fun n => (n.cidr, n) := by
    rw [spelledNetworks, List.map_filterMap]
    refine List.filterMap_congr fun e _ => ?_
    cases he : literalNetwork? e with
    | none => rfl
    | some n => rw [Option.map_some, Option.map_some, (addressName_of_literalNetwork? he).2]
  rw [impliedAddresses, hnames]
  refine eraseDupsBy_map fun n hn m hm => Bool.eq_iff_iff.2 ?_
  rw [beq_iff_eq, beq_iff_eq]
  exact ⟨cidr_inj hliterals hn hm, fun h => h ▸ rfl⟩

theorem addressEntries_eq :
    addressEntries c
      = (c.addressObjects ++ (spelledNetworks c).eraseDups.map literalObject).map addressEntry := by
  rw [addressEntries, impliedAddresses_eq hliterals, List.map_append, List.map_map, List.map_map]
  exact congrArg _ (List.map_congr_left fun n _ => impliedAddressEntry_eq n.cidr n)

end Spelled

/-! ## All addresses -/

/-- The addresses that are read are the entries of one path, put in one by one. -/
theorem addressObjects_read (text : String) :
    (read text).addressObjects
      = ((entriesAt "firewall address" (readForest text)).filterMap readAddress).foldl
          (fun os o => putBy (·.name) o os) [] := by
  rw [read, ofForest]
  dsimp only
  rw [foldl_putAddressObject_eq, foldl_putInterface_eq]

/-- **The addresses of a written configuration are read back**, those that are spelled out behind the
declared ones, if all names differ. -/
theorem addressObjects_written (origin : Dialect) {c : Config} (hc : c.OneLine)
    (hliterals : ∀ n ∈ spelledNetworks c, n.mask ∈ Netmask.table)
    (hconcrete : ∀ o ∈ c.addressObjects, o.IsConcrete)
    (hnames : ((c.addressObjects ++ (spelledNetworks c).eraseDups.map literalObject).map
      (·.name)).Nodup) :
    (read (write origin c)).addressObjects
      = c.addressObjects ++ (spelledNetworks c).eraseDups.map literalObject := by
  have hentries : entriesAt "firewall address" ((document c).map Section.readBack)
      = (addressEntries c).map Entry.readBack := by
    rw [entriesAt_listings (by decide) (by decide)]
    simp [listings]
  have hread : ∀ o ∈ c.addressObjects ++ (spelledNetworks c).eraseDups.map literalObject,
      readAddress (addressEntry o).readBack = some o := by
    refine List.forall_mem_append.2 ⟨fun o ho => readAddress_addressEntry (hconcrete o ho),
      List.forall_mem_map.2 fun n hn => readAddress_addressEntry ?_⟩
    exact isConcrete_literalObject hliterals (List.mem_eraseDups.1 hn)
  have hall : ((addressEntries c).map Entry.readBack).filterMap readAddress
      = c.addressObjects ++ (spelledNetworks c).eraseDups.map literalObject := by
    rw [addressEntries_eq hliterals, List.map_map, List.filterMap_map]
    exact (List.filterMap_congr hread).trans List.filterMap_some
  rw [addressObjects_read, readForest_write hc, hentries, hall, foldl_putBy_of_nodup]
  · rfl
  · exact hnames

end FirewallConfig.FortiOs
