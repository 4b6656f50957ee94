import FirewallConfig.Proofs.FortiOs.Addresses
import FirewallConfig.Proofs.PanOs.Sections
import Mathlib.Data.List.Nodup

/-!
# Proofs/Config/Addresses — addresses survive the dialects that write them as entries

Two dialects write an address as an entry of its name, and both read the same addresses back, whatever
their names, domains and descriptions hold (`addresses_read_write`).  One of them writes entries
for what groups and rules spell out, too; a declared name is never the text of a network, and so these
come behind the declared addresses and replace none of them.
-/

namespace FirewallConfig

/-- The names of declared addresses and the texts of networks that are spelled out all differ. -/
theorem FortiOs.nodup_addressNames {c : Config}
    (hnames : (c.addressObjects.map (·.name)).Nodup)
    (hnamed : ∀ o ∈ c.addressObjects, ∃ name, Endpoint.classify o.name = .named name)
    (hliterals : ∀ n ∈ spelledNetworks c, n.mask ∈ Netmask.table) :
    ((c.addressObjects ++ (spelledNetworks c).eraseDups.map literalObject).map (·.name)).Nodup := by
  have hspelled {n : Network} (hn : n ∈ (spelledNetworks c).eraseDups) : n ∈ spelledNetworks c :=
    List.mem_eraseDups.1 hn
  have htexts : ((spelledNetworks c).eraseDups.map literalObject).map (·.name)
      = (spelledNetworks c).eraseDups.map Network.cidr := by
    rw [List.map_map]
    exact List.map_congr_left fun n _ => AddressObject.name_ofNetwork n.cidr n none
  rw [List.map_append, htexts]
  have hdistinct : ((spelledNetworks c).eraseDups.map Network.cidr).Nodup :=
    List.Nodup.map_on (fun n hn m hm => cidr_inj hliterals (hspelled hn) (hspelled hm))
      (nodup_eraseDups _)
  refine List.nodup_append.2 ⟨hnames, hdistinct, ?_⟩
  intro name hdeclared text htext heq
  obtain ⟨o, ho, rfl⟩ := List.mem_map.1 hdeclared
  obtain ⟨n, hn, rfl⟩ := List.mem_map.1 htext
  obtain ⟨name, hname⟩ := hnamed o ho
  have hnetwork := Endpoint.classify_cidr (isIPv4_of_mem_spelledNetworks (hspelled hn))
    (hliterals n (hspelled hn))
  rw [← heq, hname] at hnetwork
  cases hnetwork

/-- **Addresses are read back as they are**, all of them and in order.  In one of the two dialects they
are followed by the networks that groups and then rules spell out, each once, in the order of use. -/
theorem addresses_read_write (origin : Dialect) {c : Config} (hc : c.OneLine)
    (hnames : (c.addressObjects.map (·.name)).Nodup)
    (hnamed : ∀ o ∈ c.addressObjects, ∃ name, Endpoint.classify o.name = .named name)
    (hconcrete : ∀ o ∈ c.addressObjects, o.IsConcrete)
    (hliterals : ∀ e ∈ FortiOs.usedEndpoints c, ∀ n, Endpoint.classify e = .network n →
      n.mask ∈ Netmask.table) :
    (PanOs.read (PanOs.write origin c)).addressObjects = c.addressObjects
      ∧ (FortiOs.read (FortiOs.write origin c)).addressObjects
        = c.addressObjects
          ++ (((FortiOs.usedEndpoints c).filterMap FortiOs.literalNetwork?).eraseDups).map
            fun n => .ofNetwork n.cidr n none := by
  have hspelled : ∀ n ∈ FortiOs.spelledNetworks c, n.mask ∈ Netmask.table := by
    intro n hn
    obtain ⟨e, he, hliteral⟩ := List.mem_filterMap.1 hn
    exact FortiOs.mask_mem_table_of_literalNetwork? hliteral (hliterals e he)
  constructor
  · rw [PanOs.addressObjects_eq_of_eq_read_write hc rfl hnames]
    exact (List.map_congr_left fun o ho => PanOs.addressReadBack_of_isConcrete (hconcrete o ho)).trans
      (List.map_id _)
  · exact FortiOs.addressObjects_written origin hc hspelled hconcrete
      (FortiOs.nodup_addressNames hnames hnamed hspelled)

/-- An address of each kind, with markup and quotes in the texts, and a network and an address that are
spelled out in several ways. -/
def quotedConfig : Config where
  addressObjects :=
    [{ name := "web \"1\"", value := "10.0.0.5", description := some "a & b" },
     { name := "lan", kind := .subnet, value := "10.0.0.0", mask := some "255.255.255.0" },
     { name := "pool", kind := .range, value := "10.0.0.20-10.0.0.30" },
     { name := "</entry>", kind := .fqdn, value := " <fqdn>\" " }]
  addressGroups := [{ name := "servers", members := ["lan", "10.0.0.5"] }]
  policies :=
    [{ source := ["10.1.0.0 255.255.0.0", "10.0.0.5/32"], destination := ["any", "10.1.0.0/16"] }]

theorem oneLine_quotedConfig : quotedConfig.OneLine := by
  have haddresses : ∀ o ∈ quotedConfig.addressObjects, o.OneLine := by
    refine List.forall_mem_cons.2 ⟨?_, List.forall_mem_cons.2 ⟨?_, List.forall_mem_cons.2 ⟨?_,
      List.forall_mem_singleton.2 ?_⟩⟩⟩
    all_goals exact { name := by decide, value := by decide }
  exact {
    addressObjects := haddresses
    addressGroups := List.forall_mem_singleton.2 { name := by decide }
    policies := List.forall_mem_singleton.2 {} }

theorem isConcrete_of_mem_quotedConfig : ∀ o ∈ quotedConfig.addressObjects, o.IsConcrete := by
  refine List.forall_mem_cons.2 ⟨.host _ _ ?_, List.forall_mem_cons.2 ⟨.subnet _ _ ?_ ?_ ?_,
    List.forall_mem_cons.2 ⟨?_, List.forall_mem_singleton.2 (.fqdn _ _ _)⟩⟩⟩
  · decide
  · decide
  · decide
  · decide
  · have hvalue : "10.0.0.20-10.0.0.30" = "10.0.0.20" ++ "-" ++ "10.0.0.30" := by decide
    rw [hvalue]
    exact .range "pool" none (by decide) (by decide)

/-- Both give the four addresses back; one of them adds the two that are spelled out. -/
theorem addresses_read_write_quotedConfig : quotedConfig.OneLine
    ∧ (∀ o ∈ quotedConfig.addressObjects, o.IsConcrete)
    ∧ (PanOs.read (PanOs.write .ciscoAsa quotedConfig)).addressObjects = quotedConfig.addressObjects
    ∧ (FortiOs.read (FortiOs.write .ciscoAsa quotedConfig)).addressObjects
      = quotedConfig.addressObjects
        ++ [{ name := "10.0.0.5/32", value := "10.0.0.5" },
            { name := "10.1.0.0/16", kind := .subnet, value := "10.1.0.0"
              mask := some "255.255.0.0" }] := by
  have hnamed : ∀ o ∈ quotedConfig.addressObjects,
      ∃ name, Endpoint.classify o.name = .named name := by
    have hname : ∀ o ∈ quotedConfig.addressObjects,
        (Endpoint.classify o.name).name? = some o.name := by decide +kernel
    intro o ho
    have hsome := hname o ho
    cases hc : Endpoint.classify o.name with
    | named name => exact ⟨name, rfl⟩
    | _ => rw [hc] at hsome; cases hsome
  have hliterals : ∀ e ∈ FortiOs.usedEndpoints quotedConfig, ∀ n,
      Endpoint.classify e = .network n → n.mask ∈ Netmask.table := by
    have hplain : ∀ e ∈ FortiOs.usedEndpoints quotedConfig, (Endpoint.classify e).IsPlain := by
      decide +kernel
    intro e he n hn
    have hnetwork := hplain e he
    rwa [hn] at hnetwork
  obtain ⟨hpan, hforti⟩ := addresses_read_write .ciscoAsa oneLine_quotedConfig (by decide)
    hnamed isConcrete_of_mem_quotedConfig hliterals
  refine ⟨oneLine_quotedConfig, isConcrete_of_mem_quotedConfig, hpan, hforti.trans ?_⟩
  refine congrArg _ ?_
  decide +kernel

end FirewallConfig
