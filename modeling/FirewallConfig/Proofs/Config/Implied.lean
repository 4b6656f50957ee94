import FirewallConfig.PanOs.Writer
import FirewallConfig.Proofs.Address.Endpoint
import FirewallConfig.Proofs.Config.OneLine
import FirewallConfig.Proofs.FortiOs.Groups

/-!
# Proofs/Config/Implied — the entries of what rules spell out

Where rules refer by name only, what they spell out is written as an entry under a name that is made
of it.  One such entry is written for each name, beside those of what is declared, whatever names
these have.  Main statement: a name refers to one entry, the one of what is spelled out, just if
nothing is declared under it and nothing else is spelled out under it (`impliedEntries_iff`); the
second can only fail for a mask outside the table.
-/

namespace FirewallConfig

/-! ## Declared entries and implied ones -/

/-- **The entry of a name is the only one** just if nothing is declared under the name and the first
thing that is spelled out under it has that entry. -/
theorem filter_declared_append_implied {α β γ : Type} (declared : List α) {spelled : List β}
    (entryOf : α → γ) (impliedOf : β → γ) (nameOf : α → String) (key : β → String) {p : γ → Bool}
    {b : β} (hb : b ∈ spelled) (hdeclared : ∀ a, p (entryOf a) = (nameOf a == key b))
    (himplied : ∀ x, p (impliedOf x) = (key x == key b)) :
    (declared.map entryOf ++ (spelled.eraseDupsBy fun x y => key x == key y).map impliedOf).filter p
        = [impliedOf b]
      ↔ (∀ a ∈ declared, nameOf a ≠ key b)
        ∧ ∃ x, spelled.find? (fun x => key x == key b) = some x ∧ impliedOf x = impliedOf b := by
  obtain ⟨x, hx⟩ : ∃ x, spelled.find? (fun x => key x == key b) = some x :=
    Option.isSome_iff_exists.1 (List.find?_isSome.2 ⟨b, hb, beq_self_eq_true _⟩)
  have hfirst : (declared.map entryOf).filter p
      = (declared.filter fun a => nameOf a == key b).map entryOf := by
    rw [List.filter_map]
    exact congrArg (List.map entryOf) (List.filter_congr fun a _ => hdeclared a)
  have hsecond : ((spelled.eraseDupsBy fun x y => key x == key y).map impliedOf).filter p
      = [impliedOf x] := by
    have hcongr : (p ∘ impliedOf) = fun x => key x == key b := funext himplied
    rw [List.filter_map, hcongr, filter_eraseDupsBy, hx]
    rfl
  have hnone : (declared.filter fun a => nameOf a == key b) = []
      ↔ ∀ a ∈ declared, nameOf a ≠ key b := by
    rw [List.filter_eq_nil_iff]
    exact forall₂_congr fun a _ => not_congr beq_iff_eq
  rw [List.filter_append, hfirst, hsecond, ← hnone, hx]
  simp [List.append_eq_singleton_iff]

/-! ## Addresses -/

namespace FortiOs

/-- **Networks with masks of the table have different names.** -/
theorem eq_of_addressName_eq {e e' : String} {n n' : Network} (h : literalNetwork? e = some n)
    (h' : literalNetwork? e' = some n') (hm : n.mask ∈ Netmask.table)
    (hm' : n'.mask ∈ Netmask.table) (hname : addressName e = addressName e') : n = n' := by
  obtain ⟨ha, hn⟩ := addressName_of_literalNetwork? h
  obtain ⟨ha', hn'⟩ := addressName_of_literalNetwork? h'
  have hread := Network.read?_cidr ha hm
  rw [← hn, hname, hn', Network.read?_cidr ha' hm'] at hread
  exact (Option.some.inj hread).symm

/-- The networks that groups and rules spell out, each under the name that refers to it. -/
def spelledAddresses (c : Config) : List (String × Network) :=
  (usedEndpoints c).filterMap fun e => (literalNetwork? e).map fun n => (addressName e, n)

theorem mem_spelledAddresses_iff {c : Config} {s : String × Network} :
    s ∈ spelledAddresses c
      ↔ ∃ e ∈ usedEndpoints c, literalNetwork? e = some s.2 ∧ addressName e = s.1 := by
  rw [spelledAddresses, List.mem_filterMap]
  refine exists_congr fun e => and_congr_right fun _ => ?_
  rw [Option.map_eq_some_iff]
  constructor
  · rintro ⟨n, hn, rfl⟩
    exact ⟨hn, rfl⟩
  · rintro ⟨hn, hname⟩
    exact ⟨s.2, hn, by rw [hname]⟩

theorem quoted_beq_quoted (s t : String) : (Value.quoted s == Value.quoted t) = (s == t) := by
  rw [Bool.eq_iff_iff, beq_iff_eq, beq_iff_eq, Value.quoted.injEq]

/-- **The name of an address means what is spelled out under it**, for every such name, just if
nothing is declared under one of them and no two networks are spelled out under the same. -/
theorem addressEntries_sound_iff (c : Config) :
    (∀ s ∈ spelledAddresses c,
        (addressEntries c).filter (·.name == .quoted s.1) = [impliedAddressEntry s.1 s.2])
      ↔ ∀ s ∈ spelledAddresses c, (∀ o ∈ c.addressObjects, o.name ≠ s.1)
          ∧ ∀ t ∈ spelledAddresses c, t.1 = s.1 → t.2 = s.2 := by
  have hentry : ∀ s t : String × Network,
      impliedAddressEntry s.1 s.2 = impliedAddressEntry t.1 t.2 → s.2 = t.2 := by
    rintro ⟨_, address, mask⟩ ⟨_, address', mask'⟩ h
    simp only [impliedAddressEntry, networkSetting, bareSetting, List.map_cons, List.map_nil,
      Entry.mk.injEq, Setting.mk.injEq, List.cons.injEq, Value.bare.injEq, and_true, true_and] at h
    rw [h.2.1, h.2.2]
  have hfilter : ∀ s ∈ spelledAddresses c, _ := fun s hs =>
    filter_declared_append_implied (p := (·.name == .quoted s.1)) c.addressObjects addressEntry
      (fun s : String × Network => impliedAddressEntry s.1 s.2) (·.name) (·.1) hs
      (fun o => quoted_beq_quoted o.name s.1) (fun t => quoted_beq_quoted t.1 s.1)
  constructor
  · intro h s hs
    obtain ⟨hdeclared, x, hx, hxs⟩ := (hfilter s hs).1 (h s hs)
    refine ⟨hdeclared, fun t ht hts => ?_⟩
    obtain ⟨-, y, hy, hyt⟩ := (hfilter t ht).1 (h t ht)
    rw [hts, hx] at hy
    cases hy
    exact (hentry x t hyt).symm.trans (hentry x s hxs)
  · intro h s hs
    obtain ⟨hdeclared, hsame⟩ := h s hs
    obtain ⟨x, hx⟩ : ∃ x, (spelledAddresses c).find? (fun x => x.1 == s.1) = some x :=
      Option.isSome_iff_exists.1 (List.find?_isSome.2 ⟨s, hs, beq_self_eq_true _⟩)
    have hkey : x.1 = s.1 := by simpa using List.find?_some hx
    refine (hfilter s hs).2 ⟨hdeclared, x, hx, ?_⟩
    rw [hkey, hsame x (List.mem_of_find?_eq_some hx) hkey]

end FortiOs

/-! ## Services -/

/-- The services that rules spell out and that are not predefined, in the order of use. -/
def Config.spelledServices (c : Config) (predefined : String → String → Option String) :
    List ServiceObject :=
  c.effectivePolicies.flatMap fun p =>
    p.services.filterMap fun s => literalService? predefined (c.resolveService s)

theorem Config.mem_spelledServices_iff {c : Config} {predefined : String → String → Option String}
    {o : ServiceObject} : o ∈ c.spelledServices predefined
      ↔ ∃ p ∈ c.effectivePolicies, ∃ s ∈ p.services, ∃ protocol ports,
          c.resolveService s = .port protocol ports ∧ predefined protocol ports = none
            ∧ o = { name := literalName protocol ports, protocol, port := some ports } := by
  rw [spelledServices, List.mem_flatMap]
  refine exists_congr fun p => and_congr_right fun _ => ?_
  rw [List.mem_filterMap]
  refine exists_congr fun s => and_congr_right fun _ => ?_
  cases c.resolveService s with
  | port protocol ports =>
    rw [literalService?]
    constructor
    · intro h
      split at h
      · cases h
      · next hnone => exact ⟨protocol, ports, rfl, by simpa using hnone, (Option.some.inj h).symm⟩
    · rintro ⟨_, _, ⟨⟩, hnone, rfl⟩
      rw [hnone]
      rfl
  | any => simp [literalService?]
  | protocol name => simp [literalService?]
  | named name => simp [literalService?]

/-- **Services that are spelled out have different names.** -/
theorem Config.eq_of_mem_spelledServices {c : Config}
    {predefined : String → String → Option String} {o o' : ServiceObject}
    (ho : o ∈ c.spelledServices predefined) (ho' : o' ∈ c.spelledServices predefined)
    (hname : o.name = o'.name) : o = o' := by
  obtain ⟨-, -, s, -, protocol, ports, hs, -, rfl⟩ := mem_spelledServices_iff.1 ho
  obtain ⟨-, -, s', -, protocol', ports', hs', -, rfl⟩ := mem_spelledServices_iff.1 ho'
  -- no protocol holds a dash, so that the name is cut at its first one
  have hdash : ∀ name ∈ ServiceRef.protocols, '-' ∉ name.toList := by decide
  have hprotocol := hdash _ (mem_protocols_of_resolveService (by rw [hs]; rfl))
  have hprotocol' := hdash _ (mem_protocols_of_resolveService (by rw [hs']; rfl))
  have hlist : ∀ p q : String, (literalName p q).toList = p.toList ++ '-' :: q.toList := fun p q => by
    rw [literalName]
    simp
  have hchars := congrArg String.toList hname
  rw [hlist, hlist] at hchars
  obtain ⟨hp, hq⟩ := Chars.append_cons_inj hprotocol hprotocol' hchars
  rw [String.toList_inj.1 hp, String.toList_inj.1 hq]

/-- **The name of a service means what is spelled out under it** just if nothing is declared under
it: no other service is spelled out under the same name. -/
theorem Config.filter_declared_append_literalServices_iff {γ : Type} {c : Config}
    {predefined : String → String → Option String} {declared : List ServiceObject}
    {entryOf impliedOf : ServiceObject → γ} {p : γ → Bool} {o : ServiceObject}
    (ho : o ∈ c.spelledServices predefined) (hdeclared : ∀ d, p (entryOf d) = (d.name == o.name))
    (himplied : ∀ o', p (impliedOf o') = (o'.name == o.name)) :
    (declared.map entryOf ++ (c.literalServices predefined).map impliedOf).filter p = [impliedOf o]
      ↔ ∀ d ∈ declared, d.name ≠ o.name := by
  obtain ⟨o', ho'⟩ : ∃ o', (c.spelledServices predefined).find? (·.name == o.name) = some o' :=
    Option.isSome_iff_exists.1 (List.find?_isSome.2 ⟨o, ho, beq_self_eq_true _⟩)
  have hfirst : o' = o := by
    refine eq_of_mem_spelledServices (List.mem_of_find?_eq_some ho') ho ?_
    simpa using List.find?_some ho'
  refine (filter_declared_append_implied declared entryOf impliedOf (·.name) (·.name) ho hdeclared
    himplied).trans ?_
  exact and_iff_left ⟨o', ho', congrArg impliedOf hfirst⟩

/-! ## The entries that are written -/

namespace FortiOs

/-- The addresses and the services are written as sections of their entries. -/
theorem listing_infix_writeLines (origin : Dialect) (c : Config) :
    listing "firewall address" (addressEntries c) <:+: writeLines origin c
      ∧ listing "firewall service custom" (serviceEntries c) <:+: writeLines origin c := by
  constructor
  · iterate 11 refine .trans ?_ (List.prefix_append _ _).isInfix
    exact (List.suffix_append _ _).isInfix
  · iterate 9 refine .trans ?_ (List.prefix_append _ _).isInfix
    exact (List.suffix_append _ _).isInfix

end FortiOs

namespace PanOs

theorem branch?_infix_systemElements (c : Config) :
    branch? "service" (serviceEntries c) <:+: systemElements c := by
  iterate 3 refine .trans ?_ (List.prefix_append _ _).isInfix
  exact (List.suffix_append _ _).isInfix

theorem attribute?_entry (name : String) (children : List Xml.Node) :
    (entry name children).attribute? "name" = some name := by
  rw [entry, Xml.Node.withAttribute, Xml.Node.attribute?, Xml.Attributes.get?]
  simp [Xml.Node.branch, Xml.Attributes.put, Xml.putSorted]

end PanOs

/-- **What is implied is sound just where no names meet.**  The section of addresses holds one entry
under each name that refers to an address or a network that is spelled out, and that entry is its
own, just if no address is declared under such a name and no two networks are spelled out under the
same; networks with masks of the table never are.  The sections of services hold one entry under the
name of each port that is spelled out, and that entry is its own, just if no service is declared
under that name. -/
theorem impliedEntries_iff (origin : Dialect) (c : Config) :
    (FortiOs.listing "firewall address" (FortiOs.addressEntries c) <:+: FortiOs.writeLines origin c
      ∧ ((∀ s ∈ FortiOs.spelledAddresses c,
            (FortiOs.addressEntries c).filter (·.name == .quoted s.1)
              = [FortiOs.impliedAddressEntry s.1 s.2])
          ↔ ∀ s ∈ FortiOs.spelledAddresses c, (∀ o ∈ c.addressObjects, o.name ≠ s.1)
              ∧ ∀ t ∈ FortiOs.spelledAddresses c, t.1 = s.1 → t.2 = s.2)
      ∧ ∀ s ∈ FortiOs.spelledAddresses c, ∀ t ∈ FortiOs.spelledAddresses c,
          s.2.mask ∈ Netmask.table → t.2.mask ∈ Netmask.table → t.1 = s.1 → t.2 = s.2)
      ∧ (FortiOs.listing "firewall service custom" (FortiOs.serviceEntries c)
            <:+: FortiOs.writeLines origin c
        ∧ ∀ o ∈ c.spelledServices FortiOs.predefinedService,
            (FortiOs.serviceEntries c).filter (·.name == .quoted o.name)
                = [FortiOs.impliedServiceEntry o]
              ↔ ∀ d ∈ c.services, d.name ≠ o.name)
      ∧ (PanOs.branch? "service" (PanOs.serviceEntries c) <:+: PanOs.systemElements c
        ∧ ∀ o ∈ c.spelledServices PanOs.predefinedService,
            (PanOs.serviceEntries c).filter (·.attribute? "name" == some o.name)
                = [PanOs.entry o.name [PanOs.protocolElement o.protocol (o.port.getD "")]]
              ↔ ∀ d ∈ c.services.filter PanOs.hasPlace, d.name ≠ o.name) := by
  obtain ⟨haddresses, hservices⟩ := FortiOs.listing_infix_writeLines origin c
  refine ⟨⟨haddresses, FortiOs.addressEntries_sound_iff c, ?_⟩, ⟨hservices, fun o ho => ?_⟩,
    ⟨PanOs.branch?_infix_systemElements c, fun o ho => ?_⟩⟩
  · intro s hs t ht hms hmt hname
    obtain ⟨e, -, he, hes⟩ := FortiOs.mem_spelledAddresses_iff.1 hs
    obtain ⟨e', -, he', hes'⟩ := FortiOs.mem_spelledAddresses_iff.1 ht
    exact FortiOs.eq_of_addressName_eq he' he hmt hms (hes'.trans (hname.trans hes.symm))
  · exact Config.filter_declared_append_literalServices_iff ho
      (fun d => FortiOs.quoted_beq_quoted d.name o.name)
      fun o' => FortiOs.quoted_beq_quoted o'.name o.name
  · have hname : ∀ (name : String) (children : List Xml.Node),
        ((PanOs.entry name children).attribute? "name" == some o.name) = (name == o.name) := by
      intro name children
      rw [PanOs.attribute?_entry]
      rfl
    exact Config.filter_declared_append_literalServices_iff ho
      (fun d => hname d.name _) fun o' => hname o'.name _

/-- A rule from an address to a network, with a port, beside an address that is declared under a name
of its own. -/
def literalConfig : Config where
  addressObjects := [{ name := "web", value := "10.0.0.5" }]
  addressGroups := [{ name := "all-web", members := ["web", "10.0.0.5", "10.0.0.5/32"] }]
  policies :=
    [{ action := .permit, source := ["10.0.0.5"], destination := ["10.1.0.0 255.255.0.0"],
       service := ["tcp/8443", "tcp/443"] }]

/-- The same address, spelled in three ways, has one entry beside the one that is declared. -/
theorem impliedEntries_iff_literalConfig :
    (FortiOs.addressEntries literalConfig).filter (·.name == .quoted "10.0.0.5/32")
        = [FortiOs.impliedAddressEntry "10.0.0.5/32" ⟨"10.0.0.5", "255.255.255.255"⟩]
      ∧ (FortiOs.serviceEntries literalConfig).filter (·.name == .quoted "tcp-8443")
        = [FortiOs.impliedServiceEntry { name := "tcp-8443", protocol := "tcp", port := some "8443" }]
      ∧ (PanOs.serviceEntries literalConfig).filter (·.attribute? "name" == some "tcp-8443")
        = [PanOs.entry "tcp-8443" [PanOs.protocolElement "tcp" "8443"]] := by
  obtain ⟨⟨-, haddresses, -⟩, ⟨-, hservices⟩, -, hplaced⟩ :=
    impliedEntries_iff .ciscoAsa literalConfig
  refine ⟨haddresses.2 ?_ ("10.0.0.5/32", ⟨"10.0.0.5", "255.255.255.255"⟩) ?_,
    (hservices { name := "tcp-8443", protocol := "tcp", port := some "8443" } ?_).2 ?_,
    (hplaced { name := "tcp-8443", protocol := "tcp", port := some "8443" } ?_).2 ?_⟩
  all_goals decide +kernel

/-- An address that is declared under the name that its own text is referred to by, as it is written
where a rule spells it out, and another one under the name of a second network. -/
def declaredConfig : Config where
  addressObjects :=
    [{ name := "10.0.0.5/32", value := "10.0.0.5" }, { name := "10.0.0.6/32", value := "10.9.9.9" }]
  policies := [{ action := .permit, source := ["10.0.0.5/32", "10.0.0.6/32"] }]

/-- **What is declared and what is spelled out meet** under one name: there are two entries of it,
and they need not say the same. -/
theorem not_sound_declaredConfig :
    (declaredConfig.addressObjects.map (·.name)).Nodup
      ∧ (declaredConfig.services.map (·.name)).Nodup
      ∧ ("10.0.0.6/32", ⟨"10.0.0.6", "255.255.255.255"⟩) ∈ FortiOs.spelledAddresses declaredConfig
      ∧ (FortiOs.addressEntries declaredConfig).map (fun e => (e.name, e.settings))
        = [(.quoted "10.0.0.5/32", [FortiOs.networkSetting "subnet" ⟨"10.0.0.5", Netmask.single⟩]),
           (.quoted "10.0.0.6/32", [FortiOs.networkSetting "subnet" ⟨"10.9.9.9", Netmask.single⟩]),
           (.quoted "10.0.0.5/32", [FortiOs.networkSetting "subnet" ⟨"10.0.0.5", Netmask.single⟩]),
           (.quoted "10.0.0.6/32", [FortiOs.networkSetting "subnet" ⟨"10.0.0.6", Netmask.single⟩])] := by
  decide +kernel

end FirewallConfig
