import FirewallConfig.Proofs.FortiOs.Rules
import FirewallConfig.Proofs.Service.Traffic

/-!
# Proofs/FortiOs/ServiceList — what the names in the service list of a rule denote

A name denotes the service that is declared under it, and a predefined one only where none is
(`nameTraffic`).  The reader looks at the predefined names first (`readTraffic`), and of `ALL` it
keeps nothing: a rule means what its names denote where no declared name is a predefined one or
spells a service out, and where `ALL` stands alone (`keepsServices_iff`).
-/

namespace FirewallConfig.FortiOs

open Text

/-- The services that FortiOS has without a declaration. -/
def predefinedNames : List (String × ServiceRef) :=
  [("ALL", .any), ("ALL_TCP", .protocol "tcp"), ("ALL_UDP", .protocol "udp"),
   ("ALL_ICMP", .protocol "icmp"), ("PING", .protocol "icmp"), ("HTTP", .port "tcp" "80"),
   ("HTTPS", .port "tcp" "443"), ("SSH", .port "tcp" "22"), ("TELNET", .port "tcp" "23"),
   ("FTP", .port "tcp" "21"), ("SMTP", .port "tcp" "25"), ("DNS", .port "udp" "53"),
   ("NTP", .port "udp" "123"), ("SNMP", .port "udp" "161"), ("RDP", .port "tcp" "3389"),
   ("LDAP", .port "tcp" "389")]

/-- What an undeclared name means: a predefined service, in any case, or what it spells out. -/
def predefinedRef (name : String) : ServiceRef :=
  (predefinedNames.lookup (upper name)).getD (.classify name)

/-- The reader writes out what a predefined service means, and of everything it leaves nothing. -/
theorem serviceText_eq (name : String) : serviceText name
    = match predefinedNames.lookup (upper name) with
      | some .any => none
      | some ref => some ref.text
      | none => some name := by
  unfold serviceText
  split
  case h_17 =>
    have hlookup : predefinedNames.lookup (upper name) = none := by
      rw [List.lookup_eq_none_iff]
      simp_all [predefinedNames]
    rw [hlookup]
  all_goals
    next h =>
      rw [h]
      rfl

/-- A predefined service in another case. -/
example : serviceText "Https" = some "tcp/443" := by decide +kernel

/-- Only the name of everything is left out of a list. -/
theorem serviceText_eq_none_iff {name : String} : serviceText name = none ↔ upper name = "ALL" := by
  unfold serviceText
  split <;> simp_all

section Names

variable (c : Config) (name : String)

/-- What a name denotes as it is read. -/
def readTraffic : Set Traffic :=
  ((serviceText name).map fun s => (ServiceRef.classify s).traffic c).getD Set.univ

/-- What a name denotes: the service that is declared under it, and a predefined one only else. -/
def nameTraffic : Set Traffic :=
  ((c.service? name).map ServiceObject.traffic).getD ((predefinedRef name).traffic c)

variable {c name}

/-- The texts of the predefined services are read as these services. -/
theorem readTraffic_eq : readTraffic c name = (predefinedRef name).traffic c := by
  have hrows : ∀ row ∈ predefinedNames, row.2 ≠ .any → ServiceRef.classify row.2.text = row.2 := by
    decide +kernel
  rw [readTraffic, predefinedRef, serviceText_eq]
  cases h : predefinedNames.lookup (upper name) with
  | none => rfl
  | some ref =>
    obtain ⟨before, after, hrow, -⟩ := List.lookup_eq_some_iff.1 h
    have hread := hrows (upper name, ref) (by rw [hrow]; simp)
    cases ref with
    | any => rfl
    | protocol _ | port _ _ | named _ =>
      rw [Option.map_some, Option.getD_some, Option.getD_some, hread ServiceRef.noConfusion]

theorem nameTraffic_of_undeclared (h : c.service? name = none) :
    readTraffic c name = nameTraffic c name := by
  rw [nameTraffic, h, readTraffic_eq]
  rfl

/-- A declared name is read as it is declared if it is neither predefined nor spelled out. -/
theorem nameTraffic_of_plain (htext : serviceText name = some name)
    (hname : ServiceRef.classify name = .named name) :
    readTraffic c name = nameTraffic c name := by
  cases h : c.service? name with
  | none => exact nameTraffic_of_undeclared h
  | some o =>
    rw [readTraffic, nameTraffic, htext, h]
    simp [hname, ServiceRef.traffic, h]

theorem readTraffic_of_all (h : upper name = "ALL") : readTraffic c name = Set.univ := by
  rw [readTraffic, serviceText_eq_none_iff.2 h]
  rfl

theorem mem_readTraffic_iff (h : upper name ≠ "ALL") {x : Traffic} : x ∈ readTraffic c name
    ↔ ∃ s, serviceText name = some s ∧ x ∈ (ServiceRef.classify s).traffic c := by
  obtain ⟨s, hs⟩ := Option.ne_none_iff_exists'.1 (mt serviceText_eq_none_iff.1 h)
  rw [readTraffic, hs]
  simp

end Names

/-! ## Lists of names -/

section Lists

variable (c : Config) (e : Entry String)

/-- The rule of an entry means what the names of its service list denote. -/
def KeepsServices : Prop :=
  c.ruleTraffic (readPolicy e) = ⋃ name ∈ valuesOf e.settings "service", nameTraffic c name

/-- What the names of an entry's service list other than `ALL` denote. -/
def restTraffic : Set Traffic :=
  ⋃ name ∈ valuesOf e.settings "service", ⋃ (_ : upper name ≠ "ALL"), nameTraffic c name

variable {c e}

theorem service_readPolicy_eq_nil_iff : (readPolicy e).service = []
    ↔ ∀ name ∈ valuesOf e.settings "service", upper name = "ALL" := by
  simp only [← serviceText_eq_none_iff]
  exact List.filterMap_eq_nil_iff

/-- **What the rule of an entry means**: everything if all of its names are `ALL`, and else what is
read of the other ones. -/
theorem ruleTraffic_readPolicy : c.ruleTraffic (readPolicy e)
    = if ∀ name ∈ valuesOf e.settings "service", upper name = "ALL" then Set.univ
      else ⋃ name ∈ valuesOf e.settings "service", ⋃ (_ : upper name ≠ "ALL"),
        readTraffic c name := by
  split
  · next hall => exact c.ruleTraffic_of_eq_nil (service_readPolicy_eq_nil_iff.2 hall)
  · next hall =>
    rw [c.ruleTraffic_of_ne_nil (mt service_readPolicy_eq_nil_iff.1 hall)]
    ext x
    simp only [Set.mem_iUnion, readPolicy, List.mem_filterMap, exists_prop]
    constructor
    · rintro ⟨s, ⟨name, hname, hs⟩, hx⟩
      have hnot : upper name ≠ "ALL" := fun h => by
        rw [serviceText_eq_none_iff.2 h] at hs
        cases hs
      exact ⟨name, hname, hnot, (mem_readTraffic_iff hnot).2 ⟨s, hs, hx⟩⟩
    · rintro ⟨name, hname, hnot, hx⟩
      obtain ⟨s, hs, hx⟩ := (mem_readTraffic_iff hnot).1 hx
      exact ⟨s, ⟨name, hname, hs⟩, hx⟩

/-- A name that stands alone keeps its meaning just if it is read as what it denotes. -/
theorem keepsServices_singleton_iff {name : String} (h : valuesOf e.settings "service" = [name]) :
    KeepsServices c e ↔ readTraffic c name = nameTraffic c name := by
  have hread : c.ruleTraffic (readPolicy e) = readTraffic c name := by
    rw [ruleTraffic_readPolicy, h]
    by_cases hall : upper name = "ALL"
    · simp [hall, readTraffic_of_all hall]
    · simp [hall]
  rw [KeepsServices, hread, h]
  simp

/-- A list of names that are read as what they denote keeps its meaning just if `ALL` stands in it
alone or not at all, unless the others denote everything without it. -/
theorem keepsServices_list_iff (hne : valuesOf e.settings "service" ≠ [])
    (hread : ∀ name ∈ valuesOf e.settings "service", readTraffic c name = nameTraffic c name) :
    KeepsServices c e ↔ (∀ name ∈ valuesOf e.settings "service", upper name ≠ "ALL")
      ∨ (∀ name ∈ valuesOf e.settings "service", upper name = "ALL")
      ∨ restTraffic c e = Set.univ := by
  have hrest : (⋃ name ∈ valuesOf e.settings "service", ⋃ (_ : upper name ≠ "ALL"),
      readTraffic c name) = restTraffic c e :=
    Set.iUnion₂_congr fun name hname => Set.iUnion_congr fun _ => hread name hname
  -- `ALL` denotes everything, and so does every list that it stands in.
  have hunion {name : String} (hname : name ∈ valuesOf e.settings "service")
      (hall : upper name = "ALL") :
      ⋃ name ∈ valuesOf e.settings "service", nameTraffic c name = Set.univ := by
    refine Set.eq_univ_of_univ_subset ?_
    rw [← readTraffic_of_all (c := c) hall, hread name hname]
    exact Set.subset_biUnion_of_mem hname
  rw [KeepsServices, ruleTraffic_readPolicy, hrest]
  by_cases hall : ∀ name ∈ valuesOf e.settings "service", upper name = "ALL"
  · obtain ⟨name, hname⟩ := List.exists_mem_of_ne_nil _ hne
    rw [if_pos hall, hunion hname (hall name hname)]
    exact iff_of_true rfl (.inr (.inl hall))
  rw [if_neg hall]
  by_cases hnone : ∀ name ∈ valuesOf e.settings "service", upper name ≠ "ALL"
  · refine iff_of_true ?_ (.inl hnone)
    exact Set.iUnion₂_congr fun name hname => by simp [hnone name hname]
  · obtain ⟨name, hname, hupper⟩ : ∃ name ∈ valuesOf e.settings "service", upper name = "ALL" := by
      simpa using hnone
    rw [hunion hname hupper]
    simp only [hnone, hall, false_or]

end Lists

/-! ## The rules of a text -/

/-- **The rules of a text mean what the names of their service lists denote, exactly as follows**.
A list without names means everything, and one name alone means what it is read as.  Names that are
not declared are read as what they denote, and so are declared ones that are neither predefined nor
spell a service out; a list of such names may not hold `ALL` beside others. -/
theorem keepsServices_iff {text : String} {e : Entry String}
    (he : e ∈ entriesAt "firewall policy" (readForest text)) :
    readPolicy e ∈ (read text).policies
      ∧ (valuesOf e.settings "service" = [] → (read text).ruleTraffic (readPolicy e) = Set.univ)
      ∧ (∀ name, valuesOf e.settings "service" = [name] →
        (KeepsServices (read text) e
          ↔ readTraffic (read text) name = nameTraffic (read text) name))
      ∧ (∀ name, (read text).service? name = none
          ∨ serviceText name = some name ∧ ServiceRef.classify name = .named name →
        readTraffic (read text) name = nameTraffic (read text) name)
      ∧ (valuesOf e.settings "service" ≠ [] →
        (∀ name ∈ valuesOf e.settings "service",
          readTraffic (read text) name = nameTraffic (read text) name) →
        (KeepsServices (read text) e
          ↔ (∀ name ∈ valuesOf e.settings "service", upper name ≠ "ALL")
            ∨ (∀ name ∈ valuesOf e.settings "service", upper name = "ALL")
            ∨ restTraffic (read text) e = Set.univ)) := by
  refine ⟨?_, fun hnil => ?_, fun name h => keepsServices_singleton_iff h, ?_,
    keepsServices_list_iff⟩
  · rw [policies_read]
    exact List.mem_map_of_mem he
  · refine (read text).ruleTraffic_of_eq_nil (service_readPolicy_eq_nil_iff.2 ?_)
    rw [hnil]
    exact List.forall_mem_nil _
  · rintro name (h | ⟨htext, hname⟩)
    · exact nameTraffic_of_undeclared h
    · exact nameTraffic_of_plain htext hname

/-- A declared service beside a predefined one. -/
def mixedText : String :=
  "config firewall service custom\nedit web\nset tcp-portrange 8000-8080\nend\n"
    ++ "config firewall policy\nedit 1\nset service web DNS\n"

/-- Names that are read as what they denote keep their meaning side by side. -/
theorem keepsServices_mixedText : ∃ e ∈ entriesAt "firewall policy" (readForest mixedText),
    valuesOf e.settings "service" = ["web", "DNS"] ∧ KeepsServices (read mixedText) e := by
  have htext : mixedText = Text.unlines ["config firewall service custom", "edit web",
      "set tcp-portrange 8000-8080", "end", "config firewall policy", "edit 1",
      "set service web DNS"] := by
    decide +kernel
  have hread : (ofForest (readForest mixedText)).service? "DNS" = none
      ∧ (entriesAt "firewall policy" (readForest mixedText)).map (·.settings)
        = [[⟨"service", ["web", "DNS"]⟩]] := by
    rw [htext, readForest_unlines_eq (by decide +kernel)]
    decide +kernel
  obtain ⟨hundeclared, hentries⟩ := hread
  obtain ⟨e, he, hsettings⟩ := List.mem_map.1 (hentries ▸ List.mem_singleton_self _)
  have hnames : valuesOf e.settings "service" = ["web", "DNS"] := by rw [hsettings]; rfl
  obtain ⟨-, -, -, hread, hlist⟩ := keepsServices_iff he
  refine ⟨e, he, hnames, (hlist (by rw [hnames]; decide) ?_).2 (.inl ?_)⟩
  · rw [hnames, List.forall_mem_cons, List.forall_mem_singleton]
    exact ⟨hread "web" (.inr ⟨by decide +kernel, by decide +kernel⟩),
      hread "DNS" (.inl hundeclared)⟩
  · rw [hnames]
    decide

/-- A service that is declared under a predefined name, and `ALL` beside another name. -/
def shadowText : String :=
  "config firewall service custom\nedit HTTP\nset tcp-portrange 8080\nend\n"
    ++ "config firewall policy\nedit 1\nset service HTTP\nnext\nedit 2\nset service ALL SSH\n"

/-- **A rule may lose its meaning**: the first one is read as port 80, and the second one as `SSH`
alone. -/
theorem not_keepsServices_shadowText :
    (entriesAt "firewall policy" (readForest shadowText)).map (fun e => (e.name, e.settings))
        = [("1", [⟨"service", ["HTTP"]⟩]), ("2", [⟨"service", ["ALL", "SSH"]⟩])]
      ∧ ∀ e ∈ entriesAt "firewall policy" (readForest shadowText),
        ¬ KeepsServices (read shadowText) e := by
  have htext : shadowText = Text.unlines ["config firewall service custom", "edit HTTP",
      "set tcp-portrange 8080", "end", "config firewall policy", "edit 1", "set service HTTP",
      "next", "edit 2", "set service ALL SSH"] := by
    decide +kernel
  have hread :
      (entriesAt "firewall policy" (readForest shadowText)).map (fun e => (e.name, e.settings))
        = [("1", [⟨"service", ["HTTP"]⟩]), ("2", [⟨"service", ["ALL", "SSH"]⟩])]
      ∧ (ofForest (readForest shadowText)).services
        = [{ name := "HTTP", protocol := "tcp", port := some "8080" }] := by
    rw [htext, readForest_unlines_eq (by decide +kernel)]
    decide +kernel
  obtain ⟨hentries, hservices⟩ := hread
  rw [← read] at hservices
  generalize read shadowText = c at hservices
  have hdeclared (name : String) : c.service? name = if "HTTP" = name
      then some { name := "HTTP", protocol := "tcp", port := some "8080" } else none := by
    rw [Config.service?, hservices, List.find?_singleton]
    simp
  refine ⟨hentries, fun e he => ?_⟩
  have hsettings := List.mem_map_of_mem (f := fun e => (e.name, e.settings)) he
  rw [hentries, List.mem_cons, List.mem_singleton] at hsettings
  rcases hsettings with h | h
  · have hnames : valuesOf e.settings "service" = ["HTTP"] := by rw [(Prod.mk.inj h).2]; rfl
    have href : predefinedRef "HTTP" = .port "tcp" "80" := by decide +kernel
    rw [keepsServices_singleton_iff hnames, readTraffic_eq, href, nameTraffic, hdeclared]
    intro heq
    have hmem : (⟨"tcp", 8080⟩ : Traffic) ∈ portTraffic "tcp" "8080" := by decide +kernel
    have hnot : (⟨"tcp", 8080⟩ : Traffic) ∉ portTraffic "tcp" "80" := by decide +kernel
    exact hnot ((Set.ext_iff.1 heq _).2 hmem)
  · have hnames : valuesOf e.settings "service" = ["ALL", "SSH"] := by rw [(Prod.mk.inj h).2]; rfl
    have hread (name : String) (hne : "HTTP" ≠ name) : readTraffic c name = nameTraffic c name :=
      nameTraffic_of_undeclared (by rw [hdeclared, if_neg hne])
    have hrest : restTraffic c e = portTraffic "tcp" "22" := by
      have hall : upper "ALL" = "ALL" := by decide +kernel
      have hssh : upper "SSH" ≠ "ALL" := by decide +kernel
      have href : predefinedRef "SSH" = .port "tcp" "22" := by decide +kernel
      rw [restTraffic, hnames]
      simp [hall, hssh, ← hread, readTraffic_eq, href, ServiceRef.traffic]
    rw [keepsServices_list_iff (by rw [hnames]; decide) (by simp [hnames, hread]), hrest, hnames]
    rintro (hnone | hall | huniv)
    · exact hnone "ALL" (by decide +kernel) (by decide +kernel)
    · exact absurd (hall "SSH" (by decide +kernel)) (by decide +kernel)
    · exact absurd (Set.eq_univ_iff_forall.1 huniv ⟨"udp", 53⟩) (by decide +kernel)

end FirewallConfig.FortiOs
