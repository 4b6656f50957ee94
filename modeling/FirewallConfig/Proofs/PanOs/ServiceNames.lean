import FirewallConfig.FortiOs.Reader
import FirewallConfig.Proofs.Config.Implied
import FirewallConfig.Proofs.PanOs.Rules

/-!
# Proofs/PanOs/ServiceNames — the services that security rules name, and the entries of services

A rule names a service that the configuration declares by its own name, whatever its protocol is;
the section of services holds the declared ones of three protocols only.  Main statement: every
member of a list of services in the document is predefined or the name of an entry just if no rule
names a declared service that has no place there (`servicesResolve_rootElement_iff`).
-/

namespace FirewallConfig

/-- The text of a rule's service is everything, a protocol, a port, a declared service or one that
is known beforehand. -/
def Config.knowsService (c : Config) (service : String) : Bool :=
  match ServiceRef.classify service with
  | .named name => (c.service? name).isSome || (wellKnownService name).isSome
  | .any | .protocol _ | .port .. => true

namespace PanOs

open Xml (Node)

/-! ## What a document says -/

/-- The entries of the elements that a path of tags leads to. -/
def entriesBelow (path : List String) (root : Node) : List Node :=
  (root.find? path).toList.flatMap (·.childrenOf "entry")

/-- The security rules of a document. -/
def securityRules : Node → List Node :=
  entriesBelow ["devices", "entry", "vsys", "entry", "rulebase", "security", "rules"]

/-- The names of the services of a document. -/
def serviceNames (root : Node) : List String :=
  (entriesBelow ["devices", "entry", "vsys", "entry", "service"] root).filterMap
    (·.attribute? "name")

/-- The members of the lists of services in a rule. -/
def serviceMembers (rule : Node) : List String :=
  ((rule.childrenOf "service").flatMap (·.childrenOf "member")).filterMap (·.text)

/-- The members that need no entry. -/
def predefinedMembers : List String := ["any", "service-http", "service-https"]

/-- Every service that a rule of the document names is predefined, or has an entry. -/
def ServicesResolve (root : Node) : Prop :=
  ∀ rule ∈ securityRules root, ∀ name ∈ serviceMembers rule,
    name ∈ predefinedMembers ∨ name ∈ serviceNames root

instance (root : Node) : Decidable (ServicesResolve root) :=
  inferInstanceAs (Decidable (∀ rule ∈ securityRules root, ∀ name ∈ serviceMembers rule,
    name ∈ predefinedMembers ∨ name ∈ serviceNames root))

/-! ## The parts of a document -/

@[simp] theorem tag_branch (tag : String) (children : List Node) :
    (Node.branch tag children).tag = tag := rfl

@[simp] theorem children_branch (tag : String) (children : List Node) :
    (Node.branch tag children).children = children := rfl

@[simp] theorem tag_entry (name : String) (children : List Node) :
    (entry name children).tag = "entry" := rfl

@[simp] theorem children_entry (name : String) (children : List Node) :
    (entry name children).children = children := rfl

@[simp] theorem branch?_eq_nil {tag : String} {children : List Node} :
    branch? tag children = [] ↔ children = [] := by
  by_cases h : children = [] <;> simp [branch?, h]

/-- The element of a tag among some that may be left out. -/
theorem find?_branch? (t tag : String) (children : List Node) :
    (branch? tag children).find? (·.tag == t)
      = if tag = t ∧ children ≠ [] then some (.branch tag children) else none := by
  rw [branch?]
  by_cases hchildren : children = []
  · simp [hchildren]
  · by_cases htag : tag = t <;> simp [hchildren, htag]

theorem children_rootElement (c : Config) : (rootElement c).children
    = branch? "mgt-config" (branch? "users" (c.users.map userEntry))
      ++ branch? "shared" (sharedElements c)
      ++ [.branch "devices" [entry "localhost.localdomain"
        (deviceElement c :: branch? "network" (networkElements c)
          ++ [.branch "vsys" [entry "vsys1" (systemElements c)]])]] := rfl

/-- The virtual system is where its path leads to. -/
theorem find?_rootElement (c : Config) (path : List String) :
    (rootElement c).find? ("devices" :: "entry" :: "vsys" :: "entry" :: path)
      = (entry "vsys1" (systemElements c)).find? path := by
  have hdevice : (deviceElement c).tag = "deviceconfig" := rfl
  simp [Node.find?, Node.child?, children_rootElement, List.find?_append, find?_branch?, hdevice]

/-- The section of services holds their entries, if there are any. -/
theorem find?_service_systemElements (c : Config) :
    (entry "vsys1" (systemElements c)).find? ["service"]
      = if serviceEntries c = [] then none else some (.branch "service" (serviceEntries c)) := by
  simp [Node.find?, Node.child?, systemElements, List.find?_append, find?_branch?]

/-- The rulebase holds the security rules, if there are any. -/
theorem find?_security_systemElements (c : Config) :
    (entry "vsys1" (systemElements c)).find? ["rulebase", "security", "rules"]
      = if securityEntries c = [] then none else some (.branch "rules" (securityEntries c)) := by
  by_cases hsecurity : securityEntries c = []
  · by_cases hnat : natEntries c = []
      <;> simp [Node.find?, Node.child?, systemElements, List.find?_append, find?_branch?,
        hsecurity, hnat]
  · simp [Node.find?, Node.child?, systemElements, List.find?_append, find?_branch?, hsecurity]

theorem childrenOf_entry_of_forall {ns : List Node} (h : ∀ n ∈ ns, n.tag = "entry") (tag : String) :
    (Node.branch tag ns).childrenOf "entry" = ns :=
  List.filter_eq_self.2 fun n hn => beq_iff_eq.2 (h n hn)

/-- **The entries of a part of the virtual system** are those that it is written with. -/
theorem entriesBelow_rootElement {c : Config} {path : List String} {tag : String}
    {entries : List Node}
    (hpath : (entry "vsys1" (systemElements c)).find? path
      = if entries = [] then none else some (.branch tag entries))
    (htag : ∀ n ∈ entries, n.tag = "entry") :
    entriesBelow ("devices" :: "entry" :: "vsys" :: "entry" :: path) (rootElement c) = entries := by
  rw [entriesBelow, find?_rootElement, hpath]
  split
  · next hnil => exact hnil.symm
  · simp [childrenOf_entry_of_forall htag]

/-- **The security rules of a written document** are the entries of the rules. -/
theorem securityRules_rootElement (c : Config) :
    securityRules (rootElement c) = securityEntries c :=
  entriesBelow_rootElement (find?_security_systemElements c) (List.forall_mem_map.2 fun _ _ => rfl)

/-- **The services of a written document** are those that are written. -/
theorem serviceNames_rootElement (c : Config) :
    serviceNames (rootElement c)
      = (c.services.filter hasPlace).map (·.name)
        ++ (c.literalServices predefinedService).map (·.name) := by
  have hentries := entriesBelow_rootElement (find?_service_systemElements c)
    (List.forall_mem_append.2
      ⟨List.forall_mem_map.2 fun _ _ => rfl, List.forall_mem_map.2 fun _ _ => rfl⟩)
  rw [serviceNames, hentries]
  simp [serviceEntries, serviceEntry, attribute?_entry, List.filterMap_map, Function.comp_def]

/-- The members of the lists of a tag in a rule. -/
def membersOf (tag : String) (rule : Node) : List String :=
  ((rule.childrenOf tag).flatMap (·.childrenOf "member")).filterMap (·.text)

theorem tag_of_mem_ruleLeaves {p : Policy} :
    ∀ n ∈ ruleLeaves p, n.tag ∈ ["action", "log-end", "disabled", "description"] := by
  rw [ruleLeaves]
  cases p.log <;> cases p.enabled <;> cases p.description <;> simp [leaf?, Node.leaf]

/-- **The members of a list in a rule** are those that the list is written with. -/
theorem membersOf_securityEntry (c : Config) (rules : List Policy) (p : Policy) (position : Nat)
    {tag : String} {members : List String} (h : (tag, members) ∈ ruleLists c p) :
    membersOf tag (securityEntry c rules p position) = members := by
  have hlists : (memberLists (ruleLists c p)).filter (·.tag == tag) = [memberList tag members] := by
    have hkeys := filter_eq_singleton_of_nodup Prod.fst (areListTags_ruleLists c p).2 h
    rw [memberLists, List.filter_map]
    exact congrArg (List.map fun l => memberList l.1 l.2) hkeys
  have hleaves : (ruleLeaves p).filter (·.tag == tag) = [] := by
    have hapart : ∀ t ∈ ["from", "to", "source", "destination", "service", "application"],
        t ∉ ["action", "log-end", "disabled", "description"] := by decide
    have htag := hapart tag (List.mem_map_of_mem (f := Prod.fst) h)
    refine List.filter_eq_nil_iff.2 fun n hn heq => htag ?_
    exact beq_iff_eq.1 heq ▸ tag_of_mem_ruleLeaves n hn
  have hmembers : ((memberList tag members).childrenOf "member").filterMap (·.text) = members := by
    rw [memberList, Node.childrenOf, children_branch, List.filter_map, List.filterMap_map]
    simp [Function.comp_def, Node.leaf]
  rw [membersOf, securityEntry_eq, Node.childrenOf, children_entry, List.filter_append, hlists,
    hleaves, List.append_nil, List.flatMap_singleton, hmembers]

/-- The members of the list of services in a rule are the services that it names. -/
theorem serviceMembers_securityEntry (c : Config) (rules : List Policy) (p : Policy)
    (position : Nat) : serviceMembers (securityEntry c rules p position) = ruleServices c p :=
  membersOf_securityEntry c rules p position (by simp [ruleLists])

/-! ## Which names resolve -/

section Resolve

variable {c : Config}

/-- The name of what is spelled out in a rule is that of an entry. -/
theorem mem_map_name_literalServices_iff {predefined : String → String → Option String}
    {name : String} : name ∈ (c.literalServices predefined).map (·.name)
      ↔ ∃ o ∈ c.spelledServices predefined, o.name = name := by
  rw [List.mem_map]
  constructor
  · rintro ⟨o, ho, hname⟩
    exact ⟨o, mem_of_mem_eraseDupsBy ho, hname⟩
  · rintro ⟨o, ho, hname⟩
    have hfirst := filter_eraseDupsBy (·.name) name (c.spelledServices predefined)
    obtain ⟨o', ho'⟩ : ∃ o', (c.spelledServices predefined).find? (·.name == name) = some o' :=
      Option.isSome_iff_exists.1 (List.find?_isSome.2 ⟨o, ho, beq_iff_eq.2 hname⟩)
    have hmem : o' ∈ (c.literalServices predefined).filter (·.name == name) := by
      rw [Config.literalServices]
      refine hfirst ▸ ?_
      rw [ho']
      exact List.mem_singleton_self o'
    obtain ⟨hmem, hname'⟩ := List.mem_filter.1 hmem
    exact ⟨o', hmem, beq_iff_eq.1 hname'⟩

/-- What a rule's service means is predefined, has an entry, or is a name that stays as it is. -/
theorem serviceName_mem {p : Policy} (hp : p ∈ c.effectivePolicies) {s : String}
    (hs : s ∈ p.services) : (∃ name, c.resolveService s = .named name)
      ∨ serviceName (c.resolveService s) ∈ predefinedMembers
      ∨ serviceName (c.resolveService s) ∈ (c.literalServices predefinedService).map (·.name) := by
  cases hresolve : c.resolveService s with
  | named name => exact .inl ⟨name, rfl⟩
  | any => exact .inr (.inl (by decide))
  | protocol name => exact .inr (.inl (by simp [serviceName, predefinedMembers, anyText]))
  | port protocol ports =>
    refine .inr ?_
    rw [serviceName]
    cases hpredefined : predefinedService protocol ports with
    | some name =>
      left
      unfold predefinedService at hpredefined
      split at hpredefined <;> cases hpredefined <;> decide
    | none =>
      refine .inr (mem_map_name_literalServices_iff.2 ⟨_, Config.mem_spelledServices_iff.2
        ⟨p, hp, s, hs, protocol, ports, hresolve, hpredefined, rfl⟩, rfl⟩)

/-- A name that a rule keeps is declared, where the rule names nothing unknown. -/
theorem resolveService_eq_named_iff {s name : String} (hknown : c.knowsService s = true) :
    c.resolveService s = .named name
      ↔ ServiceRef.classify s = .named name ∧ (c.service? name).isSome = true := by
  have hwellKnown (n : String) : wellKnownService n ≠ some (.named name) := by
    unfold wellKnownService
    split <;> simp
  rw [Config.knowsService] at hknown
  rw [Config.resolveService]
  cases hclassify : ServiceRef.classify s with
  | named n =>
    rw [hclassify] at hknown
    dsimp only at hknown ⊢
    by_cases hdeclared : (c.service? n).isSome = true
    · rw [if_pos hdeclared, ServiceRef.named.injEq]
      exact ⟨fun hn => ⟨hn, hn ▸ hdeclared⟩, And.left⟩
    · obtain ⟨ref, href⟩ := Option.isSome_iff_exists.1
        ((Bool.or_eq_true_iff.1 hknown).resolve_left hdeclared)
      rw [if_neg hdeclared, href, Option.getD_some, ServiceRef.named.injEq]
      refine iff_of_false (fun heq => hwellKnown n (heq ▸ href)) ?_
      rintro ⟨rfl, h⟩
      exact hdeclared h
  | any => simp
  | protocol n => simp
  | port n ports => simp

/-- The services that the rules of a document name are the ones they mean, each by its name. -/
theorem servicesResolve_iff (c : Config) : ServicesResolve (rootElement c)
    ↔ ∀ p ∈ c.effectivePolicies, ∀ s ∈ p.services,
      serviceName (c.resolveService s) ∈ predefinedMembers
        ∨ serviceName (c.resolveService s) ∈ serviceNames (rootElement c) := by
  rw [ServicesResolve, securityRules_rootElement]
  constructor
  · intro h p hp s hs
    obtain ⟨position, hposition⟩ := List.getElem?_of_mem hp
    have hrule : securityEntry c c.effectivePolicies p position ∈ securityEntries c :=
      List.mem_map.2 ⟨(p, position), List.mem_zipIdx_iff_getElem?.2 hposition, rfl⟩
    refine h _ hrule _ ?_
    rw [serviceMembers_securityEntry, ruleServices, List.mem_eraseDups]
    exact List.mem_map.2 ⟨s, hs, rfl⟩
  · intro h rule hrule name hname
    obtain ⟨⟨p, position⟩, hp, rfl⟩ := List.mem_map.1 hrule
    rw [serviceMembers_securityEntry, ruleServices, List.mem_eraseDups] at hname
    obtain ⟨s, hs, rfl⟩ := List.mem_map.1 hname
    exact h p (List.mem_of_getElem? (List.mem_zipIdx_iff_getElem?.1 hp)) s hs

end Resolve

/-- **The services that security rules name resolve just if the declared ones among them have a
place.**  Where rules name declared services, known ones and what they spell out only, a member of a
list of services in the document is predefined or the name of an entry, unless it is a declared
service of a protocol that has no place there, and whose name nothing else has. -/
theorem servicesResolve_rootElement_iff (c : Config)
    (hknown : ∀ p ∈ c.effectivePolicies, ∀ s ∈ p.services, c.knowsService s = true) :
    ServicesResolve (rootElement c)
      ↔ ∀ p ∈ c.effectivePolicies, ∀ s ∈ p.services, ∀ name,
        ServiceRef.classify s = .named name → (c.service? name).isSome = true →
          name ∈ predefinedMembers ∨ (∃ d ∈ c.services, hasPlace d = true ∧ d.name = name)
            ∨ ∃ o ∈ c.spelledServices predefinedService, o.name = name := by
  have hnames (name : String) : name ∈ serviceNames (rootElement c)
      ↔ (∃ d ∈ c.services, hasPlace d = true ∧ d.name = name)
        ∨ ∃ o ∈ c.spelledServices predefinedService, o.name = name := by
    rw [serviceNames_rootElement, List.mem_append, mem_map_name_literalServices_iff, List.mem_map]
    simp only [List.mem_filter, and_assoc]
  rw [servicesResolve_iff]
  refine forall₂_congr fun p hp => forall₂_congr fun s hs => ?_
  constructor
  · intro h name hclassify hdeclared
    rw [(resolveService_eq_named_iff (hknown p hp s hs)).2 ⟨hclassify, hdeclared⟩] at h
    exact h.imp_right (hnames name).1
  · intro h
    rcases serviceName_mem hp hs with ⟨name, hname⟩ | hpredefined | hliteral
    · obtain ⟨hclassify, hdeclared⟩ := (resolveService_eq_named_iff (hknown p hp s hs)).1 hname
      rw [hname]
      exact (h name hclassify hdeclared).imp_right (hnames name).2
    · exact .inl hpredefined
    · rw [serviceNames_rootElement]
      exact .inr (List.mem_append_right _ hliteral)

/-- A rule that names a declared service, a known one and a port. -/
def placedText : String :=
  Text.unlines
    ["config firewall service custom", "edit web-alt", "set tcp-portrange 8443", "end",
     "config firewall policy", "edit 1", "set service web-alt HTTPS udp/514", "set action accept",
     "end"]

/-- What is read of the rule and the service. -/
def placedConfig : Config where
  services := [{ name := "web-alt", protocol := "tcp", port := some "8443" }]
  policies := [{ id := some 1, action := .permit, service := ["web-alt", "tcp/443", "udp/514"] }]

theorem read_placedText : FortiOs.read placedText = placedConfig := by
  rw [FortiOs.read, placedText, FortiOs.readForest_unlines_eq (by decide +kernel)]
  decide +kernel

/-- A declared service of a protocol with ports resolves. -/
theorem servicesResolve_placedText :
    (∀ p ∈ (FortiOs.read placedText).effectivePolicies, ∀ s ∈ p.services,
        (FortiOs.read placedText).knowsService s = true)
      ∧ ServicesResolve (rootElement (FortiOs.read placedText)) := by
  rw [read_placedText]
  have hknown : ∀ p ∈ placedConfig.effectivePolicies, ∀ s ∈ p.services,
      placedConfig.knowsService s = true := by decide +kernel
  have hservices : ∀ p ∈ placedConfig.effectivePolicies, ∀ s ∈ p.services,
      ServiceRef.classify s = .named "web-alt" ∨ ServiceRef.classify s = .port "tcp" "443"
        ∨ ServiceRef.classify s = .port "udp" "514" := by decide +kernel
  have hplaced : ∃ d ∈ placedConfig.services, hasPlace d = true ∧ d.name = "web-alt" := by
    decide +kernel
  refine ⟨hknown, (servicesResolve_rootElement_iff _ hknown).2 fun p hp s hs name hname _ => ?_⟩
  rcases hservices p hp s hs with h | h | h <;> rw [h] at hname <;> cases hname
  exact .inr (.inl hplaced)

/-- A rule that names a declared service of a protocol without ports. -/
def echoText : String :=
  Text.unlines
    ["config firewall service custom", "edit echo", "set protocol ICMP", "end",
     "config firewall policy", "edit 1", "set service echo", "set action accept", "end"]

/-- What is read of that rule and the service. -/
def echoConfig : Config where
  services := [{ name := "echo", protocol := "icmp" }]
  policies := [{ id := some 1, action := .permit, service := ["echo"] }]

/-- **A declared service without a place is named, and has no entry.** -/
theorem not_servicesResolve_echoText :
    FortiOs.read echoText = echoConfig
      ∧ (∀ p ∈ echoConfig.effectivePolicies, ∀ s ∈ p.services, echoConfig.knowsService s = true)
      ∧ (securityRules (rootElement echoConfig)).map serviceMembers = [["echo"]]
      ∧ serviceNames (rootElement echoConfig) = []
      ∧ ¬ ServicesResolve (rootElement echoConfig) := by
  have hread : FortiOs.read echoText = echoConfig := by
    rw [FortiOs.read, echoText, FortiOs.readForest_unlines_eq (by decide +kernel)]
    decide +kernel
  exact ⟨hread, by decide +kernel⟩

end PanOs

end FirewallConfig
