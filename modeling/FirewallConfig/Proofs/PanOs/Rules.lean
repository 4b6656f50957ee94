import FirewallConfig.Proofs.PanOs.Part

/-!
# Proofs/PanOs/Rules — the rules of a written document are read back

A rule keeps its place, its action, its switches and its description; its name is the one that tells
it apart, its endpoints are in their normal form, and its zones are the ones that were found for it.
Nothing else in the configuration adds a rule, takes one away, or changes one.
-/

namespace FirewallConfig.PanOs

open Xml (Node IsName)

/-! ## Events that are rules -/

/-- The rule that an event adds. -/
def Event.rule? : Event → Option Policy
  | entry .security n => (Block.ofLines n.lines).name.map (readPolicy (Block.ofLines n.lines))
  | _ => none

/-- Only entries of one area are rules. -/
theorem filterMap_rule?_entriesOf (es : List Event) :
    ((entriesOf .security es).map (Event.entry .security)).filterMap Event.rule?
      = es.filterMap Event.rule? := by
  induction es with
  | nil => rfl
  | cons e es ih =>
    rw [List.filterMap_cons, ← ih]
    cases e with
    | setting tag text => rfl
    | entry a n =>
      cases a with
      | security => exact List.filterMap_cons
      | _ => rfl

/-- The rules that are read. -/
def policiesPart : Part (List Policy) where
  area := .security
  get := (·.policies)
  put ps b name := ps ++ [readPolicy b name]

theorem take_policiesPart (ps : List Policy) (n : Node) :
    policiesPart.take ps n = ps ++ (Event.entry .security n).rule?.toList := by
  rw [Part.take, Event.rule?]
  cases (Block.ofLines n.lines).name with
  | none => exact (List.append_nil ps).symm
  | some name => rfl

/-- **The rules that are read are those of the events**, in order. -/
theorem policies_foldl_apply (es : List Event) (c : Config) :
    (es.foldl Event.apply c).policies = c.policies ++ es.filterMap Event.rule? := by
  have hfold : ∀ (ns : List Node) (ps : List Policy), ns.foldl policiesPart.take ps
      = ps ++ (ns.map (Event.entry .security)).filterMap Event.rule? := by
    intro ns
    induction ns with
    | nil => exact fun ps => (List.append_nil ps).symm
    | cons n ns ih =>
      intro ps
      rw [List.foldl_cons, ih, take_policiesPart, List.append_assoc, List.map_cons,
        List.filterMap_cons]
      cases (Event.entry .security n).rule? <;> rfl
  exact (policiesPart.get_foldl_apply es c).trans
    ((hfold _ _).trans (congrArg (c.policies ++ ·) (filterMap_rule?_entriesOf es)))

/-- Of the events of a document, the entries of one area are rules. -/
theorem filterMap_rule?_documentEvents (c : Config) :
    (documentEvents c).filterMap Event.rule?
      = ((securityEntries c).map (Event.entry .security)).filterMap Event.rule? := by
  rw [← filterMap_rule?_entriesOf, entriesOf_documentEvents]
  rfl

/-! ## One rule -/

/-- The zone of a rule: none where it is any. -/
def zoneOf (c : Config) (reference : Option String) : Option String :=
  if zoneName c reference = anyText then none else some (zoneName c reference)

/-- What a rule is read back as. -/
def ruleReadBack (c : Config) (p : Policy) (position : Nat) : Policy where
  name := some (p.labelAmong c.effectivePolicies position)
  action := p.action
  source := p.sources.map Endpoint.normalize
  destination := p.destinations.map Endpoint.normalize
  service := (ruleServices c p).filter fun s => s != anyText && s != "application-default"
  sourceZone := zoneOf c p.sourceZone
  destinationZone := zoneOf c p.destinationZone
  application := (ruleApplications p).filter (· != anyText)
  description := p.description
  enabled := p.enabled
  log := p.log

/-- The lists of a rule, each with its tag. -/
def ruleLists (c : Config) (p : Policy) : List (String × List String) :=
  [("from", [zoneName c p.sourceZone]), ("to", [zoneName c p.destinationZone]),
    ("source", p.sources.map Endpoint.normalize),
    ("destination", p.destinations.map Endpoint.normalize), ("service", ruleServices c p),
    ("application", ruleApplications p)]

/-- The leaves of a rule. -/
def ruleLeaves (p : Policy) : List Node :=
  Node.leaf "action" (if p.action.isPermit then "allow" else "deny")
    :: ((if p.log then [Node.leaf "log-end" "yes"] else [])
      ++ (if p.enabled then [] else [Node.leaf "disabled" "yes"])
      ++ leaf? "description" p.description)

theorem securityEntry_eq (c : Config) (rules : List Policy) (p : Policy) (position : Nat) :
    securityEntry c rules p position
      = entry (p.labelAmong rules position) (memberLists (ruleLists c p) ++ ruleLeaves p) := by
  rw [securityEntry]
  congr 1

theorem areListTags_ruleLists (c : Config) (p : Policy) :
    AreListTags ((ruleLists c p).map Prod.fst) :=
  (by decide : AreListTags ["from", "to", "source", "destination", "service", "application"])

theorem flat_ruleLeaves (p : Policy) : ∀ n ∈ ruleLeaves p, Flat n := by
  rw [ruleLeaves, List.forall_mem_cons, List.forall_mem_append, List.forall_mem_append]
  refine ⟨.leaf _ (by decide) (by decide), ⟨?_, ?_⟩, ?_⟩
  · intro n hn
    split at hn
    · rw [List.mem_singleton.1 hn]
      exact .leaf _ (by decide) (by decide)
    · cases hn
  · intro n hn
    split at hn
    · cases hn
    · rw [List.mem_singleton.1 hn]
      exact .leaf _ (by decide) (by decide)
  · intro n hn
    obtain ⟨s, -, rfl⟩ := List.mem_map.1 hn
    exact .leaf s (by decide) (by decide)

/-- What is found among the leaves of a rule under a tag. -/
theorem leafIn_ruleLeaves (p : Policy) {t : String} (ht : IsName t) :
    leafIn t (ruleLeaves p)
      = (if "action" = t then some (if p.action.isPermit then "allow" else "deny") else none).or
        (((if "log-end" = t ∧ p.log then some "yes" else none).or
          (if "disabled" = t ∧ p.enabled = false then some "yes" else none)).or
          (if "description" = t then p.description else none)) := by
  have hlog : leafIn t (if p.log then [Node.leaf "log-end" "yes"] else [])
      = if "log-end" = t ∧ p.log then some "yes" else none := by
    cases p.log
    · simp
    · simpa using leafIn_leaf "yes" ht (by decide) (by decide)
  have hdisabled : leafIn t (if p.enabled then [] else [Node.leaf "disabled" "yes"])
      = if "disabled" = t ∧ p.enabled = false then some "yes" else none := by
    cases p.enabled
    · simpa using leafIn_leaf "yes" ht (by decide) (by decide)
    · simp
  rw [ruleLeaves, leafIn_cons, leafIn_append, leafIn_append,
    leafIn_leaf _ ht (by decide) (by decide), hlog, hdisabled,
    leafIn_leaf? _ ht (by decide) (by decide)]

theorem ne_nil_orAny (texts : List String) : orAny texts ≠ [] := by
  rw [orAny]
  split
  · exact List.cons_ne_nil _ _
  · next h => exact fun hnil => h (by rw [hnil]; rfl)

theorem ne_nil_ruleServices (c : Config) (p : Policy) : ruleServices c p ≠ [] := by
  obtain ⟨s, hs⟩ := List.exists_mem_of_ne_nil _ (ne_nil_orAny p.service)
  exact List.ne_nil_of_mem (List.mem_eraseDups.2 (List.mem_map_of_mem hs))

/-- **A rule is read back from its entry.** -/
theorem readPolicy_securityEntry (c : Config) (p : Policy) (position : Nat) :
    readPolicy (Block.ofLines (securityEntry c c.effectivePolicies p position).lines)
        (p.labelAmong c.effectivePolicies position)
      = ruleReadBack c p position := by
  rw [securityEntry_eq]
  generalize hname : p.labelAmong c.effectivePolicies position = name
  have hmembers {tag : String} {ms : List String} (hmem : (tag, ms) ∈ ruleLists c p)
      (hne : ms ≠ []) :=
    members_memberLists (areListTags_ruleLists c p) name (flat_ruleLeaves p) hmem hne
  have hleaf {tag : String} (htag : IsName tag) (hmember : tag ≠ "member") :=
    (leaf_memberLists (areListTags_ruleLists c p) name (flat_ruleLeaves p) htag hmember).trans
      (leafIn_ruleLeaves p htag)
  generalize Block.ofLines (entry name (memberLists (ruleLists c p) ++ ruleLeaves p)).lines = b
    at hmembers hleaf ⊢
  have hfrom : b.members "from" = [zoneName c p.sourceZone] :=
    hmembers (by simp [ruleLists]) (List.cons_ne_nil _ _)
  have hto : b.members "to" = [zoneName c p.destinationZone] :=
    hmembers (by simp [ruleLists]) (List.cons_ne_nil _ _)
  have hsource : b.members "source" = p.sources.map Endpoint.normalize :=
    hmembers (by simp [ruleLists]) (by simpa [Policy.sources] using ne_nil_orAny p.source)
  have hdestination : b.members "destination" = p.destinations.map Endpoint.normalize :=
    hmembers (by simp [ruleLists]) (by simpa [Policy.destinations] using ne_nil_orAny p.destination)
  have hservice : b.members "service" = ruleServices c p :=
    hmembers (by simp [ruleLists]) (ne_nil_ruleServices c p)
  have happlication : b.members "application" = ruleApplications p :=
    hmembers (by simp [ruleLists]) (ne_nil_orAny _)
  have haction : Action.ofText ((b.leaf "action").getD "") = p.action := by
    have hallow : Action.ofText "allow" = .permit := by decide
    have hdeny : Action.ofText "deny" = .deny := by decide
    rw [hleaf (by decide) (by decide)]
    cases p.action
    · simpa [Action.isPermit] using hallow
    · simpa [Action.isPermit] using hdeny
  have hdescription : b.leaf "description" = p.description := by
    rw [hleaf (by decide) (by decide)]
    simp
  have hdisabled : (b.leaf "disabled" != some "yes") = p.enabled := by
    rw [hleaf (by decide) (by decide)]
    cases p.enabled <;> simp
  have hlog : (b.leaf "log-end" == some "yes") = p.log := by
    rw [hleaf (by decide) (by decide)]
    cases p.log <;> simp
  have hzone (tag z : String) (h : b.members tag = [z]) :
      readZone b tag = if z = anyText then none else some z := by
    rw [readZone, h]
    by_cases hz : z = anyText <;> simp [hz]
  simp only [readPolicy, ruleReadBack, haction, hsource, hdestination, hservice, happlication,
    hdescription, hdisabled, hlog, hzone _ _ hfrom, hzone _ _ hto, hname]
  rfl

theorem rule?_securityEntry (c : Config) (p : Policy) (position : Nat) :
    (Event.entry .security (securityEntry c c.effectivePolicies p position)).rule?
      = some (ruleReadBack c p position) := by
  have hname : (Block.ofLines (securityEntry c c.effectivePolicies p position).lines).name
      = some (p.labelAmong c.effectivePolicies position) := name_ofLines _ _
  rw [Event.rule?, hname, Option.map_some, readPolicy_securityEntry]

/-! ## All rules -/

theorem policies_read (text : String) :
    (read text).policies = (Reading.run {} (Text.lines text)).config.policies := rfl

/-- **The rules of a written document are read back**, each once and in order, whatever else the
configuration holds. -/
theorem policies_read_write (origin : Dialect) {c : Config} (hc : c.OneLine) :
    (read (write origin c)).policies
      = c.effectivePolicies.zipIdx.map fun (p, position) => ruleReadBack c p position := by
  have hnone : ({} : Config).policies = [] := rfl
  have hrules : Event.rule? ∘ (Event.entry .security ∘ fun (p, position) =>
      securityEntry c c.effectivePolicies p position)
        = some ∘ fun (p, position) => ruleReadBack c p position := by
    funext ⟨p, position⟩
    simp only [Function.comp_apply]
    rw [rule?_securityEntry]
  rw [policies_read, run_document origin hc, policies_foldl_apply, hnone, List.nil_append,
    filterMap_rule?_documentEvents, securityEntries, List.map_map, List.filterMap_map]
  rw [hrules, List.filterMap_eq_map]

/-- A configuration with markup in its names and texts, and with two rules of one name. -/
def markupConfig : Config where
  hostname := some "<security><entry name=\"x\"/>"
  policies :=
    [{ name := some "</entry>", action := .permit, source := ["10.0.0.0/8"],
       sourceZone := some "<zone>", description := some "a & b --> c", log := true },
     { name := some "</entry>", service := ["tcp/80"], enabled := false }]
  zones := [{ name := "<zone>" }]

theorem oneLine_markupConfig : markupConfig.OneLine := by
  have hzone : Zone.OneLine { name := "<zone>" } := { name := by decide }
  have hpolicies : ∀ p ∈ markupConfig.policies, p.OneLine :=
    List.forall_mem_cons.2 ⟨{}, List.forall_mem_cons.2 ⟨{}, List.forall_mem_nil _⟩⟩
  exact { policies := hpolicies, zones := List.forall_mem_cons.2 ⟨hzone, List.forall_mem_nil _⟩ }

theorem policies_read_write_markupConfig : markupConfig.OneLine
    ∧ (read (write .ciscoAsa markupConfig)).policies
      = [{ name := some "</entry>-1", action := .permit, source := ["10.0.0.0/8"],
           destination := ["any"], sourceZone := some "<zone>",
           description := some "a & b --> c", log := true },
         { name := some "</entry>-2", source := ["any"], destination := ["any"],
           service := ["service-http"], enabled := false }] :=
  ⟨oneLine_markupConfig, (policies_read_write .ciscoAsa oneLine_markupConfig).trans (by decide)⟩

end FirewallConfig.PanOs
