import FirewallConfig.Proofs.Cisco.Entry
import FirewallConfig.Proofs.Cisco.Lines
import FirewallConfig.Reader
import FirewallConfig.Writer

/-!
# Proofs/Cisco/CoreList — access lists that both products keep

A **core text** holds remarks, entries and bindings of a plain grammar, and nothing else.  Reading
it keeps an invariant of the rules that have been read (`CoreRules`), and rules with that invariant
are read back from what either product writes of them (`read_write_coreConfig`).
-/

namespace FirewallConfig.Cisco

open Text

/-! ## The grammar -/

/-- The words of a source or a destination. -/
inductive IsEndpoint : List String → Prop
  | any : IsEndpoint [anyText]
  | host {address : String} (h : isIPv4 address = true) : IsEndpoint ["host", address]
  | network {address mask : String} (ha : isIPv4 address = true) (hm : mask ∈ Netmask.table)
    (hne : mask ≠ Netmask.everything) : IsEndpoint [address, mask]
  | object {name : String} (h : Endpoint.classify name = .named name) :
    IsEndpoint ["object", name]
  | objectGroup {name : String} (h : Endpoint.classify name = .named name) :
    IsEndpoint ["object-group", name]

/-- The words of an entry, from its action on.  Only two of the protocols have ports. -/
inductive IsEntry : List String → Prop
  | bare (action : Action) {protocol : String} (hp : protocol ∈ ServiceRef.protocols)
    {source destination flags : List String} (hs : IsEndpoint source)
    (hd : IsEndpoint destination) (hf : IsFlags flags) :
    IsEntry (action.text :: protocol :: (source ++ (destination ++ flags)))
  | ports (action : Action) {protocol : String} (hp : protocol = "tcp" ∨ protocol = "udp")
    {source destination ports flags : List String} (hs : IsEndpoint source)
    (hd : IsEndpoint destination) (hports : IsPortTest ports) (hf : IsFlags flags) :
    IsEntry (action.text :: protocol :: (source ++ (destination ++ (ports ++ flags))))

/-- The number that may stand after the name of a list. -/
def IsLineNumber (number : List String) : Prop := number = [] ∨ ∃ k, number = ["line", k]

/-- The words of a line that is an entry. -/
inductive IsEntryLine : List String → Prop
  | intro (acl : String) {number extended entry : List String} (hn : IsLineNumber number)
    (he : extended = [] ∨ extended = ["extended"]) (h : IsEntry entry) :
    IsEntryLine ("access-list" :: acl :: (number ++ (extended ++ entry)))

/-- The words of a line of a core text. -/
inductive IsCoreLine : List String → Prop
  | remark (acl : String) {number : List String} (hn : IsLineNumber number) (text : List String) :
    IsCoreLine ("access-list" :: acl :: (number ++ "remark" :: text))
  | binding (acl : String) {direction : String} (h : direction = "in" ∨ direction = "out")
    (interface : String) : IsCoreLine ["access-group", acl, direction, "interface", interface]
  | entry {ws : List String} (h : IsEntryLine ws) : IsCoreLine ws

/-- The text holds remarks, bindings and entries, at least one of these, and nothing else. -/
structure IsCoreText (text : String) : Prop where
  unindented : ∀ l ∈ lines text, isIndented l = false
  lines : ∀ l ∈ lines text, IsCoreLine (words l)
  entry : ∃ l ∈ Text.lines text, IsEntryLine (words l)

/-! ## Operands of an entry -/

theorem IsEndpoint.exists_readsAddress {ws : List String} (h : IsEndpoint ws)
    (hws : ∀ w ∈ ws, IsWord w) : ∃ e : Endpoint, e.IsCanonical ∧ ReadsAddress ws e.text := by
  cases h with
  | any => exact ⟨.any, trivial, readsAddress_any⟩
  | @host address h => exact ⟨.host address, h, readsAddress_host address⟩
  | @network address mask ha hm hne =>
    have hreads := readsAddress_network ha (Netmask.isIPv4_of_mem_table hm)
    by_cases hsingle : mask = Netmask.single
    · rw [if_pos (beq_iff_eq.2 hsingle)] at hreads
      exact ⟨.host address, ha, hreads⟩
    · rw [if_neg (mt beq_iff_eq.1 hsingle)] at hreads
      exact ⟨.network ⟨address, mask⟩, ⟨ha, hm, hne, hsingle⟩, hreads⟩
  | @object name h =>
    exact ⟨.named name, ⟨hws name (by simp), h⟩, readsAddress_object name⟩
  | @objectGroup name h =>
    exact ⟨.named name, ⟨hws name (by simp), h⟩, readsAddress_objectGroup name⟩

/-- The services of a rule that was read of an entry with the protocol. -/
inductive IsCoreService (protocol : String) : List String → Prop
  | bare : IsCoreService protocol (bareService protocol)
  | ports {ports : String} (h : IsPorts ports) : IsCoreService protocol [protocol ++ "/" ++ ports]

/-- The service of such a rule is written as what it was read of. -/
theorem IsCoreService.exists_ref {protocol : String} (hp : protocol ∈ ServiceRef.protocols)
    {service : List String} (h : IsCoreService protocol service) :
    ∃ s ref, orAny service = [s] ∧ ServiceRef.classify s = ref ∧ (∀ name, ref ≠ .named name)
      ∧ IsPlainService ref ∧ entryService protocol ref = (protocol, service) := by
  cases h with
  | bare =>
    have hplain {p : String} (hp : p ∈ ServiceRef.protocols) : IsPlainService (.protocol p) := hp
    simp only [ServiceRef.protocols, List.mem_cons, List.not_mem_nil, or_false] at hp
    rcases hp with rfl | rfl | rfl | rfl | rfl | rfl
    · exact ⟨"tcp", .protocol "tcp", rfl, by decide, by simp, hplain (by decide), rfl⟩
    · exact ⟨"udp", .protocol "udp", rfl, by decide, by simp, hplain (by decide), rfl⟩
    · exact ⟨"icmp", .protocol "icmp", rfl, by decide, by simp, hplain (by decide), rfl⟩
    all_goals exact ⟨anyText, .any, rfl, by decide, by simp, trivial, rfl⟩
  | @ports ports h =>
    exact ⟨protocol ++ "/" ++ ports, .port protocol ports, rfl,
      ServiceRef.classify_port hp h, by simp, ⟨hp, h⟩, rfl⟩

/-- What an entry of the grammar is read as. -/
inductive IsCoreRule : Policy → Prop
  | intro (action : Action) {protocol : String} (hp : protocol ∈ ServiceRef.protocols)
    {source destination : Endpoint} (hs : source.IsCanonical) (hd : destination.IsCanonical)
    {service : List String} (hservice : IsCoreService protocol service) (flags : List String) :
    IsCoreRule (ruleOf action protocol source.text destination.text service flags)

theorem IsEntry.exists_rule {ws : List String} (h : IsEntry ws) (hws : ∀ w ∈ ws, IsWord w) :
    ∃ rule, readEntry ws = some rule ∧ IsCoreRule rule := by
  cases h with
  | @bare action protocol hp source destination flags hs hd hf =>
    simp only [List.forall_mem_cons, List.forall_mem_append] at hws
    obtain ⟨source, hsource, hreads⟩ := hs.exists_readsAddress hws.2.2.1
    obtain ⟨destination, hdestination, hreadd⟩ := hd.exists_readsAddress hws.2.2.2.1
    have hread := readEntry_protocol action hp
    refine ⟨ruleOf action protocol source.text destination.text (bareService protocol) flags, ?_,
      .intro action hp hsource hdestination .bare flags⟩
    rw [hread, readEntryOperands_eq hreads hreadd, readEntryService_flags protocol hf]
  | @ports action protocol hp source destination ports flags hs hd hports hf =>
    have hp : protocol ∈ ServiceRef.protocols := by rcases hp with rfl | rfl <;> decide
    simp only [List.forall_mem_cons, List.forall_mem_append] at hws
    obtain ⟨source, hsource, hreads⟩ := hs.exists_readsAddress hws.2.2.1
    obtain ⟨destination, hdestination, hreadd⟩ := hd.exists_readsAddress hws.2.2.2.1
    obtain ⟨ports, hplain, hreadp⟩ := hports.readsPorts
    have hread := readEntry_protocol action hp
    refine ⟨ruleOf action protocol source.text destination.text [protocol ++ "/" ++ ports] flags,
      ?_, .intro action hp hsource hdestination (.ports hplain) flags⟩
    rw [hread, readEntryOperands_eq hreads hreadd, readEntryService_ports protocol hreadp]

/-! ## The invariant of reading -/

/-- The text has no blanks at its ends and no line feed. -/
def IsTrimmed (text : String) : Prop := trim text = text ∧ OneLine text

/-- The rules were read of entries of the grammar, one after the other: each is numbered within its
list. -/
inductive CoreRules : List Policy → Prop
  | nil : CoreRules []
  | snoc {rules : List Policy} (h : CoreRules rules) {acl : String} (hacl : IsWord acl)
    {rule : Policy} (hrule : IsCoreRule rule) {description : Option String}
    (hd : ∀ d ∈ description, IsTrimmed d) :
    CoreRules (rules ++ [{ rule with
      name := some acl
      id := some (.ofNat (rules.countP (·.name == some acl) + 1))
      description }])

/-- The binding is one to an interface, or one to all of them. -/
inductive IsCoreBinding : AccessBinding → Prop
  | interface {acl direction interface : String} (hacl : IsWord acl)
    (h : direction = "in" ∨ direction = "out") (hi : IsWord interface) :
    IsCoreBinding ⟨acl, direction, interface⟩
  | all {acl : String} (hacl : IsWord acl) : IsCoreBinding ⟨acl, "global", ""⟩

/-- What has been read of access lists is what a core text can say. -/
structure Access.IsCore (a : Access) : Prop where
  rules : CoreRules a.policies
  bindings : ∀ b ∈ a.bindings, IsCoreBinding b
  remark : ∀ r ∈ a.remark, IsTrimmed r.2

theorem Access.IsCore.addEntry {a : Access} (ha : a.IsCore) {acl : String} (hacl : IsWord acl)
    {rule : Policy} (hrule : IsCoreRule rule) : (a.addEntry acl rule).IsCore where
  rules := by
    refine ha.rules.snoc hacl hrule fun d hd => ?_
    obtain ⟨r, hr, rfl⟩ := Option.map_eq_some_iff.1 hd
    exact ha.remark r (Option.filter_eq_some_iff.1 hr).1
  bindings := ha.bindings
  remark := nofun

/-- A line of the grammar is read as an entry. -/
theorem readAccessList_entry (l : Line) {number extended entry : List String}
    (hn : IsLineNumber number) (he : extended = [] ∨ extended = ["extended"]) (h : IsEntry entry) :
    readAccessList l (number ++ (extended ++ entry)) = readAclLine.ofEntry (readEntry entry) := by
  obtain ⟨action, rest, rfl⟩ : ∃ action rest, entry = Action.text action :: rest := by
    cases h with
    | bare action => exact ⟨action, _, rfl⟩
    | ports action => exact ⟨action, _, rfl⟩
  rcases hn with rfl | ⟨k, rfl⟩ <;> rcases he with rfl | rfl <;> cases action <;> rfl

/-- An entry adds a rule. -/
theorem step_entryLine {raw : String} (hraw : isIndented raw = false)
    (h : IsEntryLine (words raw)) (a : Access) :
    ∃ acl rule, IsWord acl ∧ IsCoreRule rule ∧ a.step raw = a.addEntry acl rule := by
  have hwords : ∀ w ∈ words raw, IsWord w := fun w hw => isWord_of_mem_words hw
  generalize hws : words raw = ws at h hwords
  cases h with
  | @intro acl number extended entry hn he h =>
    simp only [List.forall_mem_cons, List.forall_mem_append] at hwords
    obtain ⟨rule, hrule, hcore⟩ := h.exists_rule hwords.2.2.2.2
    have hread := readAccessList_entry (Line.ofText raw) hn he h
    have hne : number ++ (extended ++ entry) ≠ [] := by
      cases h <;> simp
    obtain ⟨word, rest, hcons⟩ := List.exists_cons_of_ne_nil hne
    rw [hcons] at hws hread
    refine ⟨acl, rule, hwords.2.1, hcore, ?_⟩
    rw [Access.step_accessList hraw hws, hread, hrule]
    rfl

/-- **A line of a core text keeps the invariant.** -/
theorem isCore_step {raw : String} (hraw : isIndented raw = false) (hone : OneLine raw)
    (h : IsCoreLine (words raw)) {a : Access} (ha : a.IsCore) : (a.step raw).IsCore := by
  have hwords : ∀ w ∈ words raw, IsWord w := fun w hw => isWord_of_mem_words hw
  generalize hws : words raw = ws at h hwords
  cases h with
  | @remark acl number hn text =>
    obtain ⟨k, hread⟩ : ∃ k, readAccessList (Line.ofText raw) (number ++ "remark" :: text)
        = .remark ((Line.ofText raw).after k) := by
      rcases hn with rfl | ⟨k, rfl⟩
      · exact ⟨3, rfl⟩
      · exact ⟨5, rfl⟩
    obtain ⟨word, rest, hcons⟩ : ∃ word rest, number ++ "remark" :: text = word :: rest :=
      List.exists_cons_of_ne_nil (by simp)
    rw [hcons] at hws hread
    rw [Access.step_accessList hraw hws, hread]
    refine { rules := ha.rules, bindings := ha.bindings, remark := ?_ }
    rintro r ⟨⟩
    exact ⟨trim_textAfter k _, hone.trim.textAfter k⟩
  | @binding acl direction h interface =>
    rw [Access.step_accessGroup hraw hws]
    refine { rules := ha.rules, bindings := ?_, remark := ha.remark }
    simp only [List.forall_mem_cons] at hwords
    exact List.forall_mem_append.2 ⟨ha.bindings, List.forall_mem_singleton.2
      (.interface hwords.2.1 h hwords.2.2.2.2.1)⟩
  | entry h =>
    obtain ⟨acl, rule, hacl, hrule, hstep⟩ := step_entryLine hraw (hws ▸ h) a
    rw [hstep]
    exact ha.addEntry hacl hrule

/-- No line takes a rule away. -/
theorem prefix_step (a : Access) (raw : String) : a.policies <+: (a.step raw).policies := by
  rw [Access.step]
  split
  · exact List.prefix_refl _
  · cases Directive.read (Line.ofText raw) with
    | accessList acl line =>
      cases line with
      | entry rule => exact List.prefix_append _ _
      | _ => exact List.prefix_refl _
    | _ => exact List.prefix_refl _

/-- **Reading a core text keeps the invariant**, and finds a rule. -/
theorem isCore_accessOf {text : String} (h : IsCoreText text) :
    (accessOf text).IsCore ∧ (accessOf text).policies ≠ [] := by
  have hcore : ∀ (ls : List String) (a : Access), a.IsCore → (∀ l ∈ ls, isIndented l = false)
      → (∀ l ∈ ls, OneLine l) → (∀ l ∈ ls, IsCoreLine (words l))
      → (ls.foldl Access.step a).IsCore := by
    intro ls
    induction ls with
    | nil => exact fun a ha _ _ _ => ha
    | cons l ls ih =>
      intro a ha hraw hone hline
      obtain ⟨hr, hraw⟩ := List.forall_mem_cons.1 hraw
      obtain ⟨ho, hone⟩ := List.forall_mem_cons.1 hone
      obtain ⟨hl, hline⟩ := List.forall_mem_cons.1 hline
      exact ih _ (isCore_step hr ho hl ha) hraw hone hline
  have hrule : ∀ (ls : List String) (a : Access), (∀ l ∈ ls, isIndented l = false)
      → ((∃ l ∈ ls, IsEntryLine (words l)) ∨ a.policies ≠ [])
      → (ls.foldl Access.step a).policies ≠ [] := by
    intro ls
    induction ls with
    | nil =>
      rintro a - (⟨l, hl, -⟩ | ha)
      · cases hl
      · exact ha
    | cons l ls ih =>
      intro a hraw h
      obtain ⟨hr, hraw⟩ := List.forall_mem_cons.1 hraw
      refine ih _ hraw ?_
      rcases h with ⟨m, hm, hentry⟩ | ha
      · rcases List.mem_cons.1 hm with rfl | hm
        · obtain ⟨acl, rule, -, -, hstep⟩ := step_entryLine hr hentry a
          rw [hstep]
          exact .inr (List.concat_ne_nil _ _)
        · exact .inl ⟨m, hm, hentry⟩
      · exact .inr fun hnil => ha (List.prefix_nil.1 (hnil ▸ prefix_step a l))
  have hstart : Access.IsCore {} :=
    { rules := .nil, bindings := List.forall_mem_nil _, remark := nofun }
  exact ⟨hcore _ _ hstart h.unindented (fun l hl => oneLine_of_mem_lines hl) h.lines,
    hrule _ _ h.unindented (.inl h.entry)⟩

/-- A line of the grammar is about access lists. -/
theorem isAccessLine_of_isCoreLine {raw : String} (hraw : isIndented raw = false)
    (h : IsCoreLine (words raw)) : IsAccessLine raw := by
  generalize hws : words raw = ws at h
  refine isAccessLine_of_words hraw ?_
  rw [hws]
  cases h with
  | @remark acl number hn text =>
    obtain ⟨word, rest, hcons⟩ : ∃ word rest, number ++ "remark" :: text = word :: rest :=
      List.exists_cons_of_ne_nil (by simp)
    exact .inl ⟨acl, word, rest, by rw [hcons]⟩
  | binding acl h interface => exact .inr ⟨_, _, rfl⟩
  | entry h =>
    cases h with
    | @intro acl number extended entry hn he h =>
      obtain ⟨word, rest, hcons⟩ : ∃ word rest, number ++ (extended ++ entry) = word :: rest :=
        List.exists_cons_of_ne_nil (by cases h <;> simp)
      exact .inl ⟨acl, word, rest, by rw [hcons]⟩

/-- The configuration that has nothing but a hostname and access lists. -/
def coreConfig (hostname : Option String) (a : Access) : Config where
  hostname := hostname
  policies := a.policies.map (Reading.joinPolicy a.bindings)
  accessBindings := a.bindings

/-- **A core text holds access lists and nothing else.** -/
theorem read_coreText (flavor : Flavor) {text : String} (h : IsCoreText text) :
    read flavor text = coreConfig none (accessOf text) := by
  have hlines : ∀ l ∈ lines text, IsAccessLine l := fun l hl =>
    isAccessLine_of_isCoreLine (h.unindented l hl) (h.lines l hl)
  rw [read, Reading.run_eq_withAccess rfl hlines]
  rfl

/-! ## What is written of a rule -/

/-- The lines are about access lists alone, and they lead from one state to another. -/
structure Says (ls : List String) (a b : Access) : Prop where
  lines : ∀ l ∈ ls, IsAccessLine l
  foldl : ls.foldl Access.step a = b

theorem says_nil (a : Access) : Says [] a a := ⟨List.forall_mem_nil _, rfl⟩

theorem Says.append {ls ms : List String} {a b d : Access} (h : Says ls a b) (h' : Says ms b d) :
    Says (ls ++ ms) a d :=
  ⟨List.forall_mem_append.2 ⟨h.lines, h'.lines⟩, by rw [List.foldl_append, h.foldl, h'.foldl]⟩

theorem says_singleton {l : String} (hl : IsAccessLine l) {a b : Access} (h : a.step l = b) :
    Says [l] a b := ⟨List.forall_mem_singleton.2 hl, h⟩

theorem isAccessLine_bang : IsAccessLine "!" := isAccessLine_of_bang (by decide) (by decide)

theorem says_bang (a : Access) : Says ["!"] a a :=
  says_singleton isAccessLine_bang (IsQuiet.step_eq (by decide) a)

theorem isAccessLine_entry {e : AccessEntry} (hacl : IsWord e.acl) : IsAccessLine e.line :=
  isAccessLine_of_words (isIndented_unwords (by decide) _)
    (.inl ⟨_, _, _, AccessEntry.words_line hacl⟩)

/-- The services of a rule that are no names are written by what they mean. -/
theorem serviceOperands_of_classify (c : Config) (rule : Policy) {s : String} {ref : ServiceRef}
    (h : ServiceRef.classify s = ref) (hne : ∀ name, ref ≠ .named name) :
    serviceOperands c rule s = literalOperands rule.protocol ref := by
  have hresolve : c.resolveService s = ref := by
    rw [Config.resolveService, h]
    split
    · exact absurd rfl (hne _)
    · rfl
  unfold serviceOperands
  rw [hresolve]
  split
  · exact absurd rfl (hne _)
  · rfl

/-- The line of a remark is read as the remark that is pending. -/
theorem says_remarkLine {acl d : String} (hacl : IsWord acl) (hd : IsTrimmed d) (a : Access) :
    Says [s!"access-list {acl} remark {d}"] a { a with remark := some (acl, d) } := by
  refine says_singleton (isAccessLine_of_words (Access.isIndented_remarkLine acl d)
    (.inl ⟨_, _, _, Access.words_remarkLine hacl d⟩)) ?_
  rw [Access.step_remark hacl, hd.1]

/-- **The lines of a rule are read as that rule**, with the next number of its list. -/
theorem says_ruleLines (c : Config) (origin : Dialect) {acl : String} (hacl : IsWord acl)
    {rule : Policy} (hrule : IsCoreRule rule) {description : Option String}
    (hd : ∀ d ∈ description, IsTrimmed d) (id : Option UInt32) (zone : Option String)
    (hplace : (placement c origin
      { rule with name := some acl, id, description, sourceZone := zone }).1 = acl)
    {a : Access} (ha : a.remark = none) :
    Says (ruleLines c origin { rule with name := some acl, id, description, sourceZone := zone }) a
      { policies := a.policies ++ [{ rule with
          name := some acl
          id := some (.ofNat (a.policies.countP (·.name == some acl) + 1))
          description }]
        bindings := a.bindings } := by
  cases hrule with
  | @intro action protocol hp source destination hs hdest service hservice flags =>
    obtain ⟨s, ref, hone, hclass, hne, hplain, hentry⟩ := hservice.exists_ref hp
    let rule := ruleOf action protocol source.text destination.text service flags
    let p : Policy := { rule with name := some acl, id, description, sourceZone := zone }
    have hplains {e : Endpoint} (he : e.IsCanonical) : (Endpoint.classify e.text).IsPlain := by
      rw [Endpoint.classify_text he]
      exact Endpoint.isPlain_of_isCanonical he
    have hwritten : writtenRule p (Endpoint.classify source.text)
        (Endpoint.classify destination.text) ref = rule := by
      have hentry : entryService p.protocol ref = (protocol, service) := hentry
      rw [Endpoint.classify_text hs, Endpoint.classify_text hdest, writtenRule, hentry,
        Endpoint.canonical_eq_self hs, Endpoint.canonical_eq_self hdest]
      rfl
    have hsays (a : Access) : Says [(entryOf c acl p source.text destination.text s).line] a
        (a.addEntry acl rule) := by
      refine says_singleton (isAccessLine_entry hacl) ?_
      rw [step_entryOf hacl (hplains hs) (hplains hdest)
        (serviceOperands_of_classify c p hclass hne) hplain, hwritten]
    have hentries : entries c acl p = [entryOf c acl p source.text destination.text s] := by
      have hservices : p.services = [s] := hone
      rw [entries_eq, hservices]
      rfl
    have hlines : ruleLines c origin p
        = (description.toList.map fun text => s!"access-list {acl} remark {text}")
          ++ [(entryOf c acl p source.text destination.text s).line] := by
      rw [ruleLines_eq hplace, hentries]
      exact congrArg (· ++ _) (List.append_nil _)
    change Says (ruleLines c origin p) a _
    rw [hlines]
    cases description with
    | none =>
      have hentry := hsays a
      rw [Access.addEntry, ha] at hentry
      exact hentry
    | some d =>
      have hentry := hsays { a with remark := some (acl, d) }
      have hsame : (some (acl, d)).filter (·.1 == acl) = some (acl, d) := by simp
      rw [Access.addEntry] at hentry
      dsimp only at hentry
      rw [hsame] at hentry
      exact (says_remarkLine hacl (hd d rfl) a).append hentry

/-- **The lines of all rules are read as these rules.** -/
theorem says_rules (c : Config) (origin : Dialect) (bs : List AccessBinding) {rules : List Policy}
    (h : CoreRules rules)
    (hplace : ∀ p ∈ rules, ∀ acl, p.name = some acl →
      (placement c origin (Reading.joinPolicy bs p)).1 = acl) :
    Says ((rules.map (Reading.joinPolicy bs)).flatMap (ruleLines c origin)) {}
      { policies := rules } := by
  induction h with
  | nil => exact says_nil _
  | @snoc rules h acl hacl rule hrule description hd ih =>
    rw [List.map_append, List.flatMap_append]
    refine (ih fun p hp => hplace p (List.mem_append_left _ hp)).append ?_
    rw [List.map_singleton, List.flatMap_singleton]
    have hlast := hplace _ (List.mem_append_right _ List.mem_cons_self) acl rfl
    exact says_ruleLines c origin hacl hrule hd _ _ hlast rfl

/-! ## What is written of bindings -/

/-- **The line of a binding is read as that binding.** -/
theorem says_bindingLine {b : AccessBinding} (hb : IsCoreBinding b) (a : Access) :
    Says [bindingLine b] a { a with bindings := a.bindings ++ [b] } := by
  have hsays {line word : String} {rest : List String} (hraw : isIndented line = false)
      (hwords : words line = "access-group" :: word :: rest)
      (hread : readAccessGroup (word :: rest) = some b) :
      Says [line] a { a with bindings := a.bindings ++ [b] } := by
    refine says_singleton (isAccessLine_of_words hraw (.inr ⟨_, _, hwords⟩)) ?_
    rw [Access.step_accessGroup hraw hwords, hread]
    rfl
  cases hb with
  | @interface acl direction interface hacl h hi =>
    have hdirection : IsWord direction ∧ (direction == "global") = false := by
      rcases h with rfl | rfl <;> decide
    have hline : bindingLine ⟨acl, direction, interface⟩
        = unwords ["access-group", acl, direction, "interface", interface] := by
      rw [bindingLine, hdirection.2, hi.isEmpty_eq]
      apply String.toList_inj.1
      simp [unwords, String.intercalate_cons_cons]
    have hwords : words (bindingLine ⟨acl, direction, interface⟩)
        = ["access-group", acl, direction, "interface", interface] := by
      rw [hline]
      exact words_unwords_of_isWord (by simp +decide [hacl, hdirection.1, hi])
    exact hsays (by rw [hline]; exact isIndented_unwords (by decide) _) hwords rfl
  | @all acl hacl =>
    have hline : bindingLine ⟨acl, "global", ""⟩ = unwords ["access-group", acl, "global"] := by
      apply String.toList_inj.1
      simp [bindingLine, unwords, String.intercalate_cons_cons]
    have hwords : words (bindingLine ⟨acl, "global", ""⟩) = ["access-group", acl, "global"] := by
      rw [hline]
      exact words_unwords_of_isWord (by simp +decide [hacl])
    exact hsays (by rw [hline]; exact isIndented_unwords (by decide) _) hwords rfl

theorem says_bindingLines {bs : List AccessBinding} (hbs : ∀ b ∈ bs, IsCoreBinding b)
    (a : Access) : Says (bs.map bindingLine) a { a with bindings := a.bindings ++ bs } := by
  induction bs generalizing a with
  | nil =>
    rw [List.append_nil]
    exact says_nil a
  | cons b bs ih =>
    obtain ⟨hb, hbs⟩ := List.forall_mem_cons.1 hbs
    have hrest := ih hbs { a with bindings := a.bindings ++ [b] }
    dsimp only at hrest
    rw [List.append_assoc] at hrest
    exact (says_bindingLine hb a).append hrest

/-- The bindings that a writer writes: where there are none, the list for everything is bound to
all interfaces. -/
def Access.writtenBindings (a : Access) : List AccessBinding :=
  if a.bindings = [] ∧ ∃ p ∈ a.policies, p.name = some globalAcl then [⟨globalAcl, "global", ""⟩]
  else a.bindings

theorem placedBindingLine_none {acl : String} (hacl : acl ≠ globalAcl) :
    placedBindingLine (acl, none) = none := by
  rw [placedBindingLine, beq_false_of_ne hacl]
  rfl

/-- Where no list is bound to an interface, there is one line for each that is for everything. -/
theorem filterMap_placedBindingLine_eq_map {places : List (String × Option String)}
    (h : ∀ place ∈ places, place.2 = none) :
    places.filterMap placedBindingLine
      = (places.filter fun place => place.1 == globalAcl).map fun _ =>
        bindingLine ⟨globalAcl, "global", ""⟩ := by
  induction places with
  | nil => rfl
  | cons place places ih =>
    obtain ⟨hplace, hplaces⟩ := List.forall_mem_cons.1 h
    obtain ⟨acl, interface⟩ := place
    cases hplace
    rw [List.filterMap_cons, List.filter_cons, ih hplaces]
    by_cases hacl : acl = globalAcl
    · subst hacl
      rfl
    · rw [placedBindingLine_none hacl, beq_false_of_ne hacl]
      rfl

/-- Lists that are bound to no interface are not bound, but for the one for everything. -/
theorem filterMap_placedBindingLine {places : List (String × Option String)}
    (h : ∀ place ∈ places, place.2 = none) :
    (places.eraseDupsBy fun p q => p.1 == q.1).filterMap placedBindingLine
      = if ∃ place ∈ places, place.1 = globalAcl then [bindingLine ⟨globalAcl, "global", ""⟩]
        else [] := by
  rw [filterMap_placedBindingLine_eq_map fun place hplace =>
      h place (mem_of_mem_eraseDupsBy hplace),
    filter_eraseDupsBy Prod.fst]
  split
  · next hex =>
    obtain ⟨place, hplace, hacl⟩ := hex
    have hfind : (places.find? fun p => p.1 == globalAcl).isSome :=
      List.find?_isSome.2 ⟨place, hplace, beq_iff_eq.2 hacl⟩
    obtain ⟨found, hfound⟩ := Option.isSome_iff_exists.1 hfind
    rw [hfound]
    rfl
  · next hnot =>
    have hnone : places.find? (fun p => p.1 == globalAcl) = none :=
      List.find?_eq_none.2 fun p hp hacl => hnot ⟨p, hp, beq_iff_eq.1 hacl⟩
    rw [hnone]
    rfl

/-! ## The whole text -/

/-- A core rule has a name and what an entry says. -/
theorem CoreRules.exists_eq {rules : List Policy} (h : CoreRules rules) :
    ∀ p ∈ rules, ∃ acl rule id description, IsWord acl ∧ IsCoreRule rule
      ∧ (∀ d ∈ description, IsTrimmed d) ∧ p = { rule with name := some acl, id, description } := by
  induction h with
  | nil => exact List.forall_mem_nil _
  | @snoc rules h acl hacl rule hrule description hd ih =>
    exact List.forall_mem_append.2 ⟨ih, List.forall_mem_singleton.2
      ⟨acl, rule, _, description, hacl, hrule, hd, rfl⟩⟩

theorem Endpoint.isWord_text {e : Endpoint} (he : e.IsCanonical) : IsWord e.text := by
  cases e with
  | any => decide
  | host address => exact isWord_of_isIPv4 he
  | network n => exact Network.isWord_cidr he.1
  | named name => exact he.1

theorem IsCoreRule.oneLine {rule : Policy} (h : IsCoreRule rule) : rule.OneLine := by
  cases h with
  | @intro action protocol hp source destination hs hd service hservice flags =>
    have hprotocol : OneLine protocol := by
      simp only [ServiceRef.protocols, List.mem_cons, List.not_mem_nil, or_false] at hp
      rcases hp with rfl | rfl | rfl | rfl | rfl | rfl <;> decide
    have hsource : ∀ s ∈ [source.text], OneLine s :=
      List.forall_mem_singleton.2 (Endpoint.isWord_text hs).oneLine
    have hdestination : ∀ s ∈ [destination.text], OneLine s :=
      List.forall_mem_singleton.2 (Endpoint.isWord_text hd).oneLine
    have hservices : ∀ s ∈ service, OneLine s := by
      cases hservice with
      | bare =>
        rw [bareService]
        split
        · exact List.forall_mem_singleton.2 hprotocol
        · exact List.forall_mem_nil _
      | ports hports =>
        exact List.forall_mem_singleton.2 (ServiceRef.port_spec hp hports).1.oneLine
    exact { protocol := hprotocol, source := hsource, destination := hdestination
            service := hservices, name := forall_mem_none, sourceZone := forall_mem_none
            destinationZone := forall_mem_none, application := List.forall_mem_nil _
            description := forall_mem_none }

/-- A line that a bang begins is a bang. -/
theorem isAccessLine_bangLine (s : String) : IsAccessLine ("! " ++ s) := by
  have hwords : words ("! " ++ s) = "!" :: words s := words_append "!" s
  have hindented : isIndented ("! " ++ s) = false := by
    rw [isIndented, String.toList_append]
    rfl
  exact isAccessLine_of_bang (by rw [hwords]; rfl) hindented

theorem isAccessLine_headerLines (flavor : Flavor) (origin : Dialect) :
    ∀ l ∈ headerLines flavor origin, IsAccessLine l := by
  refine List.forall_mem_cons.2 ⟨?_, List.forall_mem_cons.2
    ⟨?_, List.forall_mem_singleton.2 isAccessLine_bang⟩⟩
  · rw [String.append_assoc]
    exact isAccessLine_bangLine _
  · have hsplit : "! Generated from " = "! " ++ "Generated from " := rfl
    rw [hsplit, String.append_assoc, String.append_assoc]
    exact isAccessLine_bangLine _

/-- The line of the hostname is read back where no block is open. -/
theorem step_hostname {r : Reading} (hblock : r.block = none) {name : String} (hname : IsWord name) :
    r.step s!"hostname {name}" = r.amend fun c => { c with hostname := some name } := by
  have heq : s!"hostname {name}" = unwords ["hostname", name] := by
    apply String.toList_inj.1
    simp [unwords, String.intercalate_cons_cons]
  have hwords : (Line.ofText s!"hostname {name}").words = ["hostname", name] := by
    rw [heq]
    have hws : ∀ w ∈ ["hostname", name], IsWord w := by simp +decide [hname]
    exact words_unwords_of_isWord hws
  have hindented : isIndented s!"hostname {name}" = false := by
    rw [heq]
    exact isIndented_unwords (by decide) _
  have hread : Directive.read (Line.ofText s!"hostname {name}") = .hostname name := by
    rw [Directive.read, hwords]
    rfl
  rw [Reading.step_of_read _ hindented hread Directive.noConfusion Directive.noConfusion,
    Reading.closeBlock_of_block_none hblock]
  cases r.flavor <;> rfl

section Core

variable {a : Access} (ha : a.IsCore)
include ha

theorem oneLine_coreConfig {hostname : Option String} (hh : ∀ h ∈ hostname, IsWord h) :
    (coreConfig hostname a).OneLine := by
  have hbindings : ∀ b ∈ a.bindings, b.OneLine := fun b hb => by
    cases ha.bindings b hb with
    | @interface acl direction interface hacl h hi =>
      have hdirection : OneLine direction := by rcases h with rfl | rfl <;> decide
      exact { acl := hacl.oneLine, direction := hdirection, interface := hi.oneLine }
    | all hacl =>
      have hempty : OneLine "" := by decide
      have hglobal : OneLine "global" := by decide
      exact { acl := hacl.oneLine, direction := hglobal, interface := hempty }
  have hpolicies : ∀ p ∈ (coreConfig hostname a).policies, p.OneLine := by
    refine List.forall_mem_map.2 fun p hp => ?_
    obtain ⟨acl, rule, id, description, hacl, hrule, hd, rfl⟩ := ha.rules.exists_eq p hp
    have hone := hrule.oneLine
    refine { hone with name := ?_, description := fun d hd' => (hd d hd').2, sourceZone := ?_ }
    · rintro s ⟨⟩
      exact hacl.oneLine
    · intro zone hzone
      rcases Option.or_eq_some_iff.1 hzone with h | ⟨-, h⟩
      · exact hone.sourceZone zone h
      · obtain ⟨b, hb, rfl⟩ := Option.map_eq_some_iff.1 h
        exact (hbindings b (List.mem_of_find?_eq_some hb)).interface
  have hdevice : Device.OneLine {} := {}
  exact { hostname := fun h hmem => (hh h hmem).oneLine, device := hdevice
          policies := hpolicies, accessBindings := hbindings }

/-- **A rule stays in its list.** -/
theorem placement_coreConfig {origin : Dialect} (horigin : origin.isCisco = true)
    (hostname : Option String) {p : Policy} (hp : p ∈ a.policies) {acl : String}
    (hacl : p.name = some acl) :
    (placement (coreConfig hostname a) origin (Reading.joinPolicy a.bindings p)).1 = acl
      ∧ (a.bindings = [] →
        (placement (coreConfig hostname a) origin (Reading.joinPolicy a.bindings p)).2 = none) := by
  have hzone : (Reading.joinPolicy a.bindings p).sourceZone
      = (a.bindings.find? fun b => b.direction == "in" && p.name == some b.acl).map
          (·.interface) := by
    obtain ⟨acl, rule, id, description, -, hrule, -, rfl⟩ := ha.rules.exists_eq p hp
    cases hrule
    rfl
  have hname : (Reading.joinPolicy a.bindings p).name = some acl := hacl
  have hfilter : (some acl).filter (fun name => a.bindings.any (·.acl == name))
      = if a.bindings.any (·.acl == acl) then some acl else none := by
    rw [Option.filter_some]
  have hcbindings : (coreConfig hostname a).accessBindings = a.bindings := rfl
  unfold placement
  dsimp only
  rw [hname, hzone, hcbindings, hfilter]
  cases hbound : a.bindings.any (·.acl == acl) with
  | true =>
    refine ⟨rfl, fun hnil => ?_⟩
    rw [hnil] at hbound
    cases hbound
  | false =>
    have hnone : (a.bindings.find? fun b => b.direction == "in" && p.name == some b.acl) = none := by
      refine List.find?_eq_none.2 fun b hb h => ?_
      have hb' := List.any_eq_false.1 hbound b hb
      rw [hacl] at h
      simp only [Bool.and_eq_true, beq_iff_eq, Option.some.injEq] at h
      exact hb' (beq_iff_eq.2 h.2.symm)
    rw [hnone, horigin]
    exact ⟨rfl, fun _ => rfl⟩

/-- A rule is written into the list for everything if it is a rule of that list. -/
theorem exists_placement_eq_globalAcl_iff {origin : Dialect} (horigin : origin.isCisco = true)
    (hostname : Option String) :
    (∃ place ∈ (a.policies.map (Reading.joinPolicy a.bindings)).map
        (placement (coreConfig hostname a) origin), place.1 = globalAcl)
      ↔ ∃ p ∈ a.policies, p.name = some globalAcl := by
  have hkey : ∀ p ∈ a.policies, (placement (coreConfig hostname a) origin
      (Reading.joinPolicy a.bindings p)).1 = globalAcl ↔ p.name = some globalAcl := by
    intro p hp
    obtain ⟨acl, rule, id, description, -, -, -, hname⟩ := ha.rules.exists_eq p hp
    have hacl : p.name = some acl := hname ▸ rfl
    rw [(placement_coreConfig ha horigin hostname hp hacl).1, hacl, Option.some.injEq]
  rw [List.map_map]
  constructor
  · rintro ⟨place, hmem, hacl⟩
    obtain ⟨p, hp, rfl⟩ := List.mem_map.1 hmem
    exact ⟨p, hp, (hkey p hp).1 hacl⟩
  · rintro ⟨p, hp, hname⟩
    exact ⟨_, List.mem_map_of_mem hp, (hkey p hp).2 hname⟩

/-- **The lines of the bindings are read as the bindings that are written.** -/
theorem says_bindingLines_coreConfig {origin : Dialect} (horigin : origin.isCisco = true)
    (hostname : Option String) :
    Says (bindingLines (coreConfig hostname a) origin
        (a.policies.map (Reading.joinPolicy a.bindings)))
      { policies := a.policies } { policies := a.policies, bindings := a.writtenBindings } := by
  have hcbindings : (coreConfig hostname a).accessBindings = a.bindings := rfl
  rw [Access.writtenBindings, bindingLines, hcbindings]
  by_cases hnil : a.bindings = []
  · have hnone : ∀ place ∈ (a.policies.map (Reading.joinPolicy a.bindings)).map
        (placement (coreConfig hostname a) origin), place.2 = none := by
      rw [List.map_map]
      refine List.forall_mem_map.2 fun p hp => ?_
      obtain ⟨acl, rule, id, description, -, -, -, hname⟩ := ha.rules.exists_eq p hp
      exact (placement_coreConfig ha horigin hostname hp
        (hname ▸ rfl : p.name = some acl)).2 hnil
    have hiff := exists_placement_eq_globalAcl_iff ha horigin hostname
    rw [if_pos (List.isEmpty_iff.2 hnil), filterMap_placedBindingLine hnone]
    by_cases hglobal : ∃ p ∈ a.policies, p.name = some globalAcl
    · rw [if_pos (hiff.2 hglobal), if_pos ⟨hnil, hglobal⟩]
      exact says_bindingLine (.all (by decide)) { policies := a.policies }
    · rw [if_neg (mt hiff.1 hglobal), if_neg fun h => hglobal h.2, hnil]
      exact says_nil _
  · rw [if_neg (mt List.isEmpty_iff.1 hnil), if_neg fun h => hnil h.1]
    exact says_bindingLines ha.bindings { policies := a.policies }

omit ha in
/-- Where there are rules, a block of them is written, and of the bindings. -/
theorem accessLines_coreConfig (origin : Dialect) (hne : a.policies ≠ [])
    (hostname : Option String) :
    accessLines (coreConfig hostname a) origin
      = block ((a.policies.map (Reading.joinPolicy a.bindings)).flatMap
            (ruleLines (coreConfig hostname a) origin)
          ++ bindingLines (coreConfig hostname a) origin
            (a.policies.map (Reading.joinPolicy a.bindings))) := by
  have hrules : (coreConfig hostname a).effectivePolicies
      = a.policies.map (Reading.joinPolicy a.bindings) :=
    Config.effectivePolicies_of_ne_nil (mt List.map_eq_nil_iff.1 hne)
  unfold accessLines
  rw [hrules]
  split
  · next h => exact absurd (List.map_eq_nil_iff.1 h) hne
  · rfl

theorem says_accessLines {origin : Dialect} (horigin : origin.isCisco = true)
    (hne : a.policies ≠ []) (hostname : Option String) :
    Says (accessLines (coreConfig hostname a) origin) {}
      { policies := a.policies, bindings := a.writtenBindings } := by
  have hplace : ∀ p ∈ a.policies, ∀ acl, p.name = some acl →
      (placement (coreConfig hostname a) origin (Reading.joinPolicy a.bindings p)).1 = acl :=
    fun p hp acl hacl => (placement_coreConfig ha horigin hostname hp hacl).1
  rw [accessLines_coreConfig origin hne, block]
  exact ((says_rules _ origin a.bindings ha.rules hplace).append
    (says_bindingLines_coreConfig ha horigin hostname)).append (says_bang _)

theorem isCore_writtenBindings :
    Access.IsCore { policies := a.policies, bindings := a.writtenBindings } where
  rules := ha.rules
  bindings := by
    rw [Access.writtenBindings]
    split
    · exact List.forall_mem_singleton.2 (.all (by decide))
    · exact ha.bindings
  remark := nofun

omit ha in
theorem isWord_hostnameOr {hostname : Option String} (hh : ∀ h ∈ hostname, IsWord h)
    (flavor : Flavor) : IsWord ((coreConfig hostname a).hostnameOr flavor.defaultHostname) := by
  have hdefault : IsWord flavor.defaultHostname := by cases flavor <;> decide
  unfold Config.hostnameOr
  split
  · next h hhostname =>
    split
    · exact hdefault
    · exact hh h hhostname
  · exact hdefault

omit ha in
/-- Behind the header and the hostname, nothing but the access lists is written. -/
theorem writeLines_coreConfig (flavor : Flavor) (origin : Dialect) (hostname : Option String) :
    writeLines flavor origin (coreConfig hostname a)
      = headerLines flavor origin
        ++ (s!"hostname {(coreConfig hostname a).hostnameOr flavor.defaultHostname}" :: "!"
          :: accessLines (coreConfig hostname a) origin) := by
  have hparts : writeLines flavor origin (coreConfig hostname a)
      = headerLines flavor origin ++ identityLines flavor (coreConfig hostname a)
        ++ [] ++ [] ++ [] ++ [] ++ accessLines (coreConfig hostname a) origin
        ++ [] ++ [] ++ [] ++ [] ++ [] ++ [] ++ [] := by
    cases flavor <;> rfl
  have hidentity : identityLines flavor (coreConfig hostname a)
      = [s!"hostname {(coreConfig hostname a).hostnameOr flavor.defaultHostname}", "!"] := by
    cases flavor <;> rfl
  rw [hparts, hidentity]
  simp only [List.append_nil, List.append_assoc, List.cons_append, List.nil_append]

/-- **What either product writes is read back by it**, with one binding more if the list for
everything is not bound. -/
theorem read_write_coreConfig (flavor : Flavor) {origin : Dialect}
    (horigin : origin.isCisco = true) (hne : a.policies ≠ []) {hostname : Option String}
    (hh : ∀ h ∈ hostname, IsWord h) :
    ∃ h, IsWord h ∧ read flavor (write flavor origin (coreConfig hostname a))
      = coreConfig (some h) { policies := a.policies, bindings := a.writtenBindings } := by
  have hword := isWord_hostnameOr (a := a) hh flavor
  have hlines := writeLines_coreConfig (a := a) flavor origin hostname
  have hone := oneLine_accessLines (oneLine_coreConfig ha hh) origin
  generalize (coreConfig hostname a).hostnameOr flavor.defaultHostname = name at hword hlines
  let named : Reading :=
    { flavor := flavor, config := { hostname := some name } }
  have hheader : (Reading.start flavor).run (headerLines flavor origin) = Reading.start flavor := by
    rw [Reading.run_eq_withAccess rfl (isAccessLine_headerLines flavor origin),
      foldl_step_of_isQuiet fun l hl => (isIdle_headerLines flavor origin l hl).1]
    rfl
  have haccess : named.run ("!" :: accessLines (coreConfig hostname a) origin)
      = named.withAccess { policies := a.policies, bindings := a.writtenBindings } := by
    have hsays := (says_bang {}).append (says_accessLines ha horigin hne hostname)
    exact (Reading.run_eq_withAccess rfl hsays.lines).trans (congrArg named.withAccess hsays.foldl)
  have hlinesOne : ∀ l ∈ writeLines flavor origin (coreConfig hostname a), OneLine l := by
    rw [hlines]
    exact List.forall_mem_append.2
      ⟨fun l hl => (isIdle_headerLines flavor origin l hl).1.1, List.forall_mem_cons.2
        ⟨oneLine_append.2 ⟨by decide, hword.oneLine⟩, List.forall_mem_cons.2 ⟨by decide, hone⟩⟩⟩
  have hrun : (Reading.start flavor).run (writeLines flavor origin (coreConfig hostname a))
      = named.run ("!" :: accessLines (coreConfig hostname a) origin) := by
    rw [hlines, Reading.run_append, hheader, Reading.run_cons, step_hostname rfl hword]
    rfl
  refine ⟨name, hword, ?_⟩
  rw [read, write, Reading.run_lines_unlines _ hlinesOne, hrun, haccess]
  rfl

omit ha in
/-- Binding the list for everything to all interfaces gives no rule an interface. -/
theorem map_joinPolicy_writtenBindings :
    a.policies.map (Reading.joinPolicy a.writtenBindings)
      = a.policies.map (Reading.joinPolicy a.bindings) := by
  rw [Access.writtenBindings]
  split
  · next h =>
    rw [h.1]
    rfl
  · rfl

omit ha in
/-- What is bound once it is written stays as it is. -/
theorem writtenBindings_writtenBindings :
    Access.writtenBindings { policies := a.policies, bindings := a.writtenBindings }
      = a.writtenBindings := by
  rw [Access.writtenBindings]
  refine if_neg fun ⟨hnil, hglobal⟩ => ?_
  have hnil : a.writtenBindings = [] := hnil
  rw [Access.writtenBindings] at hnil
  split at hnil
  · cases hnil
  · next hnot => exact hnot ⟨hnil, hglobal⟩

end Core

/-! ## From one product to the other and back -/

/-- **Both products keep a core text.**  The rules are read back as they were, and so are the
bindings; only where there are none is the list for everything bound to all interfaces.  Writing
for the first product again changes nothing. -/
theorem coreText_exchange {text : String} (h : IsCoreText text) :
    let first := Dialect.ciscoAsa.read text
    let second := Dialect.ciscoFtd.read (Dialect.ciscoFtd.write .ciscoAsa first)
    let third := Dialect.ciscoAsa.read (Dialect.ciscoAsa.write .ciscoFtd second)
    (second.policies = first.policies
      ∧ second.accessBindings
        = if first.accessBindings = [] ∧ ∃ p ∈ first.policies, p.name = some globalAcl
          then [⟨globalAcl, "global", ""⟩] else first.accessBindings)
      ∧ third.policies = second.policies ∧ third.accessBindings = second.accessBindings := by
  intro first second third
  have hnone : ∀ h ∈ (none : Option String), IsWord h := nofun
  obtain ⟨hcore, hne⟩ := isCore_accessOf h
  have hread := read_coreText .asa h
  generalize accessOf text = a at hcore hne hread
  obtain ⟨name, hname, hftd⟩ :=
    read_write_coreConfig hcore .ftd (rfl : Dialect.ciscoAsa.isCisco = true) hne hnone
  have hsome : ∀ h ∈ some name, IsWord h := by
    rintro h ⟨⟩
    exact hname
  obtain ⟨name', -, hasa⟩ := read_write_coreConfig (isCore_writtenBindings hcore) .asa
    (rfl : Dialect.ciscoFtd.isCisco = true) hne hsome
  rw [writtenBindings_writtenBindings] at hasa
  have hfirst : first = coreConfig none a := hread
  have hsecond : second = coreConfig (some name) ⟨a.policies, a.writtenBindings, none⟩ := by
    change read .ftd (write .ftd .ciscoAsa first) = _
    rw [hfirst, hftd]
  have hthird : third = coreConfig (some name') ⟨a.policies, a.writtenBindings, none⟩ := by
    change read .asa (write .asa .ciscoFtd second) = _
    rw [hsecond, hasa]
  have hglobal : (∃ p ∈ (coreConfig none a).policies, p.name = some globalAcl)
      ↔ ∃ p ∈ a.policies, p.name = some globalAcl := by
    constructor
    · rintro ⟨p, hp, hname⟩
      obtain ⟨q, hq, rfl⟩ := List.mem_map.1 hp
      exact ⟨q, hq, hname⟩
    · rintro ⟨p, hp, hname⟩
      exact ⟨_, List.mem_map_of_mem hp, hname⟩
  rw [hfirst, hsecond, hthird]
  refine ⟨⟨map_joinPolicy_writtenBindings, ?_⟩, rfl, rfl⟩
  have hif : (if (coreConfig none a).accessBindings = []
        ∧ ∃ p ∈ (coreConfig none a).policies, p.name = some globalAcl
      then [⟨globalAcl, "global", ""⟩] else (coreConfig none a).accessBindings)
      = a.writtenBindings := by
    rw [Access.writtenBindings]
    exact ite_congr (propext (and_congr_right fun _ => hglobal)) (fun _ => rfl) fun _ => rfl
  exact hif.symm

/-! ### Two core texts -/

/-- Lines of words are a core text, if they are lines of the grammar and an entry is among them. -/
theorem isCoreText_of_lines {text : String} {wss : List (List String)}
    (htext : lines text = wss.map unwords) (hwords : ∀ ws ∈ wss, ∀ w ∈ ws, IsWord w)
    (hlines : ∀ ws ∈ wss, IsCoreLine ws) (hentry : ∃ ws ∈ wss, IsEntryLine ws) :
    IsCoreText text where
  unindented := by
    rw [htext]
    refine List.forall_mem_map.2 fun ws hws => ?_
    obtain ⟨w, ws, rfl⟩ : ∃ w vs, ws = w :: vs := by
      cases hlines ws hws with
      | remark | binding => exact ⟨_, _, rfl⟩
      | entry h => cases h; exact ⟨_, _, rfl⟩
    exact isIndented_unwords (hwords _ hws w List.mem_cons_self) ws
  lines := by
    rw [htext]
    refine List.forall_mem_map.2 fun ws hws => ?_
    rw [words_unwords_of_isWord (hwords ws hws)]
    exact hlines ws hws
  entry := by
    rw [htext]
    obtain ⟨ws, hws, h⟩ := hentry
    refine ⟨unwords ws, List.mem_map_of_mem hws, ?_⟩
    rw [words_unwords_of_isWord (hwords ws hws)]
    exact h

/-- A text with a remark, an entry with ports and flags, an entry without them in another list, and
a binding. -/
def boundText : String :=
  "access-list outside_in remark web servers\n"
    ++ "access-list outside_in line 2 extended permit tcp any host 10.0.0.5 gt 1023 log inactive\n"
    ++ "access-list dmz deny icmp 10.1.0.0 255.255.0.0 object-group lan\n"
    ++ "access-group outside_in in interface outside\n"

/-- The words of the lines of that text. -/
def boundWords : List (List String) :=
  [["access-list", "outside_in", "remark", "web", "servers"],
   ["access-list", "outside_in", "line", "2", "extended", "permit", "tcp", "any", "host",
    "10.0.0.5", "gt", "1023", "log", "inactive"],
   ["access-list", "dmz", "deny", "icmp", "10.1.0.0", "255.255.0.0", "object-group", "lan"],
   ["access-group", "outside_in", "in", "interface", "outside"]]

theorem isCoreText_boundText : IsCoreText boundText := by
  have htext : boundText = unlines (boundWords.map unwords) := rfl
  have hlines : lines boundText = boundWords.map unwords := by
    rw [htext]
    exact lines_unlines (by decide +kernel) (by decide +kernel)
  have hfirst : IsEntryLine ["access-list", "outside_in", "line", "2", "extended", "permit", "tcp",
      "any", "host", "10.0.0.5", "gt", "1023", "log", "inactive"] :=
    .intro "outside_in" (.inr ⟨"2", rfl⟩) (.inr rfl)
      (.ports .permit (.inl rfl) .any (.host (by decide)) (.gt (by decide)) (by simp [IsFlags]))
  have hsecond : IsEntryLine ["access-list", "dmz", "deny", "icmp", "10.1.0.0", "255.255.0.0",
      "object-group", "lan"] :=
    .intro "dmz" (.inl rfl) (.inl rfl)
      (.bare .deny (by decide) (.network (by decide) (by decide) (by decide))
        (.objectGroup (by decide)) (List.forall_mem_nil _))
  refine isCoreText_of_lines hlines (by decide) ?_ ⟨_, List.mem_cons_of_mem _ List.mem_cons_self, hfirst⟩
  exact List.forall_mem_cons.2 ⟨.remark "outside_in" (.inl rfl) ["web", "servers"],
    List.forall_mem_cons.2 ⟨.entry hfirst, List.forall_mem_cons.2 ⟨.entry hsecond,
      List.forall_mem_singleton.2 (.binding "outside_in" (.inl rfl) "outside")⟩⟩⟩

theorem coreText_exchange_boundText : IsCoreText boundText
    ∧ (let first := Dialect.ciscoAsa.read boundText
      let second := Dialect.ciscoFtd.read (Dialect.ciscoFtd.write .ciscoAsa first)
      let third := Dialect.ciscoAsa.read (Dialect.ciscoAsa.write .ciscoFtd second)
      (second.policies = first.policies
        ∧ second.accessBindings
          = if first.accessBindings = [] ∧ ∃ p ∈ first.policies, p.name = some globalAcl
            then [⟨globalAcl, "global", ""⟩] else first.accessBindings)
        ∧ third.policies = second.policies ∧ third.accessBindings = second.accessBindings) :=
  ⟨isCoreText_boundText, coreText_exchange isCoreText_boundText⟩

/-- The text with one entry, in the list for everything, which nothing binds. -/
def unboundText : String := "access-list global_access extended permit ip any any\n"

/-- The words of the only line of that text. -/
def unboundWords : List String :=
  ["access-list", globalAcl, "extended", "permit", "ip", anyText, anyText]

theorem lines_unboundText : lines unboundText = [unboundWords].map unwords := by
  have htext : unboundText = unlines ([unboundWords].map unwords) := rfl
  rw [htext]
  exact lines_unlines (by decide +kernel) (by decide +kernel)

theorem isCoreText_unboundText : IsCoreText unboundText := by
  have hentry : IsEntryLine unboundWords :=
    .intro globalAcl (.inl rfl) (.inr rfl)
      (.bare .permit (by decide) .any .any (List.forall_mem_nil _))
  exact isCoreText_of_lines lines_unboundText (by decide)
    (List.forall_mem_singleton.2 (.entry hentry)) ⟨_, List.mem_cons_self, hentry⟩

theorem accessOf_unboundText : ∃ rule, accessOf unboundText = ({} : Access).addEntry globalAcl rule := by
  have hwords : words (unwords unboundWords) = unboundWords := words_unwords_of_isWord (by decide)
  have hraw : isIndented (unwords unboundWords) = false := isIndented_unwords (by decide) _
  obtain ⟨rule, hrule⟩ : ∃ rule, readEntry ["permit", "ip", anyText, anyText] = some rule :=
    ⟨_, rfl⟩
  refine ⟨rule, ?_⟩
  rw [accessOf, lines_unboundText]
  refine (Access.step_accessList hraw hwords {}).trans ?_
  exact congrArg (fun r => Access.applyAcl {} globalAcl (readAclLine.ofEntry r)) hrule

/-- **The list for everything comes back bound** where it was not. -/
theorem accessBindings_unboundText : IsCoreText unboundText
    ∧ (Dialect.ciscoAsa.read unboundText).accessBindings = []
    ∧ (Dialect.ciscoFtd.read (Dialect.ciscoFtd.write .ciscoAsa
        (Dialect.ciscoAsa.read unboundText))).accessBindings
      = [⟨globalAcl, "global", ""⟩] := by
  obtain ⟨hcore, hne⟩ := isCore_accessOf isCoreText_unboundText
  have hread : Dialect.ciscoAsa.read unboundText = coreConfig none (accessOf unboundText) :=
    read_coreText .asa isCoreText_unboundText
  obtain ⟨name, -, hftd⟩ :=
    read_write_coreConfig hcore .ftd (rfl : Dialect.ciscoAsa.isCisco = true) hne
      (nofun : ∀ h ∈ (none : Option String), IsWord h)
  obtain ⟨rule, haccess⟩ := accessOf_unboundText
  refine ⟨isCoreText_unboundText, ?_, ?_⟩
  · rw [hread, haccess]
    rfl
  · change (read .ftd (write .ftd .ciscoAsa (Dialect.ciscoAsa.read unboundText))).accessBindings = _
    rw [hread, hftd, haccess]
    rfl

end FirewallConfig.Cisco
