import FirewallConfig.Proofs.Cisco.Groups

/-!
# Proofs/Cisco/Foreign — how the lines of a written text begin

A directive is known by its first word.  Each part of a written text has a few words that its lines
begin with (`Begins`), and so it says nothing that other words say: nothing but the headers of
interfaces and the lines of routes is about either (`exists_writeLines_eq_network`), and only one
of its parts is about tunnels (`exists_writeLines_eq_crypto`).
-/

namespace FirewallConfig.Cisco

open Text

/-- The line begins with one of the texts. -/
def Begins (starts : List String) (raw : String) : Prop := ∃ s ∈ starts, s.toList <+: raw.toList

instance (starts : List String) (raw : String) : Decidable (Begins starts raw) :=
  inferInstanceAs (Decidable (∃ s ∈ starts, s.toList <+: raw.toList))

/-- No directive of interfaces or routes begins the line. -/
def IsForeign (raw : String) : Prop := raw.toList.head? ≠ some 'i' ∧ raw.toList.head? ≠ some 'r'

instance (raw : String) : Decidable (IsForeign raw) := inferInstanceAs (Decidable (_ ∧ _))

section Begins

variable {starts : List String} {raw : String}

theorem Begins.append (h : Begins starts raw) (t : String) : Begins starts (raw ++ t) := by
  obtain ⟨s, hs, hraw⟩ := h
  rw [Begins, String.toList_append]
  exact ⟨s, hs, hraw.trans (List.prefix_append _ _)⟩

theorem Begins.mono (h : Begins starts raw) {more : List String} (hsub : starts ⊆ more) :
    Begins more raw := by
  obtain ⟨s, hs, hraw⟩ := h
  exact ⟨s, hsub hs, hraw⟩

/-- A word that a line begins with stays where the end is trimmed. -/
theorem Begins.trimEnd {word : String} (hword : IsWord word) {t : String} :
    Begins [word] (Text.trimEnd (word ++ t)) := by
  refine ⟨word, List.mem_singleton_self word, ?_⟩
  rw [toList_trimEnd, String.toList_append, hword.solid.trimEnd_append]
  exact List.prefix_append _ _

/-- **What a line begins with decides how it begins.** -/
theorem Begins.isForeign (h : Begins starts raw)
    (hstarts : ∀ s ∈ starts, IsForeign s ∧ s ≠ "") : IsForeign raw := by
  obtain ⟨s, hs, rest, hraw⟩ := h
  obtain ⟨hforeign, hne⟩ := hstarts s hs
  have hline : raw = s ++ String.ofList rest := by
    rw [← String.toList_inj, String.toList_append, String.toList_ofList, hraw]
  rw [IsForeign, hline, head?_toList_append hne]
  exact hforeign

/-- **A line whose first word is another one** does not have this first word. -/
theorem Begins.head?_words_ne (h : Begins starts raw) (hindented : isIndented raw = false)
    {word : String}
    (hstarts : ∀ s ∈ starts, ¬ s.toList <+: word.toList ∧ ¬ word.toList <+: s.toList) :
    (words raw).head? ≠ some word := by
  intro hhead
  obtain ⟨s, hs, hraw⟩ := h
  have hword : word.toList <+: raw.toList := isPrefix_of_words hindented hhead
  rcases List.prefix_or_prefix_of_prefix hraw hword with hshort | hlong
  · exact (hstarts s hs).1 hshort
  · exact (hstarts s hs).2 hlong

theorem begins_of_mem {s : String} (hs : s ∈ starts) (t : String) : Begins starts (s ++ t) :=
  ⟨s, hs, by rw [String.toList_append]; exact List.prefix_append _ _⟩

end Begins

theorem begins_bang {starts : List String} (h : "!" ∈ starts) : Begins starts "!" :=
  ⟨"!", h, List.prefix_rfl⟩

theorem begins_notConverted (what : String) : Begins ["!"] (notConverted what) :=
  Begins.append (by decide) what

/-- A word that a text begins with, where the rest is put together of several. -/
theorem begins_unwords (w : String) (ws : List String) : Begins [w] (unwords (w :: ws)) := by
  obtain ⟨cs, hcs⟩ := toList_unwords_cons w ws
  exact ⟨w, List.mem_singleton_self w, hcs ▸ List.prefix_append _ _⟩

theorem begins_of_head? {starts : List String} {c : Char} (hstarts : String.singleton c ∈ starts)
    {raw : String} (h : raw.toList.head? = some c) : Begins starts raw := by
  obtain ⟨cs, hcs⟩ := List.head?_eq_some_iff.1 h
  exact ⟨_, hstarts, cs, by rw [hcs, String.toList_singleton]; rfl⟩

/-- All lines below a header begin in one of two ways. -/
theorem holdsBelow_begins {starts : List String} (hblank : " " ∈ starts) (hbang : "!" ∈ starts) :
    HoldsBelow (Begins starts) where
  indented := begins_of_head? hblank
  bang := begins_of_head? hbang

section Lists

variable {starts : List String}

theorem forall_begins_map {α : Type} {f : α → String} (h : ∀ a, Begins starts (f a))
    (as : List α) : ∀ l ∈ as.map f, Begins starts l := List.forall_mem_map.2 fun a _ => h a

theorem forall_begins_map_append {s : String} (hs : Begins starts s) (ts : List String) :
    ∀ l ∈ ts.map (s ++ ·), Begins starts l := forall_begins_map (fun t => hs.append t) ts

theorem forall_begins_block {ls : List String} (hbang : "!" ∈ starts)
    (h : ∀ l ∈ ls, Begins starts l) : ∀ l ∈ block ls, Begins starts l :=
  forall_mem_block (begins_bang hbang) h

theorem forall_begins_part {ls : List String} (hbang : "!" ∈ starts)
    (h : ∀ l ∈ ls, Begins starts l) : ∀ l ∈ part ls, Begins starts l :=
  forall_mem_part (begins_bang hbang) h

end Lists

/-! ## Objects, groups and services -/

/-- What the lines of objects, groups and services begin with. -/
def objectStarts : List String := ["object", " ", "!"]

theorem begins_objectLines (o : AddressObject) : ∀ l ∈ objectLines o, Begins objectStarts l :=
  (holdsBelow_begins (by decide) (by decide)).forall_mem_objectLines
    (fun _ => Begins.append (by decide) _) o

theorem begins_groupLines (c : Config) (g : AddressGroup) :
    ∀ l ∈ groupLines c g, Begins objectStarts l :=
  (holdsBelow_begins (by decide) (by decide)).forall_mem_groupLines
    (fun _ => Begins.append (by decide) _) c g

theorem begins_serviceLines (s : ServiceObject) : ∀ l ∈ serviceLines s, Begins objectStarts l :=
  (holdsBelow_begins (by decide) (by decide)).forall_mem_serviceLines
    (fun _ => Begins.append (by decide) _) (fun _ _ => by simp [Begins, objectStarts]) s

/-! ## Access lists and translation rules -/

/-- What the lines of access lists begin with. -/
def accessStarts : List String := ["access-list", "access-group", "!"]

theorem begins_accessLines (c : Config) (origin : Dialect) :
    ∀ l ∈ accessLines c origin, Begins accessStarts l := by
  have hrule (p : Policy) : ∀ l ∈ ruleLines c origin p, Begins accessStarts l := by
    refine List.forall_mem_append.2 ⟨List.forall_mem_append.2 ⟨?_, ?_⟩, ?_⟩
    · exact forall_begins_map (fun text => by simp [Begins, accessStarts]) _
    · split
      · exact List.forall_mem_nil _
      · exact List.forall_mem_singleton.2 (by simp [Begins, accessStarts])
    · exact forall_begins_map (fun e => (begins_unwords _ _).mono (by simp [accessStarts])) _
  have hbinding (rules : List Policy) : ∀ l ∈ bindingLines c origin rules, Begins accessStarts l := by
    rw [bindingLines]
    split
    · refine List.forall_mem_filterMap.2 fun place _ l hl => ?_
      unfold placedBindingLine at hl
      split at hl
      · cases hl
        simp [Begins, accessStarts]
      · obtain ⟨-, ⟨⟩⟩ := Option.ite_none_right_eq_some.1 hl
        simp [Begins, accessStarts]
    · refine forall_begins_map (fun b => ?_) _
      rw [bindingLine]
      split <;> simp [Begins, accessStarts]
  unfold accessLines
  split
  · exact List.forall_mem_nil _
  · exact forall_begins_block (by decide) (List.forall_mem_append.2
      ⟨List.forall_mem_flatMap.2 fun p _ => hrule p, hbinding _⟩)

/-- What the lines of translation rules begin with. -/
def natStarts : List String := ["nat", "object", " ", "!"]

theorem begins_natLines (c : Config) (rule : NatRule) : ∀ l ∈ natLines c rule, Begins natStarts l :=
  (holdsBelow_begins (by decide) (by decide)).forall_mem_natLines
    (fun _ => Begins.append (by decide) _) (fun _ => Begins.append (by decide) _) c rule

/-! ## Tunnels and servers -/

/-- What the lines of tunnels and what belongs to them begin with. -/
def cryptoStarts : List String :=
  ["crypto", "access-list", "group-policy", "tunnel-group", " ", "!"]

theorem begins_tunnelAcl (c : Config) (t : Tunnel) :
    ∀ l ∈ (tunnelAcl c t).1, Begins ["access-list"] l := by
  unfold tunnelAcl
  split
  · exact List.forall_mem_nil _
  · dsimp only
    split
    · exact List.forall_mem_nil _
    · exact forall_begins_map (fun s => by simp [Begins]) _

theorem begins_tunnelLines (c : Config) (position : Nat) (t : Tunnel) (sets : String) :
    ∀ l ∈ tunnelLines c position t sets, Begins cryptoStarts l := by
  have hacl : ∀ l ∈ (tunnelAcl c t).1, Begins cryptoStarts l := fun l hl =>
    (begins_tunnelAcl c t l hl).mono (by decide)
  unfold tunnelLines
  dsimp only
  refine List.forall_mem_append.2 ⟨List.forall_mem_append.2 ⟨List.forall_mem_append.2
    ⟨List.forall_mem_append.2 ⟨?_, hacl⟩, ?_⟩, ?_⟩, ?_⟩
  · exact forall_begins_map_append (by decide) _
  · exact forall_begins_map (fun acl => by simp [Begins, cryptoStarts]) _
  · exact forall_begins_map (fun peer => by simp [Begins, cryptoStarts]) _
  · exact List.forall_mem_singleton.2 (by simp [Begins, cryptoStarts])

/-- What the lines of group policies begin with. -/
def groupPolicyStarts : List String := ["group-policy", " "]

theorem begins_groupPolicyLines (g : GroupPolicy) :
    ∀ l ∈ groupPolicyLines g, Begins groupPolicyStarts l := by
  unfold groupPolicyLines
  dsimp only
  refine List.forall_mem_cons.2 ⟨by simp [Begins, groupPolicyStarts], ?_⟩
  split
  · exact List.forall_mem_nil _
  · refine List.forall_mem_cons.2 ⟨by simp [Begins, groupPolicyStarts], ?_⟩
    exact List.forall_mem_append.2
      ⟨forall_begins_map_append (by decide) _, forall_begins_map_append (by decide) _⟩

/-- What the lines of tunnel groups begin with. -/
def tunnelGroupStarts : List String := ["tunnel-group", " ", "!"]

theorem begins_tunnelGroupLines (g : TunnelGroup) :
    ∀ l ∈ tunnelGroupLines g, Begins tunnelGroupStarts l := by
  refine List.forall_mem_append.2 ⟨List.forall_mem_cons.2 ⟨by simp [Begins, tunnelGroupStarts],
    List.forall_mem_flatMap.2 fun policy _ => by simp [Begins, tunnelGroupStarts]⟩,
    List.forall_mem_flatMap.2 fun key _ => ?_⟩
  rw [keyLines]
  split
  · exact List.forall_mem_singleton.2 ((begins_notConverted _).mono (by decide))
  · simp [Begins, tunnelGroupStarts]

theorem begins_cryptoLines (c : Config) : ∀ l ∈ cryptoLines c, Begins cryptoStarts l := by
  have hpolicy (p : IkePolicy) : ∀ l ∈ ikePolicyLines p, Begins cryptoStarts l := by
    simp [ikePolicyLines, block, Begins, cryptoStarts]
  have hset (s : TransformSet) : Begins cryptoStarts (transformSetLine s) := by
    unfold transformSetLine
    generalize s!"{s.protocol}-{s.encryption}" = encryption
    generalize s!"{s.protocol}-{s.hash}-hmac" = hash
    simp only [String.append_assoc, toString_text]
    exact Begins.append (by decide) _
  have hbinding : ∀ l ∈ mapBindingLines (mapBindings c), Begins cryptoStarts l := by
    unfold mapBindingLines
    generalize mapBindings c = bindings
    refine List.forall_mem_append.2
      ⟨List.forall_mem_map.2 fun b _ => ?_, List.forall_mem_map.2 fun interface _ => ?_⟩
    · simp [Begins, cryptoStarts]
    · simp [Begins, cryptoStarts]
  exact forall_mem_cryptoLines (by decide) (fun p _ => hpolicy p) (fun s _ => hset s)
    (fun p _ position => begins_tunnelLines c position p.1 p.2) hbinding
    (fun g _ l hl => (begins_groupPolicyLines g l hl).mono (by decide))
    fun g _ l hl => (begins_tunnelGroupLines g l hl).mono (by decide)

/-- What the lines of servers begin with. -/
def serverStarts : List String := ["aaa-server", " ", "!"]

theorem begins_serverLines (c : Config) (s : AaaServer) :
    ∀ l ∈ serverLines c s, Begins serverStarts l := by
  refine forall_begins_block (by decide) (List.forall_mem_cons.2 ⟨by simp [Begins, serverStarts],
    List.forall_mem_flatMap.2 fun host _ =>
      List.forall_mem_append.2 ⟨by simp [Begins, serverStarts], ?_⟩⟩)
  exact forall_begins_map_append (by decide) _

theorem begins_managedElsewhereLines (c : Config) :
    ∀ l ∈ managedElsewhereLines c, Begins ["!"] l :=
  forall_begins_part (by decide) (List.forall_mem_append.2
    ⟨forall_begins_map (fun _ => begins_notConverted _) _,
      forall_begins_map (fun _ => begins_notConverted _) _⟩)

/-! ## The management plane, and the rest -/

/-- What the lines of accounts begin with. -/
def userStarts : List String := ["username", "!"]

theorem begins_userLine (u : User) : Begins userStarts (userLine u) := by
  unfold userLine
  split <;> simp [Begins, userStarts]

theorem begins_userLines (us : List User) : ∀ l ∈ part (us.map userLine), Begins userStarts l :=
  forall_begins_part (by decide) (forall_begins_map begins_userLine _)

theorem begins_accessSettingLine {command : String} (hcommand : IsWord command)
    (s : AccessSetting) : Begins [command] (accessSettingLine command s) := by
  cases s with
  | allow address mask interface =>
    simp only [accessSettingLine, String.append_assoc, toString_text]
    exact begins_of_mem (List.mem_singleton_self _) _
  | option key value =>
    simp only [accessSettingLine, String.append_assoc, toString_text]
    exact Begins.trimEnd hcommand

/-- What the lines of the management plane begin with. -/
def managementStarts : List String := ["logging", "snmp-server", "ssh", "http", "clock", "!"]

theorem begins_managementLines (c : Config) :
    ∀ l ∈ managementLines c, Begins managementStarts l := by
  have hlog {t : LogTarget} {l : String} (h : logLine c t = some l) : Begins managementStarts l := by
    unfold logLine at h
    split at h
    · cases h
      simp [Begins, managementStarts]
    · cases h
    · cases h
      split <;> simp [Begins, managementStarts]
  have hsnmp (s : SnmpSetting) : Begins managementStarts (snmpLine c s) := by
    unfold snmpLine
    split <;> simp [Begins, managementStarts]
  have haccess {command : String} (hword : IsWord command) (hstart : command ∈ managementStarts)
      (s : AccessSetting) : Begins managementStarts (accessSettingLine command s) :=
    (begins_accessSettingLine hword s).mono (List.forall_mem_singleton.2 hstart)
  unfold managementLines
  dsimp only
  split
  · exact List.forall_mem_nil _
  · refine forall_begins_block (by decide) (List.forall_mem_append.2 ⟨List.forall_mem_append.2
      ⟨List.forall_mem_append.2 ⟨List.forall_mem_append.2 ⟨List.forall_mem_append.2
        ⟨?_, List.forall_mem_filterMap.2 fun t _ l hl => hlog hl⟩, forall_begins_map hsnmp _⟩,
        forall_begins_map (haccess (by decide) (by decide)) _⟩,
        forall_begins_map (haccess (by decide) (by decide)) _⟩,
        forall_begins_map (fun s => by simp [Begins, managementStarts]) _⟩)
    split
    · exact List.forall_mem_singleton.2 (by decide)
    · exact List.forall_mem_nil _

/-- What the lines of profiles begin with. -/
def profileStarts : List String := profileKinds ++ [" ", "!"]

theorem begins_profileLines {p : SecurityProfile} (hkind : p.kind ∈ profileKinds) :
    ∀ l ∈ profileLines p, Begins profileStarts l := by
  have hheader : Begins profileStarts s!"{p.kind} {p.name}" := by
    simp only [String.append_assoc, toString_text]
    exact begins_of_mem (List.mem_append_left _ hkind) _
  exact forall_begins_block (by decide)
    (List.forall_mem_cons.2 ⟨hheader, forall_begins_map_append (by decide) _⟩)

theorem begins_unmappedLines (c : Config) : ∀ l ∈ unmappedLines c, Begins ["!"] l := by
  refine forall_begins_part (by decide) (List.forall_mem_append.2
    ⟨forall_begins_map (fun a => ?_) _, forall_begins_map (fun _ => begins_notConverted _) _⟩)
  split <;> exact begins_notConverted _

/-- What the lines that name the device begin with. -/
def identityStarts : List String := ["hostname", "domain-name", "enable", "passwd", "!"]

theorem begins_identityLines (flavor : Flavor) (c : Config) :
    ∀ l ∈ identityLines flavor c, Begins identityStarts l := by
  refine forall_begins_block (by decide) (List.forall_mem_append.2 ⟨List.forall_mem_append.2
    ⟨List.forall_mem_cons.2 ⟨Begins.append (by decide) _,
      forall_begins_map_append (by decide) _⟩, ?_⟩,
    forall_begins_map (fun _ => (begins_notConverted _).mono (by decide)) _⟩)
  cases flavor with
  | asa =>
    exact List.forall_mem_append.2
      ⟨forall_begins_map_append (by decide) _, forall_begins_map_append (by decide) _⟩
  | ftd => exact List.forall_mem_nil _

theorem begins_headerLines (flavor : Flavor) (origin : Dialect) :
    ∀ l ∈ headerLines flavor origin, Begins ["!"] l := by
  simp [headerLines, block, Begins]

/-! ## Interfaces and routes -/

/-- What the lines of interfaces begin with. -/
def interfaceStarts : List String := ["interface", " ", "!"]

theorem begins_interfaceLines (c : Config) (i : Interface) :
    ∀ l ∈ interfaceLines c i, Begins interfaceStarts l := by
  unfold interfaceLines
  generalize nameif c i = name
  dsimp only
  refine forall_begins_block (by decide) (List.forall_mem_append.2 ⟨List.forall_mem_append.2
    ⟨List.forall_mem_append.2 ⟨List.forall_mem_append.2 ⟨List.forall_mem_append.2
      ⟨List.forall_mem_cons.2 ⟨Begins.append (by decide) _, forall_begins_map_append (by decide) _⟩,
      forall_begins_map (fun vlan => by simp [Begins, interfaceStarts]) _⟩,
      List.forall_mem_singleton.2 (by simp [Begins, interfaceStarts])⟩,
      forall_begins_map (fun level => by simp [Begins, interfaceStarts]) _⟩,
      List.forall_mem_singleton.2 ?_⟩, ?_⟩)
  · split <;> simp [Begins, interfaceStarts]
  · split <;> simp [Begins, interfaceStarts]

/-- What the lines of routes begin with. -/
def routeStarts : List String := ["route", "!"]

theorem begins_routeLine (c : Config) (r : Route) : Begins routeStarts (routeLine c r) := by
  unfold routeLine
  generalize nameifOr c egress r.interface = interface
  dsimp only
  split <;> simp [Begins, routeStarts, notConverted]

/-! ## The whole text -/

/-- What all lines begin with that are about no tunnel. -/
def plainStarts : List String :=
  identityStarts ++ interfaceStarts ++ objectStarts ++ accessStarts ++ routeStarts ++ natStarts
    ++ serverStarts ++ userStarts ++ managementStarts ++ profileStarts

section Whole

variable {c : Config} (hkinds : ∀ p ∈ c.securityProfiles, p.kind ∈ profileKinds)
include hkinds

theorem begins_securityProfileLines :
    ∀ l ∈ c.securityProfiles.flatMap profileLines, Begins profileStarts l :=
  List.forall_mem_flatMap.2 fun p hp => begins_profileLines (hkinds p hp)

/-- **What stands around the interfaces and the routes** of a written text is about neither. -/
theorem exists_writeLines_eq_network (flavor : Flavor) (origin : Dialect) :
    ∃ before between after, writeLines flavor origin c
        = before ++ (c.interfaces.flatMap (interfaceLines c)
          ++ (between ++ (part (c.routes.map (routeLine c)) ++ after)))
      ∧ (∀ l ∈ before, IsForeign l) ∧ (∀ l ∈ between, IsForeign l) ∧ ∀ l ∈ after, IsForeign l := by
  have hforeign {starts : List String} {ls : List String} (h : ∀ l ∈ ls, Begins starts l)
      (hstarts : ∀ s ∈ starts, IsForeign s ∧ s ≠ "") : ∀ l ∈ ls, IsForeign l :=
    fun l hl => (h l hl).isForeign hstarts
  have hflat {α : Type} {starts : List String} {as : List α} {f : α → List String}
      (h : ∀ a, ∀ l ∈ f a, Begins starts l) (hstarts : ∀ s ∈ starts, IsForeign s ∧ s ≠ "") :
      ∀ l ∈ as.flatMap f, IsForeign l :=
    hforeign (List.forall_mem_flatMap.2 fun a _ => h a) hstarts
  have hown : ∀ l ∈ ownLines c flavor, IsForeign l := by
    cases flavor with
    | asa =>
      exact List.forall_mem_append.2
        ⟨hforeign (begins_cryptoLines c) (by decide), hflat (begins_serverLines c) (by decide)⟩
    | ftd => exact hforeign (begins_managedElsewhereLines c) (by decide)
  refine ⟨headerLines flavor origin ++ identityLines flavor c,
    c.addressObjects.flatMap objectLines ++ c.addressGroups.flatMap (groupLines c)
      ++ c.services.flatMap serviceLines ++ accessLines c origin,
    c.nat.flatMap (natLines c) ++ ownLines c flavor ++ part (c.users.map userLine)
      ++ managementLines c ++ c.securityProfiles.flatMap profileLines ++ unmappedLines c, ?_, ?_, ?_,
    ?_⟩
  · cases flavor <;> simp only [writeLines, ownLines, List.append_assoc]
  · exact List.forall_mem_append.2 ⟨hforeign (begins_headerLines flavor origin) (by decide),
      hforeign (begins_identityLines flavor c) (by decide)⟩
  · simp only [List.forall_mem_append]
    exact ⟨⟨⟨hflat begins_objectLines (by decide), hflat (begins_groupLines c) (by decide)⟩,
      hflat begins_serviceLines (by decide)⟩, hforeign (begins_accessLines c origin) (by decide)⟩
  · simp only [List.forall_mem_append]
    exact ⟨⟨⟨⟨⟨hflat (begins_natLines c) (by decide), hown⟩,
      hforeign (begins_userLines c.users) (by decide)⟩,
      hforeign (begins_managementLines c) (by decide)⟩,
      hforeign (begins_securityProfileLines hkinds) (by decide)⟩,
      hforeign (begins_unmappedLines c) (by decide)⟩

/-- **What stands around the tunnels** of a written text is about none. -/
theorem exists_writeLines_eq_crypto (origin : Dialect) :
    ∃ before after, writeLines .asa origin c = before ++ (cryptoLines c ++ after)
      ∧ (∀ l ∈ before, Begins plainStarts l) ∧ ∀ l ∈ after, Begins plainStarts l := by
  have hplain {starts : List String} {ls : List String} (h : ∀ l ∈ ls, Begins starts l)
      (hstarts : starts ⊆ plainStarts) : ∀ l ∈ ls, Begins plainStarts l :=
    fun l hl => (h l hl).mono hstarts
  have hflat {α : Type} {starts : List String} {as : List α} {f : α → List String}
      (h : ∀ a, ∀ l ∈ f a, Begins starts l) (hstarts : starts ⊆ plainStarts) :
      ∀ l ∈ as.flatMap f, Begins plainStarts l :=
    hplain (List.forall_mem_flatMap.2 fun a _ => h a) hstarts
  refine ⟨headerLines .asa origin ++ identityLines .asa c ++ c.interfaces.flatMap (interfaceLines c)
      ++ c.addressObjects.flatMap objectLines ++ c.addressGroups.flatMap (groupLines c)
      ++ c.services.flatMap serviceLines ++ accessLines c origin
      ++ part (c.routes.map (routeLine c)) ++ c.nat.flatMap (natLines c),
    c.aaaServers.flatMap (serverLines c) ++ part (c.users.map userLine) ++ managementLines c
      ++ c.securityProfiles.flatMap profileLines ++ unmappedLines c, ?_, ?_, ?_⟩
  · simp only [writeLines, List.append_assoc]
  · have hroutes : ∀ l ∈ part (c.routes.map (routeLine c)), Begins routeStarts l :=
      forall_begins_part (by decide) (forall_begins_map (begins_routeLine c) _)
    simp only [List.forall_mem_append]
    exact ⟨⟨⟨⟨⟨⟨⟨⟨hplain (begins_headerLines .asa origin) (by decide),
      hplain (begins_identityLines .asa c) (by decide)⟩,
      hflat (begins_interfaceLines c) (by decide)⟩, hflat begins_objectLines (by decide)⟩,
      hflat (begins_groupLines c) (by decide)⟩, hflat begins_serviceLines (by decide)⟩,
      hplain (begins_accessLines c origin) (by decide)⟩, hplain hroutes (by decide)⟩,
      hflat (begins_natLines c) (by decide)⟩
  · simp only [List.forall_mem_append]
    exact ⟨⟨⟨⟨hflat (begins_serverLines c) (by decide),
      hplain (begins_userLines c.users) (by decide)⟩,
      hplain (begins_managementLines c) (by decide)⟩,
      hplain (begins_securityProfileLines hkinds) (by decide)⟩,
      hplain (begins_unmappedLines c) (by decide)⟩

end Whole

end FirewallConfig.Cisco
