import FirewallConfig.Cisco.Writer
import FirewallConfig.Proofs.Cisco.Access
import FirewallConfig.Proofs.Config.OneLine

/-!
# Proofs/Cisco/Lines — the lines that are not about access lists

A line is **quiet** if it holds no line feed and does not begin with the letter of the two
directives of access lists, and **idle** if it does not begin with the letter of objects and groups
either.  Everything that is written for the managed product is quiet but its access lists and the
profiles that were read from such a text, and so what is read back of access lists is what their own
lines say (`accessOf_write`).
-/

namespace FirewallConfig.Cisco

open Text

/-- The line holds no line feed, and no directive of access lists begins it. -/
def IsQuiet (raw : String) : Prop := OneLine raw ∧ raw.toList.head? ≠ some 'a'

instance (raw : String) : Decidable (IsQuiet raw) :=
  inferInstanceAs (Decidable (OneLine raw ∧ raw.toList.head? ≠ some 'a'))

/-- The line is quiet, and no directive of objects or groups begins it. -/
def IsIdle (raw : String) : Prop := IsQuiet raw ∧ raw.toList.head? ≠ some 'o'

instance (raw : String) : Decidable (IsIdle raw) :=
  inferInstanceAs (Decidable (IsQuiet raw ∧ raw.toList.head? ≠ some 'o'))

/-- The line holds no line feed, and no directive of objects or groups begins it. -/
def IsApart (raw : String) : Prop := OneLine raw ∧ raw.toList.head? ≠ some 'o'

instance (raw : String) : Decidable (IsApart raw) :=
  inferInstanceAs (Decidable (OneLine raw ∧ raw.toList.head? ≠ some 'o'))

theorem IsIdle.isApart {raw : String} (h : IsIdle raw) : IsApart raw := ⟨h.1.1, h.2⟩

/-- What is put together begins as its first part does. -/
theorem head?_toList_append {s : String} (hs : s ≠ "") (t : String) :
    (s ++ t).toList.head? = s.toList.head? := by
  obtain ⟨c, cs, hlist⟩ := List.exists_cons_of_ne_nil (mt String.toList_eq_nil_iff.1 hs)
  rw [String.toList_append, hlist]
  rfl

theorem IsQuiet.append {s t : String} (hs : IsQuiet s ∧ s ≠ "") (ht : OneLine t) :
    IsQuiet (s ++ t) :=
  ⟨oneLine_append.2 ⟨hs.1.1, ht⟩, by rw [head?_toList_append hs.2]; exact hs.1.2⟩

theorem IsIdle.append {s t : String} (hs : IsIdle s ∧ s ≠ "") (ht : OneLine t) :
    IsIdle (s ++ t) :=
  ⟨IsQuiet.append ⟨hs.1.1, hs.2⟩ ht, by rw [head?_toList_append hs.2]; exact hs.1.2⟩

theorem IsApart.append {s t : String} (hs : IsApart s ∧ s ≠ "") (ht : OneLine t) :
    IsApart (s ++ t) :=
  ⟨oneLine_append.2 ⟨hs.1.1, ht⟩, by rw [head?_toList_append hs.2]; exact hs.1.2⟩

/-- **A quiet line says nothing of access lists.** -/
theorem IsQuiet.step_eq {raw : String} (h : IsQuiet raw) (a : Access) : a.step raw = a := by
  cases hraw : isIndented raw with
  | true => exact Access.step_of_isIndented hraw a
  | false =>
    have hword {word : String} (hfirst : word.toList.head? = some 'a') :
        (words raw).head? ≠ some word := fun hhead =>
      h.2 ((head?_of_words hraw hhead).trans hfirst)
    exact Access.step_of_head (hword rfl) (hword rfl) a

theorem foldl_step_of_isQuiet {ls : List String} (h : ∀ l ∈ ls, IsQuiet l) (a : Access) :
    ls.foldl Access.step a = a := by
  induction ls with
  | nil => rfl
  | cons l ls ih =>
    obtain ⟨hl, hls⟩ := List.forall_mem_cons.1 h
    rw [List.foldl_cons, hl.step_eq, ih hls]

/-! ## Blocks -/

theorem forall_mem_block {P : String → Prop} (hbang : P "!") {ls : List String}
    (h : ∀ l ∈ ls, P l) : ∀ l ∈ block ls, P l :=
  List.forall_mem_append.2 ⟨h, List.forall_mem_singleton.2 hbang⟩

theorem forall_mem_part {P : String → Prop} (hbang : P "!") {ls : List String}
    (h : ∀ l ∈ ls, P l) : ∀ l ∈ part ls, P l := by
  rw [part]
  split
  · exact List.forall_mem_nil _
  · exact forall_mem_block hbang h

theorem isIdle_notConverted {what : String} (h : OneLine what) : IsIdle (notConverted what) :=
  IsIdle.append (by decide) h

/-! ## Interfaces -/

section Nameif

variable {c : Config}

theorem oneLine_nameif {i : Interface} (hi : i.OneLine) : OneLine (nameif c i) := by
  rw [nameif]
  split
  · next hnickname => exact hi.nickname _ (Option.filter_eq_some_iff.1 hnickname).1
  · next hzone => exact hi.zone _ (Option.filter_eq_some_iff.1 hzone).1
  · rw [withoutSlashes, oneLine_ofList, List.mem_map]
    rintro ⟨d, hd, heq⟩
    split at heq
    · exact absurd heq (by decide)
    · exact hi.name (heq ▸ hd)

variable (hc : c.OneLine)
include hc

theorem oneLine_nameifOf {reference : String} (h : OneLine reference) :
    OneLine (nameifOf c reference) := by
  rw [nameifOf]
  split
  · next i hi => exact oneLine_nameif (hc.findInterface? hi)
  · exact h

theorem oneLine_nameifOr {default : String} (hd : OneLine default) {reference : Option String}
    (h : ∀ s ∈ reference, OneLine s) : OneLine (nameifOr c default reference) := by
  cases reference with
  | none => exact hd
  | some reference => exact oneLine_nameifOf hc (h reference rfl)

end Nameif

theorem isIdle_interfaceLines (c : Config) {i : Interface} (hi : i.OneLine) :
    ∀ l ∈ interfaceLines c i, IsIdle l := by
  have hname : OneLine (nameif c i) := oneLine_nameif hi
  have hshutdown : ∀ l ∈ if i.enabled then [] else [" shutdown"], IsIdle l := by
    cases i.enabled
    · exact List.forall_mem_singleton.2 (by decide)
    · exact List.forall_mem_nil _
  have hvlan : ∀ l ∈ i.vlan.toList.map (s!" vlan {·}"), IsIdle l :=
    List.forall_mem_map.2 fun vlan _ => IsIdle.append (by decide) (by simp)
  have hlevel : ∀ l ∈ (securityLevel c i).toList.map (s!" security-level {·}"), IsIdle l :=
    List.forall_mem_map.2 fun level _ => IsIdle.append (by decide) (by simp)
  have hcomment : ∀ l ∈ i.comment.toList.map (" description " ++ ·), IsIdle l :=
    List.forall_mem_map.2 fun s hs =>
      IsIdle.append (by decide) (hi.comment s (Option.mem_toList.1 hs))
  have hhead : ∀ l ∈ s!"interface {i.name}" :: i.comment.toList.map (" description " ++ ·),
      IsIdle l := List.forall_mem_cons.2 ⟨IsIdle.append (by decide) hi.name, hcomment⟩
  have hnameif : ∀ l ∈ [s!" nameif {nameif c i}"], IsIdle l :=
    List.forall_mem_singleton.2 (IsIdle.append (by decide) hname)
  refine forall_mem_block (by decide) (List.forall_mem_append.2 ⟨List.forall_mem_append.2
    ⟨List.forall_mem_append.2 ⟨List.forall_mem_append.2 ⟨List.forall_mem_append.2
      ⟨hhead, hvlan⟩, hnameif⟩, hlevel⟩, List.forall_mem_singleton.2 ?_⟩, hshutdown⟩)
  split
  · next ip mask h =>
    obtain ⟨hip, hmask⟩ := hi.address? h
    simp only [String.append_assoc, toString_text]
    exact IsIdle.append (by decide) (by simp +decide [hip, hmask])
  · decide

/-! ## Addresses and services -/

theorem isQuiet_descriptionLines {description : Option String}
    (h : ∀ s ∈ description, OneLine s) : ∀ l ∈ descriptionLines description, IsQuiet l :=
  List.forall_mem_map.2 fun s hs => IsQuiet.append (by decide) (h s (Option.mem_toList.1 hs))

theorem isQuiet_objectValueLine {o : AddressObject} (ho : o.OneLine) :
    IsQuiet (objectValueLine o) := by
  rw [objectValueLine]
  split
  · exact IsQuiet.append (by decide) ho.value
  · have hsubnet : OneLine (subnetOf o).address ∧ OneLine (subnetOf o).mask := by
      rw [subnetOf]
      split
      · next mask hmask => exact ⟨ho.value, ho.mask _ hmask⟩
      · cases h : Network.read? o.value with
        | some n => exact Network.oneLine_of_read? ho.value h
        | none => exact ⟨ho.value, Netmask.oneLine_single⟩
    simp only [String.append_assoc, toString_text]
    exact IsQuiet.append (by decide) (by simp +decide [hsubnet])
  · have hends : OneLine (rangeEnds o.value).1 ∧ OneLine (rangeEnds o.value).2 := by
      rw [rangeEnds]
      cases h : cut '-' o.value with
      | some ends => exact ho.value.cut h
      | none => exact ⟨ho.value, ho.value⟩
    simp only [String.append_assoc, toString_text]
    exact IsQuiet.append (by decide) (by simp +decide [hends])
  · exact IsQuiet.append (by decide) ho.value

theorem isQuiet_objectLines {o : AddressObject} (ho : o.OneLine) :
    ∀ l ∈ objectLines o, IsQuiet l := by
  refine forall_mem_block (by decide) (List.forall_mem_append.2
    ⟨List.forall_mem_cons.2 ⟨IsQuiet.append (by decide) ho.name,
      List.forall_mem_singleton.2 (isQuiet_objectValueLine ho)⟩,
    isQuiet_descriptionLines ho.description⟩)

theorem isQuiet_memberLine (c : Config) {member : String} (h : OneLine member) :
    IsQuiet (memberLine c member) := by
  have hendpoint := Endpoint.oneLine_classify h
  unfold memberLine
  split
  · decide
  · next address heq =>
    rw [heq] at hendpoint
    exact IsQuiet.append (by decide) hendpoint
  · next n heq =>
    rw [heq] at hendpoint
    simp only [String.append_assoc, toString_text]
    exact IsQuiet.append (by decide) (by simp +decide [hendpoint.1, hendpoint.2])
  · next name heq =>
    rw [heq] at hendpoint
    split <;> exact IsQuiet.append (by decide) hendpoint

theorem isQuiet_groupLines (c : Config) {g : AddressGroup} (hg : g.OneLine) :
    ∀ l ∈ groupLines c g, IsQuiet l :=
  forall_mem_block (by decide) (List.forall_mem_append.2
    ⟨List.forall_mem_cons.2 ⟨IsQuiet.append (by decide) hg.name,
      isQuiet_descriptionLines hg.description⟩,
    List.forall_mem_map.2 fun s hs => isQuiet_memberLine c (hg.members s hs)⟩)

theorem oneLine_portTest {ports : String} (h : OneLine ports) : OneLine (portTest ports) := by
  rw [portTest]
  split
  · next first last heq =>
    obtain ⟨hfirst, hlast⟩ := h.cut heq
    simp +decide [hfirst, hlast]
  · simp +decide [h]

theorem isQuiet_servicePortLines {s : ServiceObject} (hs : s.OneLine) :
    ∀ l ∈ servicePortLines s, IsQuiet l := by
  have hprotocol : OneLine (if s.protocol.isEmpty then "tcp" else s.protocol) := by
    split
    · decide
    · exact hs.protocol
  unfold servicePortLines
  generalize (if s.protocol.isEmpty then "tcp" else s.protocol) = protocol at hprotocol ⊢
  have hobject : IsQuiet s!"object service {s.name}" := IsQuiet.append (by decide) hs.name
  split
  · next ports hports =>
    have hports := hs.port ports hports
    split
    · refine List.forall_mem_cons.2 ⟨?_, List.forall_mem_map.2 fun p hp => ?_⟩
      · simp only [String.append_assoc, toString_text]
        exact IsQuiet.append (by decide) (by simp +decide [hs.name, hprotocol])
      · obtain ⟨piece, hpiece, rfl⟩ := List.mem_map.1 (List.mem_filter.1 hp).1
        exact IsQuiet.append (by decide) (oneLine_portTest (hports.of_mem_pieces hpiece).trim)
    · refine List.forall_mem_cons.2 ⟨hobject, List.forall_mem_singleton.2 ?_⟩
      simp only [String.append_assoc, toString_text]
      exact IsQuiet.append (by decide) (by simp +decide [hprotocol, oneLine_portTest hports])
  · exact List.forall_mem_cons.2 ⟨hobject,
      List.forall_mem_singleton.2 (IsQuiet.append (by decide) hprotocol)⟩

theorem isQuiet_serviceLines {s : ServiceObject} (hs : s.OneLine) :
    ∀ l ∈ serviceLines s, IsQuiet l :=
  forall_mem_block (by decide) (List.forall_mem_append.2
    ⟨isQuiet_servicePortLines hs, isQuiet_descriptionLines hs.description⟩)

/-! ## Routes and translation -/

section Parts

variable {c : Config} (hc : c.OneLine)
include hc

theorem isIdle_routeLine {r : Route} (hr : r.OneLine) : IsIdle (routeLine c r) := by
  have hinterface : OneLine (nameifOr c egress r.interface) :=
    oneLine_nameifOr hc (by decide) hr.interface
  unfold routeLine
  generalize nameifOr c egress r.interface = interface at hinterface
  dsimp only
  split
  · next gateway distance hgateway _ =>
    simp only [String.append_assoc, toString_text]
    exact IsIdle.append (by decide)
      (by simp +decide [hinterface, hr.network, hr.mask, hr.gateway gateway hgateway])
  · next gateway hgateway _ =>
    simp only [String.append_assoc, toString_text]
    exact IsIdle.append (by decide)
      (by simp +decide [hinterface, hr.network, hr.mask, hr.gateway gateway hgateway])
  · exact isIdle_notConverted (by simp +decide [hinterface, hr.network, hr.mask])

theorem oneLine_pairedPool? {r : NatRule} {pool : String} (h : c.pairedPool? r = some pool) :
    OneLine pool := by
  rw [Config.pairedPool?] at h
  split at h
  · cases h
  · obtain ⟨p, hp, htranslated⟩ := Option.bind_eq_some_iff.1 h
    exact (hc.nat p (List.mem_of_find?_eq_some hp)).translated pool htranslated

omit hc in
theorem isQuiet_natObject {r : NatRule} (hr : r.OneLine) {default value : String}
    (hd : OneLine default) (hvalue : IsQuiet value) : ∀ l ∈ natObject r default value, IsQuiet l := by
  have hlabel : OneLine (r.name.getD default) := oneLine_getD hr.name hd
  exact List.forall_mem_cons.2
    ⟨IsQuiet.append (by decide) hlabel, List.forall_mem_singleton.2 hvalue⟩

theorem isQuiet_natRuleLines {r : NatRule} (hr : r.OneLine) {source : String}
    (hsource : OneLine source) : ∀ l ∈ natRuleLines c r source, IsQuiet l := by
  have hkind : OneLine r.kind.text := by cases r.kind <;> decide
  have htranslated : OneLine ((r.translated.or (c.pairedPool? r)).getD "interface") := by
    refine oneLine_getD (fun s hs => ?_) (by decide)
    rcases Option.or_eq_some_iff.1 hs with h | ⟨-, h⟩
    · exact hr.translated s h
    · exact oneLine_pairedPool? hc h
  have hreal : OneLine (nameifOr c anyText r.sourceInterface) :=
    oneLine_nameifOr hc (by decide) hr.sourceInterface
  have hmapped : OneLine (nameifOr c egress r.interface) :=
    oneLine_nameifOr hc (by decide) hr.interface
  have hendpoint := Endpoint.oneLine_classify hsource
  unfold natRuleLines
  generalize (r.translated.or (c.pairedPool? r)).getD "interface" = translated at htranslated
  generalize nameifOr c anyText r.sourceInterface = real at hreal
  generalize nameifOr c egress r.interface = mapped at hmapped
  have hinterfaces : OneLine s!"({real},{mapped})" := by simp +decide [hreal, hmapped]
  dsimp only
  generalize s!"({real},{mapped})" = interfaces at hinterfaces
  have hinObject : IsQuiet s!" nat {interfaces} {r.kind.text} {translated}" := by
    simp only [String.append_assoc, toString_text]
    exact IsQuiet.append (by decide) (by simp +decide [hinterfaces, hkind, htranslated])
  refine List.forall_mem_append.2 ⟨List.forall_mem_map.2 fun s hs =>
    IsQuiet.append (by decide) (hr.description s (Option.mem_toList.1 hs)), ?_⟩
  split
  · refine List.forall_mem_singleton.2 ?_
    simp only [String.append_assoc, toString_text]
    exact IsQuiet.append (by decide) (by simp +decide [hinterfaces, hkind, htranslated])
  · next address heq =>
    rw [heq] at hendpoint
    exact List.forall_mem_append.2
      ⟨isQuiet_natObject hr hendpoint (IsQuiet.append (by decide) hendpoint),
        List.forall_mem_singleton.2 hinObject⟩
  · next n heq =>
    rw [heq] at hendpoint
    refine List.forall_mem_append.2
      ⟨isQuiet_natObject hr (by simp +decide [hendpoint.1]) ?_,
        List.forall_mem_singleton.2 hinObject⟩
    simp only [String.append_assoc, toString_text]
    exact IsQuiet.append (by decide) (by simp +decide [hendpoint.1, hendpoint.2])
  · next name heq =>
    rw [heq] at hendpoint
    have hname : OneLine name := hendpoint
    split
    · exact List.forall_mem_singleton.2 (isIdle_notConverted
        (by simp +decide [hinterfaces, hkind, htranslated, hname])).1
    · split
      · next destination hdestination =>
        have hd : OneLine destination :=
          hr.destination _ (Option.filter_eq_some_iff.1 hdestination).1
        refine List.forall_mem_singleton.2 ?_
        simp only [String.append_assoc, toString_text]
        exact IsQuiet.append (by decide) (by simp +decide [hinterfaces, hkind, htranslated, hname, hd])
      · exact List.forall_mem_cons.2 ⟨IsQuiet.append (by decide) hname,
          List.forall_mem_singleton.2 hinObject⟩

theorem isQuiet_natLines {r : NatRule} (hr : r.OneLine) : ∀ l ∈ natLines c r, IsQuiet l := by
  unfold natLines
  split
  · refine forall_mem_part (by decide) ?_
    rw [poolLines]
    split
    · exact List.forall_mem_nil _
    · have hlabel : OneLine ((r.name.or r.natId).getD "pool") := by
        refine oneLine_getD (fun s hs => ?_) (by decide)
        rcases Option.or_eq_some_iff.1 hs with h | ⟨-, h⟩
        · exact hr.name s h
        · exact hr.natId s h
      have haddresses : OneLine (r.translated.getD "") := oneLine_getD hr.translated (by decide)
      generalize (r.name.or r.natId).getD "pool" = label at hlabel
      exact List.forall_mem_singleton.2
        (isIdle_notConverted (by simp +decide [hlabel, haddresses])).1
  · next source hsource _ =>
    exact forall_mem_block (by decide) (isQuiet_natRuleLines hc hr (hr.source source hsource))
  · exact forall_mem_block (by decide) (List.forall_mem_singleton.2 (by decide))

/-! ## Accounts, and what the management center keeps -/

omit hc in
theorem isIdle_userLine {u : User} (hu : u.OneLine) : IsIdle (userLine u) := by
  unfold userLine
  split
  · next secret hsecret =>
    have hs : OneLine secret := hu.secret _ (Option.filter_eq_some_iff.1 hsecret).1
    simp only [String.append_assoc, toString_text]
    exact IsIdle.append (by decide) (by simp +decide [hu.username, hs])
  · simp only [String.append_assoc, toString_text]
    exact IsIdle.append (by decide) (by simp +decide [hu.username])

theorem isIdle_managedElsewhereLines : ∀ l ∈ managedElsewhereLines c, IsIdle l := by
  refine forall_mem_part (by decide) (List.forall_mem_append.2
    ⟨List.forall_mem_map.2 fun t ht => ?_, List.forall_mem_map.2 fun s hs => ?_⟩)
  · have hpeer : OneLine (t.peer.getD "unknown peer") :=
      oneLine_getD (hc.vpn.tunnels t ht).peer (by decide)
    exact isIdle_notConverted (by simp +decide [(hc.vpn.tunnels t ht).name, hpeer])
  · have hserver := hc.aaaServers s hs
    exact isIdle_notConverted (by simp +decide [hserver.name, hserver.protocol])

/-! ## The management plane -/

theorem isIdle_logLine {t : LogTarget} (ht : t.OneLine) {l : String}
    (h : logLine c t = some l) : IsIdle l := by
  unfold logLine at h
  split at h
  · next host _ hhost =>
    cases h
    have hinterface := oneLine_nameifOr hc (by decide : OneLine managementInterface) ht.interface
    simp only [String.append_assoc, toString_text]
    exact IsIdle.append (by decide) (by simp +decide [hinterface, ht.host host hhost])
  · cases h
  · cases h
    split
    · simp only [String.append_assoc, toString_text]
      exact IsIdle.append (by decide) (by simp +decide [ht.target, ht.level])
    · exact IsIdle.append (by decide) ht.target

theorem isIdle_snmpLine {s : SnmpSetting} (hs : s.OneLine) : IsIdle (snmpLine c s) := by
  unfold snmpLine
  split
  · next host hhost =>
    have hinterface := oneLine_nameifOr hc (by decide : OneLine managementInterface) hs.interface
    simp only [String.append_assoc, toString_text]
    exact IsIdle.append (by decide)
      (by simp +decide [hinterface, hs.host host hhost, hs.community, hs.version])
  · exact IsIdle.append (by decide) hs.community

omit hc in
/-- A text that is cut at its end is empty or begins as before. -/
theorem head?_toList_trimEnd {s : String} {c : Char} (h : (Text.trimEnd s).toList.head? = some c) :
    s.toList.head? = some c := by
  rw [toList_trimEnd] at h
  cases hlist : s.toList with
  | nil =>
    rw [hlist] at h
    cases h
  | cons d ds =>
    rw [hlist, Chars.trimEnd_cons] at h
    split at h
    · cases h
    · exact h

omit hc in
theorem IsIdle.trimEnd {s : String} (h : IsIdle s) : IsIdle (Text.trimEnd s) :=
  ⟨⟨h.1.1.trimEnd, fun hhead => h.1.2 (head?_toList_trimEnd hhead)⟩,
    fun hhead => h.2 (head?_toList_trimEnd hhead)⟩

omit hc in
theorem isIdle_accessSettingLine {command : String} (hcommand : IsIdle command ∧ command ≠ "")
    {s : AccessSetting} (hs : s.OneLine) : IsIdle (accessSettingLine command s) := by
  cases s with
  | allow address mask interface =>
    simp only [accessSettingLine, String.append_assoc, toString_text]
    exact IsIdle.append hcommand (by simp +decide [hs.1, hs.2.1, hs.2.2])
  | option key value =>
    simp only [accessSettingLine, String.append_assoc, toString_text]
    exact (IsIdle.append hcommand (by simp +decide [hs.1, hs.2])).trimEnd

theorem isIdle_managementLines : ∀ l ∈ managementLines c, IsIdle l := by
  have hm := hc.management
  rw [managementLines]
  split
  · exact List.forall_mem_nil _
  · have henable : ∀ l ∈ if lacksLogging c.management then ["logging enable"] else [],
        IsIdle l := by
      split
      · exact List.forall_mem_singleton.2 (by decide)
      · exact List.forall_mem_nil _
    have hlogging : ∀ l ∈ c.management.logging.filterMap (logLine c), IsIdle l :=
      List.forall_mem_filterMap.2 fun t ht l hl => isIdle_logLine hc (hm.logging t ht) hl
    have hsnmp : ∀ l ∈ c.management.snmp.map (snmpLine c), IsIdle l :=
      List.forall_mem_map.2 fun s hs => isIdle_snmpLine hc (hm.snmp s hs)
    have hssh : ∀ l ∈ c.management.ssh.map (accessSettingLine "ssh"), IsIdle l :=
      List.forall_mem_map.2 fun s hs => isIdle_accessSettingLine (by decide) (hm.ssh s hs)
    have hhttp : ∀ l ∈ c.management.http.map (accessSettingLine "http"), IsIdle l :=
      List.forall_mem_map.2 fun s hs => isIdle_accessSettingLine (by decide) (hm.http s hs)
    have hclock : ∀ l ∈ c.management.clock.map fun s => s!"clock {s.key} {s.value}",
        IsIdle l := by
      refine List.forall_mem_map.2 fun s hs => ?_
      simp only [String.append_assoc, toString_text]
      exact IsIdle.append (by decide)
        (by simp +decide [(hm.clock s hs).key, (hm.clock s hs).value])
    exact forall_mem_block (by decide) (List.forall_mem_append.2 ⟨List.forall_mem_append.2
      ⟨List.forall_mem_append.2 ⟨List.forall_mem_append.2 ⟨List.forall_mem_append.2
        ⟨henable, hlogging⟩, hsnmp⟩, hssh⟩, hhttp⟩, hclock⟩)

/-! ## What names the text, and what has no place in it -/

theorem isIdle_unmappedLines : ∀ l ∈ unmappedLines c, IsIdle l := by
  refine forall_mem_part (by decide) (List.forall_mem_append.2
    ⟨List.forall_mem_map.2 fun a ha => ?_, List.forall_mem_map.2 fun u hu => ?_⟩)
  · have ha := hc.applications a ha
    split
    · next category hcategory =>
      exact isIdle_notConverted (by simp +decide [ha.name, ha.category category hcategory])
    · exact isIdle_notConverted (by simp +decide [ha.name])
  · exact isIdle_notConverted (by simp +decide [(hc.urlCategories u hu).name])

theorem isIdle_identityLines (flavor : Flavor) : ∀ l ∈ identityLines flavor c, IsIdle l := by
  have hdefault : OneLine flavor.defaultHostname := by cases flavor <;> decide
  have hhostname : OneLine (c.hostnameOr flavor.defaultHostname) := hc.hostnameOr hdefault
  have hdevice {command : String} (hcommand : IsIdle command ∧ command ≠ "") {text : Option String}
      (htext : ∀ s ∈ text, OneLine s) : ∀ l ∈ text.toList.map (command ++ ·), IsIdle l :=
    List.forall_mem_map.2 fun s hs => IsIdle.append hcommand (htext s (Option.mem_toList.1 hs))
  have hzone : ∀ l ∈ c.device.timezone.toList.map fun zone => notConverted s!"timezone {zone}",
      IsIdle l := List.forall_mem_map.2 fun s hs =>
    isIdle_notConverted (by simp +decide [hc.device.timezone s (Option.mem_toList.1 hs)])
  have hhead : ∀ l ∈ s!"hostname {c.hostnameOr flavor.defaultHostname}"
      :: c.device.domain.toList.map ("domain-name " ++ ·), IsIdle l :=
    List.forall_mem_cons.2 ⟨IsIdle.append (by decide) hhostname,
      hdevice (by decide) hc.device.domain⟩
  refine forall_mem_block (by decide) (List.forall_mem_append.2
    ⟨List.forall_mem_append.2 ⟨hhead, ?_⟩, hzone⟩)
  cases flavor with
  | asa => exact List.forall_mem_append.2 ⟨hdevice (by decide) hc.device.enablePassword,
      hdevice (by decide) hc.device.password⟩
  | ftd => exact List.forall_mem_nil _

omit hc in
theorem isIdle_headerLines (flavor : Flavor) (origin : Dialect) :
    ∀ l ∈ headerLines flavor origin, IsIdle l := by
  have horigin : OneLine (origin.product ++ " configuration") := by cases origin <;> decide
  have hflavor : OneLine (flavor.dialect.product ++ " Configuration") := by
    cases flavor <;> decide
  refine forall_mem_block (by decide) (List.forall_mem_cons.2 ⟨?_, List.forall_mem_singleton.2 ?_⟩)
  · rw [String.append_assoc]
    exact IsIdle.append (by decide) hflavor
  · rw [String.append_assoc]
    exact IsIdle.append (by decide) horigin

/-! ## Access lists -/

theorem oneLine_placement (origin : Dialect) {p : Policy} (hp : p.OneLine) :
    OneLine (placement c origin p).1 ∧ ∀ s ∈ (placement c origin p).2, OneLine s := by
  have hzone : ∀ s ∈ p.sourceZone.map (nameifOf c), OneLine s := fun s hs => by
    obtain ⟨zone, hzone, rfl⟩ := Option.map_eq_some_iff.1 hs
    exact oneLine_nameifOf hc (hp.sourceZone zone hzone)
  unfold placement
  dsimp only
  generalize p.sourceZone.map (nameifOf c) = zone at hzone
  split
  · next name zone hname => exact ⟨hp.name _ (Option.filter_eq_some_iff.1 hname).1, hzone⟩
  · next zone _ => exact ⟨by simp +decide [hzone zone rfl], hzone⟩
  · refine ⟨oneLine_getD (fun s hs => ?_) (by decide), nofun⟩
    exact hp.name s (Option.filter_eq_some_iff.1 hs).1

omit hc in
theorem oneLine_addressOperand (c : Config) {s : String} (hs : OneLine s) :
    OneLine (addressOperand c s) := by
  have hendpoint := Endpoint.oneLine_classify hs
  unfold addressOperand
  split
  · exact oneLine_anyText
  · next address heq =>
    rw [heq] at hendpoint
    exact oneLine_append.2 ⟨by decide, hendpoint⟩
  · next n heq =>
    rw [heq] at hendpoint
    obtain ⟨haddress, hmask⟩ := hendpoint
    split
    · exact oneLine_anyText
    · split
      · exact oneLine_append.2 ⟨by decide, haddress⟩
      · simp +decide [haddress, hmask]
  · next name heq =>
    rw [heq] at hendpoint
    split <;> exact oneLine_append.2 ⟨by decide, hendpoint⟩

theorem oneLine_serviceOperands {p : Policy} (hp : p.OneLine) {s : String} (hs : OneLine s) :
    OneLine (serviceOperands c p s).1 ∧ ∀ t ∈ (serviceOperands c p s).2, OneLine t := by
  have href := c.oneLine_resolveService hs
  unfold serviceOperands
  generalize c.resolveService s = ref at href
  have hgroup {name : String} (hname : OneLine name) : OneLine ("object-group " ++ name) :=
    oneLine_append.2 ⟨by decide, hname⟩
  have hobject {name : String} (hname : OneLine name) : OneLine ("object " ++ name) :=
    oneLine_append.2 ⟨by decide, hname⟩
  cases ref with
  | named name =>
    have hname : OneLine name := href name List.mem_cons_self
    dsimp only
    split
    · next o ho =>
      split
      · exact ⟨(hc.services o (List.mem_of_find?_eq_some ho)).protocol, fun t ht => by
          cases ht
          exact hgroup hname⟩
      · exact ⟨hobject hname, nofun⟩
    · exact ⟨hobject hname, nofun⟩
  | any =>
    refine ⟨?_, nofun⟩
    simp only [literalOperands]
    split
    · exact hp.protocol
    · decide
  | protocol name => exact ⟨href name List.mem_cons_self, nofun⟩
  | port name ports =>
    refine ⟨href name List.mem_cons_self, fun t ht => ?_⟩
    cases ht
    exact oneLine_portTest (href ports (List.mem_cons_of_mem _ List.mem_cons_self))

omit hc in
theorem isApart_entryLine {e : AccessEntry} (he : OneLine e.line) : IsApart e.line := by
  refine ⟨he, ?_⟩
  have hhead (ws : List String) : (unwords ("access-list" :: ws)).toList.head? = some 'a' := by
    obtain ⟨cs, hcs⟩ := toList_unwords_cons "access-list" ws
    rw [hcs]
    rfl
  rw [AccessEntry.line, List.cons_append, List.cons_append, List.cons_append, hhead]
  decide

theorem isApart_ruleLines (origin : Dialect) {p : Policy} (hp : p.OneLine) :
    ∀ l ∈ ruleLines c origin p, IsApart l := by
  obtain ⟨hacl, -⟩ := oneLine_placement hc origin hp
  unfold ruleLines
  generalize (placement c origin p).1 = acl at hacl
  dsimp only
  refine List.forall_mem_append.2 ⟨List.forall_mem_append.2
    ⟨List.forall_mem_map.2 fun s hs => ?_, ?_⟩, List.forall_mem_map.2 fun e he => ?_⟩
  · simp only [String.append_assoc, toString_text]
    exact IsApart.append (by decide) (by simp +decide [hacl, hp.description s (Option.mem_toList.1 hs)])
  · split
    · exact List.forall_mem_nil _
    · refine List.forall_mem_singleton.2 ?_
      have happlications := oneLine_intercalate (by decide : OneLine ", ") hp.application
      simp only [String.append_assoc, toString_text]
      exact IsApart.append (by decide) (by simp +decide [hacl, happlications])
  · obtain ⟨source, hsource, he⟩ := List.mem_flatMap.1 he
    obtain ⟨destination, hdestination, he⟩ := List.mem_flatMap.1 he
    obtain ⟨service, hservice, rfl⟩ := List.mem_map.1 he
    have hs := oneLine_addressOperand c (oneLine_orAny hp.source source hsource)
    have hd := oneLine_addressOperand c (oneLine_orAny hp.destination destination hdestination)
    obtain ⟨hprotocol, hports⟩ := oneLine_serviceOperands hc hp
      (oneLine_orAny hp.service service hservice)
    have haction : OneLine p.action.text := by cases p.action <;> decide
    have hflag {b : Bool} {flag : String} (hflag : OneLine flag) :
        ∀ w ∈ if b then [flag] else [], OneLine w := by
      split
      · exact List.forall_mem_singleton.2 hflag
      · exact List.forall_mem_nil _
    refine isApart_entryLine (oneLine_unwords (List.forall_mem_append.2 ⟨List.forall_mem_append.2
      ⟨List.forall_mem_append.2 ⟨?_, fun w hw => hports w (Option.mem_toList.1 hw)⟩,
        hflag (by decide)⟩, hflag (by decide)⟩))
    simp +decide [hacl, haction, hprotocol, hs, hd]

theorem oneLine_ruleLines (origin : Dialect) {p : Policy} (hp : p.OneLine) :
    ∀ l ∈ ruleLines c origin p, OneLine l := fun l hl => (isApart_ruleLines hc origin hp l hl).1

theorem isApart_bindingLines (origin : Dialect) {rules : List Policy}
    (hrules : ∀ p ∈ rules, p.OneLine) : ∀ l ∈ bindingLines c origin rules, IsApart l := by
  rw [bindingLines]
  split
  · refine List.forall_mem_filterMap.2 fun place hplace l hl => ?_
    obtain ⟨p, hp, rfl⟩ := List.mem_map.1 (mem_of_mem_eraseDupsBy hplace)
    obtain ⟨hacl, hinterface⟩ := oneLine_placement hc origin (hrules p hp)
    generalize placement c origin p = place at hacl hinterface hl
    unfold placedBindingLine at hl
    split at hl
    · next acl interface =>
      cases hl
      simp only [String.append_assoc, toString_text]
      exact IsApart.append (by decide) (by simp +decide [hacl, hinterface interface rfl])
    · split at hl
      · cases hl
        simp only [String.append_assoc, toString_text]
        exact IsApart.append (by decide) (by simp +decide [hacl])
      · cases hl
  · refine List.forall_mem_map.2 fun b hb => ?_
    have hb := hc.accessBindings b hb
    rw [bindingLine]
    split <;> simp only [String.append_assoc, toString_text] <;>
      exact IsApart.append (by decide) (by simp +decide [hb.acl, hb.direction, hb.interface])

theorem isApart_accessLines (origin : Dialect) : ∀ l ∈ accessLines c origin, IsApart l := by
  have hrules := hc.effectivePolicies
  unfold accessLines
  split
  · exact List.forall_mem_nil _
  · refine List.forall_mem_append.2
      ⟨List.forall_mem_append.2 ⟨List.forall_mem_flatMap.2 fun p hp => ?_, ?_⟩,
        List.forall_mem_singleton.2 (by decide)⟩
    · exact isApart_ruleLines hc origin (hrules p hp)
    · exact isApart_bindingLines hc origin hrules

theorem oneLine_accessLines (origin : Dialect) : ∀ l ∈ accessLines c origin, OneLine l :=
  fun l hl => (isApart_accessLines hc origin l hl).1

/-! ## The whole text -/

/-- The lines before the objects. -/
def openingLines (origin : Dialect) (c : Config) : List String :=
  headerLines .ftd origin ++ identityLines .ftd c ++ c.interfaces.flatMap (interfaceLines c)

/-- The lines behind the translation rules. -/
def closingLines (c : Config) : List String :=
  managedElsewhereLines c ++ (part (c.users.map userLine) ++ (managementLines c ++ unmappedLines c))

theorem isIdle_openingLines (origin : Dialect) : ∀ l ∈ openingLines origin c, IsIdle l :=
  List.forall_mem_append.2 ⟨List.forall_mem_append.2
    ⟨isIdle_headerLines .ftd origin, isIdle_identityLines hc .ftd⟩,
    List.forall_mem_flatMap.2 fun i hi => isIdle_interfaceLines c (hc.interfaces i hi)⟩

theorem isIdle_routeLines : ∀ l ∈ part (c.routes.map (routeLine c)), IsIdle l :=
  forall_mem_part (by decide)
    (List.forall_mem_map.2 fun r hr => isIdle_routeLine hc (hc.routes r hr))

theorem isIdle_closingLines : ∀ l ∈ closingLines c, IsIdle l :=
  List.forall_mem_append.2 ⟨isIdle_managedElsewhereLines hc, List.forall_mem_append.2
    ⟨forall_mem_part (by decide)
      (List.forall_mem_map.2 fun u hu => isIdle_userLine (hc.users u hu)),
    List.forall_mem_append.2 ⟨isIdle_managementLines hc, isIdle_unmappedLines hc⟩⟩⟩

omit hc in
/-- The parts of what is written for the managed product, if there are no profiles. -/
theorem writeLines_eq (origin : Dialect) (hprofiles : c.securityProfiles = []) :
    writeLines .ftd origin c
      = openingLines origin c ++ (c.addressObjects.flatMap objectLines
        ++ (c.addressGroups.flatMap (groupLines c) ++ (c.services.flatMap serviceLines
        ++ (accessLines c origin ++ (part (c.routes.map (routeLine c))
        ++ (c.nat.flatMap (natLines c) ++ closingLines c)))))) := by
  simp only [writeLines, openingLines, closingLines, hprofiles, List.flatMap_nil, List.append_nil,
    List.append_assoc]

/-- The lines before the access lists say nothing of them. -/
theorem isQuiet_beforeAccess (origin : Dialect) :
    ∀ l ∈ openingLines origin c ++ (c.addressObjects.flatMap objectLines
      ++ (c.addressGroups.flatMap (groupLines c) ++ c.services.flatMap serviceLines)), IsQuiet l :=
  List.forall_mem_append.2 ⟨fun l hl => (isIdle_openingLines hc origin l hl).1,
    List.forall_mem_append.2
      ⟨List.forall_mem_flatMap.2 fun o ho => isQuiet_objectLines (hc.addressObjects o ho),
      List.forall_mem_append.2
        ⟨List.forall_mem_flatMap.2 fun g hg => isQuiet_groupLines c (hc.addressGroups g hg),
        List.forall_mem_flatMap.2 fun s hs => isQuiet_serviceLines (hc.services s hs)⟩⟩⟩

/-- The lines behind the access lists say nothing of them. -/
theorem isQuiet_afterAccess :
    ∀ l ∈ part (c.routes.map (routeLine c)) ++ (c.nat.flatMap (natLines c) ++ closingLines c),
      IsQuiet l :=
  List.forall_mem_append.2 ⟨fun l hl => (isIdle_routeLines hc l hl).1, List.forall_mem_append.2
    ⟨List.forall_mem_flatMap.2 fun r hr => isQuiet_natLines hc (hc.nat r hr),
    fun l hl => (isIdle_closingLines hc l hl).1⟩⟩

omit hc in
/-- The parts of what is written, where the access lists divide it. -/
theorem writeLines_eq_access (origin : Dialect) (hprofiles : c.securityProfiles = []) :
    writeLines .ftd origin c
      = (openingLines origin c ++ (c.addressObjects.flatMap objectLines
        ++ (c.addressGroups.flatMap (groupLines c) ++ c.services.flatMap serviceLines)))
        ++ (accessLines c origin ++ (part (c.routes.map (routeLine c))
        ++ (c.nat.flatMap (natLines c) ++ closingLines c))) := by
  rw [writeLines_eq origin hprofiles]
  simp only [List.append_assoc]

theorem oneLine_writeLines (origin : Dialect) (hprofiles : c.securityProfiles = []) :
    ∀ l ∈ writeLines .ftd origin c, OneLine l := by
  rw [writeLines_eq_access origin hprofiles]
  exact List.forall_mem_append.2 ⟨fun l hl => (isQuiet_beforeAccess hc origin l hl).1,
    List.forall_mem_append.2 ⟨oneLine_accessLines hc origin,
      fun l hl => (isQuiet_afterAccess hc l hl).1⟩⟩

/-- **What is read back of access lists is what their own lines say**, for a configuration without
profiles. -/
theorem accessOf_write (origin : Dialect) (hprofiles : c.securityProfiles = []) :
    accessOf (write .ftd origin c) = (accessLines c origin).foldl Access.step {} := by
  rw [write, Access.accessOf_unlines (oneLine_writeLines hc origin hprofiles),
    writeLines_eq_access origin hprofiles, List.foldl_append, List.foldl_append,
    foldl_step_of_isQuiet (isQuiet_beforeAccess hc origin),
    foldl_step_of_isQuiet (isQuiet_afterAccess hc)]

end Parts

end FirewallConfig.Cisco
