import FirewallConfig.Proofs.Text.Case
import FirewallConfig.Proofs.Text.Cut
import FirewallConfig.Proofs.Text.Numeral
import FirewallConfig.Service.ServiceRef

/-!
# Proofs/Service/ServiceRef — the texts of services are read back

A protocol with numerals for its ports is read as these ports of that protocol
(`classify_port`).
-/

namespace FirewallConfig

open Text

/-- The text of a port or of a range of ports, in numerals. -/
inductive IsPorts : String → Prop
  | port {p : String} (hp : IsNumeral p) : IsPorts p
  | range {a b : String} (ha : IsNumeral a) (hb : IsNumeral b) : IsPorts (a ++ "-" ++ b)

namespace ServiceRef

/-- Ports hold numeric characters and dashes. -/
theorem isNumeric_of_isPorts {ports : String} (h : IsPorts ports) :
    ports.toList ≠ [] ∧ ∀ c ∈ ports.toList, Chars.isNumeric c = true ∨ c = '-' := by
  cases h with
  | port hp => exact ⟨hp.1, fun c hc => .inl (hp.2 c hc)⟩
  | @range a b ha hb =>
    have hlist : (a ++ "-" ++ b).toList = a.toList ++ '-' :: b.toList := by
      rw [String.toList_append, String.toList_append, List.append_assoc]
      rfl
    rw [hlist]
    exact ⟨List.append_ne_nil_of_left_ne_nil ha.1 _,
      List.forall_mem_append.2 ⟨fun c hc => .inl (ha.2 c hc),
        List.forall_mem_cons.2 ⟨.inr rfl, fun c hc => .inl (hb.2 c hc)⟩⟩⟩

/-- A protocol with its ports is one word in small letters. -/
theorem port_spec {name ports : String} (hname : name ∈ protocols) (hports : IsPorts ports) :
    IsWord (name ++ "/" ++ ports) ∧ lower (name ++ "/" ++ ports) = name ++ "/" ++ ports := by
  obtain ⟨-, hall⟩ := isNumeric_of_isPorts hports
  have hlist : (name ++ "/" ++ ports).toList = name.toList ++ '/' :: ports.toList := by
    rw [String.toList_append, String.toList_append, List.append_assoc]
    rfl
  have hchar : ∀ c ∈ ports.toList, isBlank c = false ∧ c.toLower = c := fun c hc => by
    rcases hall c hc with h | rfl
    · exact ⟨Chars.not_isBlank_of_isNumeric h, Chars.toLower_of_isNumeric h⟩
    · decide
  have hprotocol : (∀ c ∈ name.toList, isBlank c = false) ∧ name.toList.map Char.toLower = name.toList := by
    simp only [protocols, List.mem_cons, List.not_mem_nil, or_false] at hname
    rcases hname with rfl | rfl | rfl | rfl | rfl | rfl <;> exact ⟨by simp; decide, by decide⟩
  refine ⟨⟨?_, ?_⟩, ?_⟩
  · rw [hlist]
    exact List.append_ne_nil_of_right_ne_nil _ (List.cons_ne_nil _ _)
  · rw [hlist]
    exact List.forall_mem_append.2 ⟨hprotocol.1,
      List.forall_mem_cons.2 ⟨by decide, fun c hc => (hchar c hc).1⟩⟩
  · have hmap : ports.toList.map Char.toLower = ports.toList := by
      have hid : ports.toList.map Char.toLower = ports.toList.map id :=
        List.map_congr_left fun c hc => (hchar c hc).2
      rw [hid, List.map_id]
    rw [lower, hlist, List.map_append, List.map_cons, hprotocol.2, hmap, ← String.toList_inj,
      String.toList_ofList, hlist]
    rfl

/-- What a port is read from is its text. -/
theorem text_of_ofPort?_eq_some {small : String} {ref : ServiceRef} (h : ofPort? small = some ref) :
    ref.text = small ∧ '/' ∈ small.toList := by
  rw [ofPort?] at h
  split at h
  · next name ports hcut =>
    have hsmall : small = name ++ "/" ++ ports := eq_append_of_cut hcut
    split at h
    · cases h
      refine ⟨hsmall.symm, ?_⟩
      rw [hsmall, String.toList_append, String.toList_append]
      exact List.mem_append_left _ (List.mem_append_right _ (by decide))
    · cases h
  · cases h

/-- A port that is spelled in small letters is read as that port. -/
theorem classify_of_ofPort? {small : String} (htrim : trim small = small)
    (hlower : lower small = small) {ref : ServiceRef} (h : ofPort? small = some ref) :
    classify small = ref := by
  obtain ⟨-, hslash⟩ := text_of_ofPort?_eq_some h
  have hempty : small.isEmpty = false := by
    rw [String.isEmpty_eq_false_iff]
    rintro rfl
    exact absurd hslash (by decide)
  have hany : sameIgnoringCase small anyText = false := by
    rw [sameIgnoringCase, hlower, beq_eq_false_iff_ne]
    intro heq
    exact absurd (heq ▸ hslash) (by decide)
  rw [classify, htrim, hlower, hempty, hany, h]
  rfl

/-- **Ports of a protocol are read back.** -/
theorem classify_port {name ports : String} (hname : name ∈ protocols) (hports : IsPorts ports) :
    classify (name ++ "/" ++ ports) = .port name ports := by
  obtain ⟨hword, hlower⟩ := port_spec hname hports
  have hslash : '/' ∉ name.toList := by
    simp only [protocols, List.mem_cons, List.not_mem_nil, or_false] at hname
    rcases hname with rfl | rfl | rfl | rfl | rfl | rfl <;> decide
  have hcut : Text.cut '/' (name ++ "/" ++ ports) = some (name, ports) := cut_append hslash ports
  have hempty : ports.isEmpty = false := by
    rw [String.isEmpty_eq_false_iff]
    rintro rfl
    exact (isNumeric_of_isPorts hports).1 rfl
  have hport : ofPort? (name ++ "/" ++ ports) = some (.port name ports) := by
    rw [ofPort?, hcut]
    dsimp only
    rw [List.contains_iff_mem.2 hname, hempty]
    rfl
  exact classify_of_ofPort? hword.trim_eq hlower hport

/-- **Ports of any protocol** are those of a protocol that services are spelled with, or a name. -/
theorem classify_ports {name : String} (hname : IsWord name) (hlower : lower name = name)
    (ports : String) :
    ∃ q, classify (name ++ "/" ++ ports)
      = (ofPort? (name ++ "/" ++ lower q)).getD (.named (name ++ "/" ++ q)) := by
  have hsolid : Chars.Solid (name ++ "/").toList := (hname.append (by decide)).solid
  obtain ⟨q, htrim⟩ : ∃ q, trim (name ++ "/" ++ ports) = name ++ "/" ++ q := by
    refine ⟨String.ofList (Chars.trimEnd ports.toList), String.toList_inj.1 ?_⟩
    rw [toList_trim, String.toList_append, hsolid.trim_append, String.toList_append (s := name ++ "/"),
      String.toList_ofList]
  have hsmall : lower (name ++ "/" ++ q) = name ++ "/" ++ lower q := by
    rw [lower_append, lower_append, hlower]
    rfl
  have hslash (t : String) : '/' ∈ (name ++ "/" ++ t).toList := by
    rw [String.toList_append, String.toList_append]
    exact List.mem_append_left _ (List.mem_append_right _ List.mem_cons_self)
  have hne {t word : String} (hword : '/' ∉ word.toList) : name ++ "/" ++ t ≠ word := fun h =>
    hword (h ▸ hslash t)
  have hempty : (name ++ "/" ++ q).isEmpty = false :=
    String.isEmpty_eq_false_iff.2 (hne (by decide))
  have hany : sameIgnoringCase (name ++ "/" ++ q) anyText = false := by
    rw [sameIgnoringCase, hsmall]
    exact beq_eq_false_iff_ne.2 (hne (by decide))
  have hip : (name ++ "/" ++ lower q == "ip") = false := beq_eq_false_iff_ne.2 (hne (by decide))
  have hprotocol : protocols.contains (name ++ "/" ++ lower q) = false := by
    have hwords : ∀ p ∈ protocols, '/' ∉ p.toList := by decide
    rw [List.contains_eq_mem, decide_eq_false_iff_not]
    exact fun h => hwords _ h (hslash _)
  refine ⟨q, ?_⟩
  rw [classify, htrim]
  simp only [hsmall, hempty, hany, Bool.or_self, Bool.false_eq_true, if_false]
  cases ofPort? (name ++ "/" ++ lower q) with
  | some ref => rfl
  | none => simp only [hip, hprotocol, Bool.false_eq_true, if_false, Option.getD_none]

/-- What a text is cut at is the first slash, whatever follows. -/
theorem cut_slash_eq {name protocol ports q : String}
    (h : cut '/' (name ++ "/" ++ q) = some (protocol, ports)) :
    protocol = name ∧ '/' ∉ name.toList
      ∨ '/' ∉ protocol.toList ∧ ∃ rest, name.toList = protocol.toList ++ '/' :: rest := by
  by_cases hmem : '/' ∈ name.toList
  · obtain ⟨as, bs, hlist, hnot⟩ := List.eq_append_cons_of_mem hmem
    have hcut : Chars.cut '/' (name ++ "/" ++ q).toList = some (as, bs ++ '/' :: q.toList) := by
      rw [String.toList_append, String.toList_append, hlist, List.append_assoc, List.append_assoc]
      exact Chars.cut_append_cons hnot _
    rw [cut, hcut, Option.map_some] at h
    cases h
    rw [String.toList_ofList]
    exact .inr ⟨hnot, bs, hlist⟩
  · rw [show name ++ "/" ++ q = name ++ String.singleton '/' ++ q from rfl, cut_append hmem] at h
    cases h
    exact .inl ⟨rfl, hmem⟩

/-- Ports of a protocol other than `ip` are those of `ip` exactly if it begins with that. -/
theorem ofPort?_eq_some {name q : String} (hname : name ≠ "ip") {ref : ServiceRef}
    (h : ofPort? (name ++ "/" ++ q) = some ref) :
    ∃ protocol ports, ref = .port protocol ports
      ∧ (protocol = "ip" ↔ beginsWith "ip/" name = true) := by
  rw [ofPort?] at h
  split at h
  · next protocol ports hcut =>
    split at h
    · cases h
      refine ⟨protocol, ports, rfl, ?_⟩
      rw [beginsWith_iff]
      rcases cut_slash_eq hcut with ⟨rfl, hslash⟩ | ⟨hslash, rest, hlist⟩
      · refine iff_of_false hname ?_
        rintro ⟨rest, hlist⟩
        exact hslash (hlist ▸ List.mem_append_left _ (by decide))
      · refine ⟨?_, ?_⟩
        · rintro rfl
          exact ⟨rest, hlist⟩
        · rintro ⟨rest', hlist'⟩
          rw [hlist] at hlist'
          have hip : "ip/".toList ++ rest' = "ip".toList ++ '/' :: rest' := rfl
          exact String.toList_inj.1
            (Chars.append_cons_inj hslash (by decide) (hlist'.trans hip)).1
    · cases h
  · cases h

theorem beginsWith_eq_false_of_ofPort?_eq_none {name q : String}
    (h : ofPort? (name ++ "/" ++ q) = none) : beginsWith "ip/" name = false := by
  rw [Bool.eq_false_iff]
  intro hbegins
  obtain ⟨rest, hlist⟩ := beginsWith_iff.1 hbegins
  have heq : name ++ "/" ++ q
      = "ip" ++ String.singleton '/' ++ (String.ofList rest ++ "/" ++ q) := by
    apply String.toList_inj.1
    simp [hlist]
  have hempty : (String.ofList rest ++ "/" ++ q).isEmpty = false := by
    rw [String.isEmpty_eq_false_iff]
    intro hnil
    have hlist := congrArg String.toList hnil
    simp at hlist
  have hip : protocols.contains "ip" = true := by decide
  rw [heq, ofPort?, cut_append (by decide)] at h
  simp only [hempty, hip, Bool.not_false, Bool.and_self, if_true] at h
  cases h

/-- A name means itself. -/
theorem classify_of_eq_named {s name : String} (h : classify s = .named name) :
    classify name = .named name := by
  have htrim : classify (trim s) = classify s := by rw [classify, trim_trim, ← classify]
  have hname : name = trim s := by
    rw [classify] at h
    split at h
    · cases h
    · split at h
      · next href =>
        rw [ofPort?] at href
        split at href
        · split at href
          · cases href
            cases h
          · cases href
        · cases href
      · split at h
        · cases h
        · split at h
          · cases h
          · exact (ServiceRef.named.inj h).symm
  rw [hname, htrim, h, ← hname]

end ServiceRef

end FirewallConfig
