import FirewallConfig.Address.Endpoint
import FirewallConfig.Proofs.Text.Cut
import FirewallConfig.Proofs.Text.Numeral

/-!
# Proofs/Address/Endpoint — the texts of endpoints are read back

The mask of prefix length 0 makes a network everything, and that of prefix length 32 makes it one
address: an endpoint is **canonical** if it is not spelled that way, and `canonical` gives the
canonical endpoint of the same meaning.  The text of a canonical endpoint is read as that endpoint
(`classify_text`).
-/

namespace FirewallConfig

/-! ## Addresses -/

/-- An address holds digits, plus signs and points. -/
theorem isNumeric_of_isIPv4 {s : String} (h : isIPv4 s = true) :
    s.toList ≠ [] ∧ ∀ c ∈ s.toList, Chars.isNumeric c = true ∨ c = '.' := by
  obtain ⟨hlength, hall⟩ := Bool.and_eq_true_iff.1 h
  refine ⟨fun hnil => ?_, fun c hc => ?_⟩
  · rw [Text.pieces, hnil] at hlength
    exact absurd hlength (by decide)
  · refine (Chars.eq_or_mem_of_mem_splitOn hc).symm.imp_left fun ⟨p, hp, hcp⟩ => ?_
    have hoctet := List.all_eq_true.1 hall _ (List.mem_map_of_mem hp)
    obtain ⟨n, hn⟩ := Option.isSome_iff_exists.1 (Bool.and_eq_true_iff.1 hoctet).2
    obtain ⟨k, hk, -⟩ := Option.map_eq_some_iff.1 hn
    have hnumeral := Text.isNumeral_of_numeralBelow hk
    rw [Text.IsNumeral, String.toList_ofList] at hnumeral
    exact hnumeral.2 c hcp

theorem isWord_of_isIPv4 {s : String} (h : isIPv4 s = true) : Text.IsWord s :=
  ⟨(isNumeric_of_isIPv4 h).1, fun c hc => by
    rcases (isNumeric_of_isIPv4 h).2 c hc with hnumeric | rfl
    · exact Chars.not_isBlank_of_isNumeric hnumeric
    · decide⟩

/-- An address has no prefix length. -/
theorem not_mem_slash_of_isIPv4 {s : String} (h : isIPv4 s = true) : '/' ∉ s.toList := fun hmem =>
  absurd ((isNumeric_of_isIPv4 h).2 _ hmem) (by decide)

namespace Netmask

theorem isIPv4_of_mem_table {mask : String} (h : mask ∈ table) : isIPv4 mask = true := by
  revert mask
  decide +kernel

/-- The mask of the prefix length of a mask is that mask. -/
theorem ofPrefix?_prefixOrDefault {mask : String} (h : mask ∈ table) :
    prefixOrDefault mask < table.length ∧ ofPrefix? (prefixOrDefault mask) = some mask := by
  have htrim : Text.trim mask = mask := (isWord_of_isIPv4 (isIPv4_of_mem_table h)).trim_eq
  obtain ⟨k, hk⟩ := Option.isSome_iff_exists.1 (List.isSome_idxOf?.2 h)
  obtain ⟨hlt, hget, -⟩ := List.idxOf?_eq_some_iff.1 hk
  have hbits : prefixOrDefault mask = k := by rw [prefixOrDefault, prefix?, htrim, hk]; rfl
  rw [hbits, ofPrefix?, List.getElem?_eq_getElem hlt, hget]
  exact ⟨hlt, rfl⟩

end Netmask

namespace Network

/-- A network in slash notation has a mask of the table. -/
theorem mask_mem_table_of_ofCidr? {s : String} {n : Network} (h : ofCidr? s = some n) :
    n.mask ∈ Netmask.table := by
  rw [ofCidr?] at h
  split at h
  · cases h
  · next address tail _ =>
    split at h
    · cases h
    · cases h
      cases hmask : (Text.readUInt8 (Text.trim tail)).bind fun n => Netmask.ofPrefix? n.toNat with
      | none => exact (by decide : Netmask.defaultMask ∈ Netmask.table)
      | some mask =>
        obtain ⟨k, -, hk⟩ := Option.bind_eq_some_iff.1 hmask
        exact List.mem_of_getElem? hk

/-- A network that is spelled in one word has a mask that is a word. -/
theorem isWord_mask_of_read? {s : String} (hs : Text.IsWord s) {n : Network}
    (h : read? s = some n) : Text.IsWord n.mask := by
  rw [read?, hs.words_eq] at h
  dsimp only at h
  split at h
  · cases h
  · next address tail hcut =>
    split at h
    · next hpoint =>
      cases h
      have hmem : '.' ∈ tail.toList := by simpa using hpoint
      have htail : tail.toList ⊆ s.toList := by
        rw [Text.eq_append_of_cut hcut, String.toList_append]
        exact List.subset_append_right _ _
      exact ⟨List.ne_nil_of_mem hmem, fun c hc => hs.2 c (htail hc)⟩
    · exact isWord_of_isIPv4 (Netmask.isIPv4_of_mem_table (mask_mem_table_of_ofCidr? h))

variable {n : Network} (ha : isIPv4 n.address = true)
include ha

/-- The text of a network is its address and its prefix length. -/
theorem cidr_eq : n.cidr = n.address ++ "/" ++ toString (Netmask.prefixOrDefault n.mask) := by
  rw [cidr, (isWord_of_isIPv4 ha).trim_eq]

theorem isWord_cidr : Text.IsWord n.cidr := by
  have hbits := (Text.isNumeral_toString (Netmask.prefixOrDefault n.mask)).isWord
  rw [cidr_eq ha]
  exact ((isWord_of_isIPv4 ha).append (by decide)).append hbits

omit ha in
/-- A mask outside the table is written as the default one. -/
theorem cidr_eq_cidr_default (hm : isIPv4 n.mask = true) (h : n.mask ∉ Netmask.table) :
    n.cidr = (Network.mk n.address Netmask.defaultMask).cidr := by
  have hbits : Netmask.prefixOrDefault n.mask = Netmask.prefixOrDefault Netmask.defaultMask := by
    rw [Netmask.prefixOrDefault, Netmask.prefix?, (isWord_of_isIPv4 hm).trim_eq,
      List.idxOf?_eq_none_iff.2 h]
    decide +kernel
  rw [cidr, cidr, hbits]

theorem cut_cidr :
    Text.cut '/' n.cidr = some (n.address, toString (Netmask.prefixOrDefault n.mask)) := by
  rw [cidr_eq ha]
  exact Text.cut_append (not_mem_slash_of_isIPv4 ha) _

/-- **A network in slash notation is read back.** -/
theorem ofCidr?_cidr (hm : n.mask ∈ Netmask.table) : ofCidr? n.cidr = some n := by
  have hcut := cut_cidr ha
  obtain ⟨hlt, hmask⟩ := Netmask.ofPrefix?_prefixOrDefault hm
  generalize Netmask.prefixOrDefault n.mask = k at hcut hlt hmask
  have hsize : k < UInt8.size := Nat.lt_trans hlt (by decide)
  have hread : Text.readUInt8 (toString k) = some (UInt8.ofNat k) := by
    rw [Text.readUInt8, Text.numeralBelow_toString hsize, Option.map_some]
  have hne : n.address.isEmpty = false := (isWord_of_isIPv4 ha).isEmpty_eq
  rw [ofCidr?, (isWord_cidr ha).trim_eq]
  simp only [hcut, hne, Bool.false_eq_true, if_false]
  rw [(Text.isNumeral_toString k).isWord.trim_eq, hread, Option.bind_some,
    UInt8.toNat_ofNat_of_lt' hsize, hmask]
  rfl

/-- **The text of a network is read back.** -/
theorem read?_cidr (hm : n.mask ∈ Netmask.table) : read? n.cidr = some n := by
  have hcut := cut_cidr ha
  have hpoint : (toString (Netmask.prefixOrDefault n.mask)).toList.contains '.' = false := by
    rw [List.contains_eq_mem, decide_eq_false_iff_not]
    exact (Text.isNumeral_toString _).not_mem (by decide)
  rw [read?, (isWord_cidr ha).words_eq]
  simp only [hcut, hpoint, Bool.false_eq_true, if_false]
  exact ofCidr?_cidr ha hm

omit ha in
/-- An address alone is no network in slash notation. -/
theorem ofCidr?_of_isIPv4 {s : String} (hs : isIPv4 s = true) : ofCidr? s = none := by
  rw [ofCidr?, (isWord_of_isIPv4 hs).trim_eq, Text.cut_eq_none (not_mem_slash_of_isIPv4 hs)]

end Network

/-! ## Endpoints -/

namespace Endpoint

/-- The endpoint of the same meaning that is spelled without a mask, where there is one. -/
def canonical : Endpoint → Endpoint
  | .network n =>
    if n.mask = Netmask.everything then .any
    else if n.mask = Netmask.single then .host n.address
    else .network n
  | e => e

/-- The endpoint can be written as words: its mask is one of the table, and its name is one word. -/
def IsPlain : Endpoint → Prop
  | .any | .host _ => True
  | .network n => n.mask ∈ Netmask.table
  | .named name => Text.IsWord name

instance : (e : Endpoint) → Decidable e.IsPlain
  | .any | .host _ => isTrue trivial
  | .network n => inferInstanceAs (Decidable (n.mask ∈ Netmask.table))
  | .named name => inferInstanceAs (Decidable (Text.IsWord name))

/-- The endpoint is spelled in words, whatever its mask stands for. -/
def IsSpelled : Endpoint → Prop
  | .any | .host _ => True
  | .network n => isIPv4 n.mask = true
  | .named name => Text.IsWord name

instance : (e : Endpoint) → Decidable e.IsSpelled
  | .any | .host _ => isTrue trivial
  | .network n => inferInstanceAs (Decidable (isIPv4 n.mask = true))
  | .named name => inferInstanceAs (Decidable (Text.IsWord name))

theorem IsPlain.isSpelled {e : Endpoint} (he : e.IsPlain) : e.IsSpelled := by
  cases e with
  | network n => exact Netmask.isIPv4_of_mem_table he
  | any => trivial
  | host address => trivial
  | named name => exact he

/-- Every address matches the endpoint. -/
def IsEverything (e : Endpoint) : Prop := e.canonical = .any

instance (e : Endpoint) : Decidable e.IsEverything := inferInstanceAs (Decidable (_ = _))

/-- The endpoint is what its own text means, and it is spelled without a mask where it can be. -/
def IsCanonical : Endpoint → Prop
  | .any => True
  | .host address => isIPv4 address = true
  | .network n =>
    isIPv4 n.address = true ∧ n.mask ∈ Netmask.table ∧ n.mask ≠ Netmask.everything
      ∧ n.mask ≠ Netmask.single
  | .named name => Text.IsWord name ∧ classify name = .named name

theorem canonical_eq_self {e : Endpoint} (he : e.IsCanonical) : e.canonical = e := by
  cases e with
  | network n => rw [canonical, if_neg he.2.2.1, if_neg he.2.2.2]
  | any => rfl
  | host address => rfl
  | named name => rfl

/-- A text that begins as an address does is no keyword. -/
theorem classify_of_head {s : String} (htrim : Text.trim s = s)
    (hhead : ∃ c cs, s.toList = c :: cs ∧ (Chars.isNumeric c = true ∨ c = '.')) :
    classify s
      = match (Network.read? s).filter fun n => isIPv4 n.address with
        | some n => .network n
        | none => if isIPv4 s then .host s else .named s := by
  obtain ⟨c, cs, hlist, hc⟩ := hhead
  have hempty : s.isEmpty = false := by
    rw [String.isEmpty_eq_false_iff]
    rintro rfl
    cases hlist
  have hkeyword : Text.sameIgnoringCase s anyText = false := by
    rw [Text.sameIgnoringCase, beq_eq_false_iff_ne]
    intro h
    have hlower : s.toList.map Char.toLower = anyText.toList.map Char.toLower :=
      String.ofList_inj.1 h
    rw [hlist] at hlower
    have hfirst : c.toLower = 'a' := (List.cons.inj hlower).1
    have hnat : c.toLower.toNat = 97 := by rw [hfirst]; rfl
    rw [Chars.toNat_toLower] at hnat
    have hcase : c = 'a' ∨ c = 'A' := by
      split at hnat
      · exact .inr (Char.toNat_inj.1 (by change c.toNat = 65; omega))
      · exact .inl (Char.toNat_inj.1 hnat)
    rcases hcase with rfl | rfl <;> exact absurd hc (by decide)
  have hany4 : (s == "any4") = false := by
    rw [beq_eq_false_iff_ne]
    rintro rfl
    rw [← (List.cons.inj hlist).1] at hc
    exact absurd hc (by decide)
  rw [classify, htrim, hempty, hkeyword, hany4]
  rfl

theorem exists_head_of_isIPv4 {s : String} (h : isIPv4 s = true) (t : List Char) :
    ∃ c cs, s.toList ++ t = c :: cs ∧ (Chars.isNumeric c = true ∨ c = '.') := by
  obtain ⟨hne, hall⟩ := isNumeric_of_isIPv4 h
  obtain ⟨c, cs, hlist⟩ := List.exists_cons_of_ne_nil hne
  rw [hlist] at hall ⊢
  exact ⟨c, cs ++ t, rfl, hall c List.mem_cons_self⟩

theorem classify_of_isIPv4 {s : String} (h : isIPv4 s = true) : classify s = .host s := by
  have hword := isWord_of_isIPv4 h
  have hread : Network.read? s = none := by
    rw [Network.read?, hword.words_eq]
    simp only [Text.cut_eq_none (not_mem_slash_of_isIPv4 h)]
  have hhead := exists_head_of_isIPv4 h []
  rw [List.append_nil] at hhead
  rw [classify_of_head hword.trim_eq hhead, hread]
  exact if_pos h

theorem classify_cidr {n : Network} (ha : isIPv4 n.address = true) (hm : n.mask ∈ Netmask.table) :
    classify n.cidr = .network n := by
  have hhead : ∃ c cs, n.cidr.toList = c :: cs ∧ (Chars.isNumeric c = true ∨ c = '.') := by
    rw [Network.cidr_eq ha, String.toList_append, String.toList_append, List.append_assoc]
    exact exists_head_of_isIPv4 ha _
  rw [classify_of_head (Network.isWord_cidr ha).trim_eq hhead, Network.read?_cidr ha hm,
    Option.filter_some, if_pos ha]

/-- **The text of an endpoint is read as that endpoint.** -/
theorem classify_text {e : Endpoint} (he : e.IsCanonical) : classify e.text = e := by
  cases e with
  | any => decide
  | host address => exact classify_of_isIPv4 he
  | network n => exact classify_cidr he.1 he.2.1
  | named name => exact he.2

theorem isPlain_of_isCanonical {e : Endpoint} (he : e.IsCanonical) : e.IsPlain := by
  cases e with
  | any => trivial
  | host address => trivial
  | network n => exact he.2.1
  | named name => exact he.1

/-- What the text of an endpoint means has an address, or a name that means itself. -/
theorem classify_spec (s : String) :
    match classify s with
    | .any => True
    | .host address => isIPv4 address = true
    | .network n => isIPv4 n.address = true
    | .named name => classify name = .named name := by
  have hname : classify (Text.trim s) = classify s := by rw [classify, Text.trim_trim, ← classify]
  generalize hc : classify s = e at hname
  rw [classify] at hc
  split at hc
  · rw [← hc]
    trivial
  · split at hc
    · next n hn =>
      rw [← hc]
      exact (Option.filter_eq_some_iff.1 hn).2
    · split at hc
      · next hip =>
        rw [← hc]
        exact hip
      · rw [← hc] at hname ⊢
        exact hname

/-- What one word means has an address and a word for a mask, or it is a word itself. -/
theorem classify_spec_of_isWord {s : String} (hs : Text.IsWord s) :
    match classify s with
    | .any => True
    | .host address => isIPv4 address = true
    | .network n => isIPv4 n.address = true ∧ Text.IsWord n.mask
    | .named name => Text.IsWord name := by
  have hspec := classify_spec s
  generalize hc : classify s = e at hspec
  rw [classify, hs.trim_eq] at hc
  split at hc
  · rw [← hc]
    trivial
  · split at hc
    · next n hn =>
      rw [← hc] at hspec ⊢
      exact ⟨hspec, Network.isWord_mask_of_read? hs (Option.filter_eq_some_iff.1 hn).1⟩
    · split at hc
      · rw [← hc] at hspec ⊢
        exact hspec
      · rw [← hc]
        exact hs

/-- An endpoint that can be written as words has a canonical form. -/
theorem isCanonical_canonical {s : String} (h : (classify s).IsPlain) :
    (classify s).canonical.IsCanonical := by
  have hspec := classify_spec s
  cases hc : classify s with
  | any => trivial
  | host address =>
    rw [hc] at hspec
    exact hspec
  | network n =>
    rw [hc] at hspec h
    rw [canonical]
    split
    · trivial
    · split
      · exact hspec
      · exact ⟨hspec, h, ‹_›, ‹_›⟩
  | named name =>
    rw [hc] at hspec h
    exact ⟨h, hspec⟩

/-- **The text of an endpoint means everything exactly if the endpoint does**: a mask outside the table
is written as the default one, which is not the mask of everything. -/
theorem isEverything_classify_text {s : String} (h : (classify s).IsSpelled) :
    (classify (classify s).canonical.text).IsEverything ↔ (classify s).IsEverything := by
  have hspec := classify_spec s
  cases hc : classify s with
  | any => exact iff_of_true (by decide) rfl
  | host address =>
    rw [hc] at hspec
    have htext : classify (canonical (.host address)).text = .host address :=
      classify_of_isIPv4 hspec
    rw [htext]
  | named name =>
    rw [hc] at hspec
    have htext : classify (canonical (.named name)).text = .named name := hspec
    rw [htext]
  | network n =>
    rw [hc] at hspec h
    have hfixed {e : Endpoint} (he : e.IsCanonical) : (classify e.text).IsEverything ↔ e = .any := by
      rw [classify_text he, IsEverything, canonical_eq_self he]
    by_cases hm : n.mask ∈ Netmask.table
    · have hcanonical := isCanonical_canonical (s := s) (by rw [hc]; exact hm)
      rw [hc] at hcanonical
      exact hfixed hcanonical
    · have hdefault := Network.cidr_eq_cidr_default h hm
      have hne : n.mask ≠ Netmask.everything ∧ n.mask ≠ Netmask.single := by
        constructor <;> rintro heq <;> exact hm (heq ▸ by decide)
      have hcanonical : canonical (.network n) = .network n := by
        rw [canonical, if_neg hne.1, if_neg hne.2]
      have htext : (Endpoint.network n).text
          = (Endpoint.network ⟨n.address, Netmask.defaultMask⟩).text := hdefault
      have hmask : Netmask.defaultMask ∈ Netmask.table ∧ Netmask.defaultMask ≠ Netmask.everything
          ∧ Netmask.defaultMask ≠ Netmask.single := by decide
      have hdefaultCanonical : IsCanonical (.network ⟨n.address, Netmask.defaultMask⟩) :=
        ⟨hspec, hmask⟩
      rw [hcanonical, htext, hfixed hdefaultCanonical, IsEverything, hcanonical]
      exact iff_of_false nofun nofun

end Endpoint

end FirewallConfig
