import FirewallConfig.Proofs.Address.Endpoint
import FirewallConfig.Proofs.Service.ServiceRef

/-!
# Proofs/Service/NormalForm — the texts of endpoints and of services are stable

What is read of a text is written in one form, and that form is read again as it was
(`classify_stable`).  A service keeps its meaning, and so does an endpoint, with one exception: a
mask that is no network mask has no prefix length, so the network is written with the default one
and means that network from then on (`Network.exists_cidr_eq`).
-/

namespace FirewallConfig

/-! ## Endpoints -/

/-- Every prefix length that is written is that of a mask of the table. -/
theorem Netmask.exists_prefixOrDefault_eq (mask : String) :
    ∃ m ∈ table, prefixOrDefault m = prefixOrDefault mask := by
  cases hbits : prefix? mask with
  | none =>
    refine ⟨defaultMask, by decide, ?_⟩
    rw [prefixOrDefault, prefixOrDefault, hbits]
    decide +kernel
  | some k =>
    have hmem : Text.trim mask ∈ table := List.isSome_idxOf?.1 (Option.isSome_of_eq_some hbits)
    refine ⟨Text.trim mask, hmem, ?_⟩
    rw [prefixOrDefault, prefixOrDefault, prefix?, prefix?, Text.trim_trim]

/-- A network is written as one whose mask is in the table. -/
theorem Network.exists_cidr_eq (n : Network) :
    ∃ mask ∈ Netmask.table, n.cidr = (Network.mk n.address mask).cidr := by
  obtain ⟨mask, hmask, hbits⟩ := Netmask.exists_prefixOrDefault_eq n.mask
  refine ⟨mask, hmask, ?_⟩
  rw [cidr, cidr, hbits]

namespace Endpoint

/-- What a text means is written, and the writing means it too, unless it is a network whose mask is
outside the table; then another network is written in the same way. -/
theorem exists_normal (s : String) :
    ∃ e : Endpoint, normalize s = e.text ∧ classify e.text = e
      ∧ (e = classify s ∧ (∀ n, classify s = .network n → n.mask ∈ Netmask.table)
        ∨ ∃ n, classify s = .network n ∧ n.mask ∉ Netmask.table
          ∧ ∃ mask ∈ Netmask.table, e = .network ⟨n.address, mask⟩) := by
  have hspec := classify_spec s
  rw [normalize]
  cases hs : classify s with
  | any => exact ⟨.any, rfl, by decide, .inl ⟨rfl, nofun⟩⟩
  | host address =>
    rw [hs] at hspec
    exact ⟨.host address, rfl, classify_of_isIPv4 hspec, .inl ⟨rfl, nofun⟩⟩
  | named name =>
    rw [hs] at hspec
    exact ⟨.named name, rfl, hspec, .inl ⟨rfl, nofun⟩⟩
  | network n =>
    rw [hs] at hspec
    by_cases hmask : n.mask ∈ Netmask.table
    · refine ⟨.network n, rfl, classify_cidr hspec hmask, .inl ⟨rfl, ?_⟩⟩
      rintro m ⟨⟩
      exact hmask
    · obtain ⟨mask, hmem, hcidr⟩ := n.exists_cidr_eq
      have hread : classify (Network.mk n.address mask).cidr = .network ⟨n.address, mask⟩ :=
        classify_cidr hspec hmem
      exact ⟨.network ⟨n.address, mask⟩, hcidr, hread, .inr ⟨n, rfl, hmask, mask, hmem, rfl⟩⟩

theorem normalize_normalize (s : String) : normalize (normalize s) = normalize s := by
  obtain ⟨e, htext, hclassify, -⟩ := exists_normal s
  rw [htext, normalize, hclassify]

/-- **The normal form keeps the meaning** exactly where no mask is outside the table. -/
theorem classify_normalize_eq_iff (s : String) :
    classify (normalize s) = classify s
      ↔ ∀ n, classify s = .network n → n.mask ∈ Netmask.table := by
  obtain ⟨e, htext, hclassify, ⟨rfl, hmask⟩ | ⟨n, hs, hmask, mask, hmem, rfl⟩⟩ := exists_normal s
  · exact iff_of_true (by rw [htext, hclassify]) hmask
  · refine iff_of_false ?_ fun h => hmask (h n hs)
    rw [htext, hclassify, hs]
    intro heq
    have hsame : mask = n.mask := congrArg Network.mask (Endpoint.network.inj heq)
    exact hmask (hsame ▸ hmem)

/-- A mask with a hole is replaced. -/
example : classify (normalize "10.0.0.0 255.0.255.0") = .network ⟨"10.0.0.0", "255.255.255.0"⟩ := by
  decide +kernel

end Endpoint

/-! ## Services -/

namespace ServiceRef

open Text

/-- What the text of a service can mean. -/
theorem classify_cases (s : String) :
    classify s = .any ∨ ofPort? (lower (trim s)) = some (classify s)
      ∨ (∃ p ∈ protocols, p ≠ "ip" ∧ classify s = .protocol p)
      ∨ ∃ name, classify s = .named name := by
  rw [classify]
  split
  · exact .inl rfl
  · split
    · next ref href => exact .inr (.inl href)
    · split
      · exact .inl rfl
      · next hip =>
        split
        · next hprotocol =>
          exact .inr (.inr (.inl ⟨_, List.contains_iff_mem.1 hprotocol, by simpa using hip, rfl⟩))
        · exact .inr (.inr (.inr ⟨_, rfl⟩))

/-- **The text of a service means the service.** -/
theorem classify_text_classify (s : String) : classify (classify s).text = classify s := by
  obtain hany | hport | ⟨p, hp, hip, hprotocol⟩ | ⟨name, hname⟩ := classify_cases s
  · rw [hany]
    decide
  · have htrim : trim (lower (trim s)) = lower (trim s) := by rw [trim_lower, trim_trim]
    rw [(text_of_ofPort?_eq_some hport).1]
    exact classify_of_ofPort? htrim (lower_lower _) hport
  · have hwords : ∀ q ∈ protocols, q ≠ "ip" → classify q = .protocol q := by decide
    rw [hprotocol]
    exact hwords p hp hip
  · rw [hname]
    exact classify_of_eq_named hname

end ServiceRef

/-- **The written form is stable**, for endpoints and for services: it is its own written form, it
means the same service, and it means the same endpoint exactly if no mask is outside the table. -/
theorem classify_stable :
    (∀ s : String, Endpoint.normalize (Endpoint.normalize s) = Endpoint.normalize s
      ∧ (Endpoint.classify (Endpoint.normalize s) = Endpoint.classify s
        ↔ ∀ n, Endpoint.classify s = .network n → n.mask ∈ Netmask.table))
      ∧ ∀ s : String, ServiceRef.classify (ServiceRef.classify s).text = ServiceRef.classify s :=
  ⟨fun s => ⟨Endpoint.normalize_normalize s, Endpoint.classify_normalize_eq_iff s⟩,
    ServiceRef.classify_text_classify⟩

end FirewallConfig
