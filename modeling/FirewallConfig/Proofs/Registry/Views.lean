import FirewallConfig.Proofs.Keyed
import FirewallConfig.Proofs.Registry.Conversion
import FirewallConfig.Registry.Matrix

/-!
# Proofs/Registry/Views — three ways to ask which conversions there are

A registry lists the targets of a source, it gives the pairs that are supported, and it converts.  For a
registry that is made of rows, each of the three is told in terms of the rows (`mem_targets_ofRows_iff`,
`mem_supportedPairs_ofRows_iff`, `convert_ofRows_iff`): of the rows of a vendor the first one counts, and
of those of a pair the last one.  Listing and converting agree, and both agree with the pairs just where
the vendors are listed (`views_ofRows`).
-/

namespace FirewallConfig

/-! ## The rows that count -/

/-- The row is the first one that names a dialect. -/
def VendorRow.IsFirstOf (rows : List VendorRow) (d : Dialect) (row : VendorRow) : Prop :=
  Dialect.ofId? row.id = some d ∧ ∃ before after, rows = before ++ row :: after
    ∧ ∀ other ∈ before, Dialect.ofId? other.id ≠ some d

/-- The row is the last one that names a pair of dialects. -/
def ConversionRow.IsLastOf (rows : List ConversionRow) (s t : Dialect) (row : ConversionRow) : Prop :=
  row.pair? = some (s, t) ∧ ∃ before after, rows = before ++ row :: after
    ∧ ∀ other ∈ after, other.pair? ≠ some (s, t)

/-- The rows list a vendor for a dialect.  Where no row names any dialect, the known vendors are
listed. -/
inductive IsListed (rows : List VendorRow) (d : Dialect) : Vendor → Prop
  | row {row : VendorRow} (hrow : row.IsFirstOf rows d) : IsListed rows d { row with dialect := d }
  | known {v : Vendor} (hrows : ∀ row ∈ rows, Dialect.ofId? row.id = none)
      (hv : v ∈ Registry.knownVendors) (hd : v.dialect = d) : IsListed rows d v

theorem IsListed.dialect {rows : List VendorRow} {d : Dialect} {v : Vendor}
    (h : IsListed rows d v) : v.dialect = d := by
  cases h with
  | row => rfl
  | known _ _ hd => exact hd

namespace Registry

/-! ## Vendors -/

/-- A vendor is listed unless there is one of its dialect. -/
theorem find?_foldl_enlist (d : Dialect) (vs ws : List Vendor) :
    (vs.foldl enlist ws).find? (·.dialect == d)
      = (ws.find? (·.dialect == d)).or (vs.find? (·.dialect == d)) := by
  induction vs generalizing ws with
  | nil => exact (Option.or_none).symm
  | cons v vs ih =>
    rw [List.foldl_cons, ih, enlist]
    split
    · next hany =>
      cases hvd : v.dialect == d with
      | true =>
        have hsome : (ws.find? (·.dialect == d)).isSome := by
          rw [← beq_iff_eq.1 hvd]
          exact List.find?_isSome.2 (List.any_eq_true.1 hany)
        obtain ⟨w, hw⟩ := Option.isSome_iff_exists.1 hsome
        rw [hw]
        rfl
      | false => rw [List.find?_cons_of_neg (by simp [hvd])]
    · rw [List.find?_append, Option.or_assoc, List.find?_singleton, List.find?_cons]
      cases v.dialect == d <;> rfl

theorem nodup_dialect_foldl_enlist (vs : List Vendor) {ws : List Vendor}
    (h : (ws.map (·.dialect)).Nodup) : ((vs.foldl enlist ws).map (·.dialect)).Nodup := by
  induction vs generalizing ws with
  | nil => exact h
  | cons v vs ih =>
    refine ih ?_
    rw [enlist]
    split
    · exact h
    · next hany =>
      have hput := amendFirst_of_not_any (Bool.eq_false_iff.2 hany) v fun _ => v
      exact hput ▸ nodup_map_putBy (·.dialect) v h

theorem nodup_dialect_knownVendors : (knownVendors.map (·.dialect)).Nodup := by decide

/-- No dialect is listed twice. -/
theorem nodup_dialect_ofRows (vs : List VendorRow) (cs : List ConversionRow) :
    ((ofRows vs cs).vendors.map (·.dialect)).Nodup := by
  rw [ofRows]
  dsimp only
  split
  · exact nodup_dialect_knownVendors
  · exact nodup_dialect_foldl_enlist _ List.nodup_nil

/-- **Of the rows of a dialect the first one is listed.** -/
theorem find?_listed_eq_some_iff {rows : List VendorRow} {d : Dialect} {v : Vendor} :
    (listed rows).find? (·.dialect == d) = some v
      ↔ ∃ row : VendorRow, row.IsFirstOf rows d ∧ v = { row with dialect := d } := by
  have hnames (row : VendorRow) :
      (row.vendor?.any (·.dialect == d)) = (Dialect.ofId? row.id == some d) := by
    rw [VendorRow.vendor?]
    cases Dialect.ofId? row.id <;> rfl
  have hvendor {row : VendorRow} (hrow : Dialect.ofId? row.id = some d) :
      row.vendor? = some { row with dialect := d } := by
    rw [VendorRow.vendor?, hrow]
    rfl
  rw [listed, find?_foldl_enlist, List.find?_nil, Option.none_or, List.find?_filterMap,
    Option.bind_eq_some_iff]
  simp only [hnames]
  refine exists_congr fun row => ?_
  rw [VendorRow.IsFirstOf, List.find?_eq_some_iff_append, beq_iff_eq]
  simp only [Bool.not_eq_true', beq_eq_false_iff_ne]
  refine and_congr_right fun hrow => ?_
  rw [hvendor hrow.1, Option.some.injEq, eq_comm]

/-- Nothing is listed just if no row names a dialect. -/
theorem isEmpty_listed_iff (rows : List VendorRow) :
    (listed rows).isEmpty = true ↔ ∀ row ∈ rows, Dialect.ofId? row.id = none := by
  rw [List.isEmpty_iff]
  constructor
  · intro hnil row hrow
    cases hd : Dialect.ofId? row.id with
    | none => rfl
    | some d =>
      have hfirst : (rows.find? fun row => Dialect.ofId? row.id == some d).isSome :=
        List.find?_isSome.2 ⟨row, hrow, beq_iff_eq.2 hd⟩
      obtain ⟨first, hfirst⟩ := Option.isSome_iff_exists.1 hfirst
      rw [List.find?_eq_some_iff_append, beq_iff_eq] at hfirst
      simp only [Bool.not_eq_true', beq_eq_false_iff_ne] at hfirst
      have hfind := find?_listed_eq_some_iff.2 ⟨first, hfirst, rfl⟩
      rw [hnil] at hfind
      cases hfind
  · intro hrows
    have hnone : rows.filterMap VendorRow.vendor? = [] :=
      List.filterMap_eq_nil_iff.2 fun row hrow => by rw [VendorRow.vendor?, hrows row hrow]; rfl
    rw [listed, hnone]
    rfl

/-- **The vendor of a dialect is the one that the rows list for it.** -/
theorem vendorOf?_ofRows_eq_some_iff {vs : List VendorRow} {cs : List ConversionRow} {d : Dialect}
    {v : Vendor} : (ofRows vs cs).vendorOf? d = some v ↔ IsListed vs d v := by
  rw [vendorOf?, ofRows]
  dsimp only
  split
  · next hempty =>
    have hrows := (isEmpty_listed_iff vs).1 hempty
    constructor
    · intro h
      have hd := List.find?_some h
      exact .known hrows (List.mem_of_find?_eq_some h) (beq_iff_eq.1 hd)
    · rintro (⟨hrow⟩ | ⟨-, hv, rfl⟩)
      · obtain ⟨hid, before, after, heq, -⟩ := hrow
        have hmem : _ ∈ vs := heq ▸ List.mem_append_right _ List.mem_cons_self
        rw [hrows _ hmem] at hid
        cases hid
      · exact find?_eq_some_of_nodup (·.dialect) nodup_dialect_knownVendors hv
  · next hempty =>
    rw [find?_listed_eq_some_iff]
    constructor
    · rintro ⟨row, hrow, rfl⟩
      exact .row hrow
    · rintro (⟨hrow⟩ | ⟨hrows, -, -⟩)
      · exact ⟨_, hrow, rfl⟩
      · exact absurd ((isEmpty_listed_iff vs).2 hrows) hempty

theorem mem_vendors_ofRows_iff {vs : List VendorRow} {cs : List ConversionRow} {v : Vendor} :
    v ∈ (ofRows vs cs).vendors ↔ IsListed vs v.dialect v := by
  have hvendor : (ofRows vs cs).vendorOf? v.dialect = some v ↔ IsListed vs v.dialect v :=
    vendorOf?_ofRows_eq_some_iff
  rw [← hvendor, vendorOf?]
  exact ⟨find?_eq_some_of_nodup Vendor.dialect (nodup_dialect_ofRows vs cs),
    List.mem_of_find?_eq_some⟩

/-! ## Pairs -/

/-- **Of the rows of a pair the last one counts.** -/
theorem cell?_ofRows_eq_some_iff {vs : List VendorRow} {cs : List ConversionRow} {s t : Dialect}
    {cell : Cell} : (ofRows vs cs).cell? s t = some cell
      ↔ ∃ row : ConversionRow, row.IsLastOf cs s t ∧ row.cell = cell := by
  rw [ofRows, Option.map_eq_some_iff]
  refine exists_congr fun row => and_congr_left fun _ => ?_
  rw [ConversionRow.IsLastOf, List.find?_eq_some_iff_append, beq_iff_eq]
  simp only [Bool.not_eq_true', beq_eq_false_iff_ne]
  refine and_congr_right fun _ => ⟨?_, ?_⟩
  · rintro ⟨after, before, heq, hafter⟩
    refine ⟨before.reverse, after.reverse, ?_, fun other hother => hafter other (List.mem_reverse.1 hother)⟩
    rw [List.reverse_eq_append_iff] at heq
    simpa using heq
  · rintro ⟨before, after, rfl, hafter⟩
    exact ⟨after.reverse, before.reverse, by simp,
      fun other hother => hafter other (List.mem_reverse.1 hother)⟩

theorem conversion?_eq_some_iff {r : Registry} {s t : Dialect} {complexity : Complexity} :
    r.conversion? s t = some complexity ↔ r.cell? s t = some ⟨true, complexity⟩ := by
  rw [conversion?]
  cases r.cell? s t with
  | none => simp
  | some cell =>
    obtain ⟨supported, level⟩ := cell
    cases supported <;> simp

/-! ## The three views -/

section Views

variable {vs : List VendorRow} {cs : List ConversionRow}

/-- **The targets of a source** are the vendors that are listed and have a row with it. -/
theorem mem_targets_ofRows_iff {source : String} {s : Dialect} (hs : Dialect.ofId? source = some s)
    {o : Target} : o ∈ (ofRows vs cs).targets source
      ↔ (∃ v, IsListed vs s v) ∧ IsListed vs o.vendor.dialect o.vendor
        ∧ ∃ row : ConversionRow, row.IsLastOf cs s o.vendor.dialect ∧ row.cell = o.cell := by
  have hvendor : (ofRows vs cs).vendor? source = (ofRows vs cs).vendorOf? s := by
    rw [vendor?, hs, Option.bind_some]
  rw [targets, hvendor]
  cases hv : (ofRows vs cs).vendorOf? s with
  | none =>
    refine iff_of_false List.not_mem_nil ?_
    rintro ⟨⟨v, hlisted⟩, -⟩
    rw [vendorOf?_ofRows_eq_some_iff.2 hlisted] at hv
    cases hv
  | some v =>
    have hlisted := vendorOf?_ofRows_eq_some_iff.1 hv
    have hmem : o.vendor ∈ (ofRows vs cs).vendors ↔ IsListed vs o.vendor.dialect o.vendor :=
      mem_vendors_ofRows_iff
    have hrow : (ofRows vs cs).cell? s o.vendor.dialect = some o.cell ↔ ∃ row : ConversionRow,
        row.IsLastOf cs s o.vendor.dialect ∧ row.cell = o.cell := cell?_ofRows_eq_some_iff
    rw [and_iff_right ⟨v, hlisted⟩, ← hmem, ← hrow]
    dsimp only
    rw [hlisted.dialect, List.mem_filterMap]
    constructor
    · rintro ⟨w, hw, hcell⟩
      obtain ⟨cell, hsome, rfl⟩ := Option.map_eq_some_iff.1 hcell
      exact ⟨hw, hsome⟩
    · rintro ⟨hw, hcell⟩
      exact ⟨o.vendor, hw, by rw [hcell]; rfl⟩

/-- **The pairs that are supported** are those whose row says so, whoever is listed. -/
theorem mem_supportedPairs_ofRows_iff {s t : Dialect} {complexity : Complexity} :
    (s, t, complexity) ∈ (ofRows vs cs).supportedPairs
      ↔ ∃ row : ConversionRow, row.IsLastOf cs s t ∧ row.cell = ⟨true, complexity⟩ := by
  have hall (d : Dialect) : d ∈ Dialect.all := by cases d <;> decide
  have hrow : (ofRows vs cs).cell? s t = some ⟨true, complexity⟩ ↔ ∃ row : ConversionRow,
      row.IsLastOf cs s t ∧ row.cell = ⟨true, complexity⟩ := cell?_ofRows_eq_some_iff
  rw [← hrow, ← conversion?_eq_some_iff, supportedPairs, List.mem_flatMap]
  constructor
  · rintro ⟨s', -, hmem⟩
    obtain ⟨t', -, hmem⟩ := List.mem_filterMap.1 hmem
    obtain ⟨complexity', h, heq⟩ := Option.map_eq_some_iff.1 hmem
    cases heq
    exact h
  · intro h
    exact ⟨s, hall s, List.mem_filterMap.2 ⟨t, hall t, by rw [h]; rfl⟩⟩

/-- Where both vendors are listed and the row of their pair says so, the pair is supported. -/
theorem supports_ofRows_iff {source target : String} {s t : Dialect}
    (hs : Dialect.ofId? source = some s) (ht : Dialect.ofId? target = some t) {v w : Vendor}
    {complexity : Complexity} : (ofRows vs cs).Supports source target v w complexity
      ↔ IsListed vs s v ∧ IsListed vs t w
        ∧ ∃ row : ConversionRow, row.IsLastOf cs s t ∧ row.cell = ⟨true, complexity⟩ := by
  have hsource : (ofRows vs cs).vendor? source = some v ↔ IsListed vs s v := by
    rw [vendor?, hs, Option.bind_some, vendorOf?_ofRows_eq_some_iff]
  have htarget : (ofRows vs cs).vendor? target = some w ↔ IsListed vs t w := by
    rw [vendor?, ht, Option.bind_some, vendorOf?_ofRows_eq_some_iff]
  have hpair : (ofRows vs cs).conversion? s t = some complexity
      ↔ ∃ row : ConversionRow, row.IsLastOf cs s t ∧ row.cell = ⟨true, complexity⟩ := by
    rw [conversion?_eq_some_iff, cell?_ofRows_eq_some_iff]
  rw [← hpair, ← hsource, ← htarget]
  constructor
  · rintro ⟨hv, hw, h⟩
    rw [(hsource.1 hv).dialect, (htarget.1 hw).dialect] at h
    exact ⟨hv, hw, h⟩
  · rintro ⟨hv, hw, h⟩
    refine ⟨hv, hw, ?_⟩
    rwa [(hsource.1 hv).dialect, (htarget.1 hw).dialect]

/-- **What converts** are two vendors that are listed, where the row of their pair says so. -/
theorem convert_ofRows_iff {source target : String} {s t : Dialect}
    (hs : Dialect.ofId? source = some s) (ht : Dialect.ofId? target = some t) {text : String}
    {c : Conversion} : (ofRows vs cs).convert false source target text = .ok c
      ↔ ∃ v w complexity, (IsListed vs s v ∧ IsListed vs t w
          ∧ ∃ row : ConversionRow, row.IsLastOf cs s t ∧ row.cell = ⟨true, complexity⟩)
        ∧ c = converted v w complexity text := by
  have hcheck (v : Vendor) : (v.dialect.read text).checkGroups false = .ok () := rfl
  simp only [convert_eq_ok_iff, supports_ofRows_iff hs ht, hcheck, true_and]

end Views

/-- The target is listed as supported. -/
def ListsSupported (r : Registry) (source : String) (t : Dialect) : Prop :=
  ∃ o ∈ r.targets source, o.vendor.dialect = t ∧ o.cell.supported = true

/-- The pair is among those that are supported. -/
def PairsSupported (r : Registry) (s t : Dialect) : Prop :=
  ∃ complexity, (s, t, complexity) ∈ r.supportedPairs

/-- Every text is converted, unless references are checked strictly. -/
def ConvertsAll (r : Registry) (source target : String) : Prop :=
  ∀ text, ∃ c, r.convert false source target text = .ok c

/-- **Listing and converting agree, and the pairs go with them just where both vendors are listed.**
In all three views the first row of a vendor counts, and the last row of a pair. -/
theorem views_ofRows (vs : List VendorRow) (cs : List ConversionRow) {source target : String}
    {s t : Dialect} (hs : Dialect.ofId? source = some s) (ht : Dialect.ofId? target = some t) :
    let r := ofRows vs cs
    (r.ListsSupported source t ↔ r.ConvertsAll source target)
      ∧ (r.ListsSupported source t
        ↔ r.PairsSupported s t ∧ (∃ v, IsListed vs s v) ∧ ∃ w, IsListed vs t w)
      ∧ (∀ o, o ∈ r.targets source
        ↔ (∃ v, IsListed vs s v) ∧ IsListed vs o.vendor.dialect o.vendor
          ∧ ∃ row : ConversionRow, row.IsLastOf cs s o.vendor.dialect ∧ row.cell = o.cell)
      ∧ (∀ complexity, (s, t, complexity) ∈ r.supportedPairs
        ↔ ∃ row : ConversionRow, row.IsLastOf cs s t ∧ row.cell = ⟨true, complexity⟩)
      ∧ ∀ text c, r.convert false source target text = .ok c
        ↔ ∃ v w complexity, (IsListed vs s v ∧ IsListed vs t w
            ∧ ∃ row : ConversionRow, row.IsLastOf cs s t ∧ row.cell = ⟨true, complexity⟩)
          ∧ c = converted v w complexity text := by
  intro r
  have hlists : r.ListsSupported source t
      ↔ r.PairsSupported s t ∧ (∃ v, IsListed vs s v) ∧ ∃ w, IsListed vs t w := by
    constructor
    · rintro ⟨⟨w, supported, complexity⟩, ho, rfl, hsupported⟩
      dsimp only at hsupported
      subst hsupported
      obtain ⟨hv, hw, hrow⟩ := (mem_targets_ofRows_iff hs).1 ho
      exact ⟨⟨complexity, mem_supportedPairs_ofRows_iff.2 hrow⟩, hv, w, hw⟩
    · rintro ⟨⟨complexity, hpair⟩, hv, w, hw⟩
      have hd := hw.dialect
      subst hd
      exact ⟨⟨w, true, complexity⟩, (mem_targets_ofRows_iff hs).2
        ⟨hv, hw, mem_supportedPairs_ofRows_iff.1 hpair⟩, rfl, rfl⟩
  have hconverts : r.ConvertsAll source target
      ↔ r.PairsSupported s t ∧ (∃ v, IsListed vs s v) ∧ ∃ w, IsListed vs t w := by
    constructor
    · intro h
      obtain ⟨c, hc⟩ := h ""
      obtain ⟨v, w, complexity, ⟨hv, hw, hrow⟩, -⟩ := (convert_ofRows_iff hs ht).1 hc
      exact ⟨⟨complexity, mem_supportedPairs_ofRows_iff.2 hrow⟩, ⟨v, hv⟩, w, hw⟩
    · rintro ⟨⟨complexity, hpair⟩, ⟨v, hv⟩, w, hw⟩ text
      exact ⟨_, (convert_ofRows_iff hs ht).2
        ⟨v, w, complexity, ⟨hv, hw, mem_supportedPairs_ofRows_iff.1 hpair⟩, rfl⟩⟩
  exact ⟨hlists.trans hconverts.symm, hlists, fun _ => mem_targets_ofRows_iff hs,
    fun _ => mem_supportedPairs_ofRows_iff, fun _ _ => convert_ofRows_iff hs ht⟩

/-- Rows that name a vendor twice, and one that names none. -/
def repeatedVendorRows : List VendorRow :=
  [{ id := "junos", name := "Junos" }, { id := "fortigate", name := "first" },
   { id := "palo-alto", name := "other" }, { id := "FortiGate", name := "second" }]

/-- Rows that name a pair twice. -/
def repeatedConversionRows : List ConversionRow :=
  [{ source := "fortigate", target := "palo-alto", cell := { supported := false } },
   { source := "fortigate", target := "palo-alto", cell := { complexity := .low } }]

/-- An id is read in any case and with blanks around it, and rows may be repeated. -/
theorem views_ofRows_repeatedRows :
    Dialect.ofId? " FortiGate" = some .fortiGate ∧ Dialect.ofId? "palo-alto" = some .paloAlto
      ∧ (let vs := repeatedVendorRows
        let cs := repeatedConversionRows
        let r := ofRows vs cs
        (r.ListsSupported " FortiGate" .paloAlto ↔ r.ConvertsAll " FortiGate" "palo-alto")
          ∧ (r.ListsSupported " FortiGate" .paloAlto
            ↔ r.PairsSupported .fortiGate .paloAlto
              ∧ (∃ v, IsListed vs .fortiGate v) ∧ ∃ w, IsListed vs .paloAlto w)
          ∧ (∀ o, o ∈ r.targets " FortiGate"
            ↔ (∃ v, IsListed vs .fortiGate v) ∧ IsListed vs o.vendor.dialect o.vendor
              ∧ ∃ row : ConversionRow,
                row.IsLastOf cs .fortiGate o.vendor.dialect ∧ row.cell = o.cell)
          ∧ (∀ complexity, (.fortiGate, .paloAlto, complexity) ∈ r.supportedPairs
            ↔ ∃ row : ConversionRow,
              row.IsLastOf cs .fortiGate .paloAlto ∧ row.cell = ⟨true, complexity⟩)
          ∧ ∀ text c, r.convert false " FortiGate" "palo-alto" text = .ok c
            ↔ ∃ v w complexity, (IsListed vs .fortiGate v ∧ IsListed vs .paloAlto w
                ∧ ∃ row : ConversionRow,
                  row.IsLastOf cs .fortiGate .paloAlto ∧ row.cell = ⟨true, complexity⟩)
              ∧ c = converted v w complexity text) := by
  have hs : Dialect.ofId? " FortiGate" = some .fortiGate := by decide
  have ht : Dialect.ofId? "palo-alto" = some .paloAlto := by decide
  exact ⟨hs, ht, views_ofRows repeatedVendorRows repeatedConversionRows hs ht⟩

/-- **A pair whose target is not listed is supported**, and it is no target and does not convert. -/
theorem not_listed_unlistedRows :
    let r := ofRows [{ id := "fortigate", name := "FortiGate" }]
      [{ source := "fortigate", target := "palo-alto" }]
    r.PairsSupported .fortiGate .paloAlto
      ∧ ¬ r.ListsSupported "fortigate" .paloAlto
      ∧ ∀ text, r.convert false "fortigate" "palo-alto" text
        = .error { error := .unknownVendor "palo-alto", source? := some "FortiGate", target? := none } := by
  intro r
  have hpairs : r.supportedPairs = [(.fortiGate, .paloAlto, .medium)] := by decide
  have htargets : r.targets "fortigate" = [] := by decide
  have hsource : r.vendor? "fortigate" = some { dialect := .fortiGate, name := "FortiGate" } := by
    decide
  have htarget : r.vendor? "palo-alto" = none := by decide
  refine ⟨⟨.medium, hpairs ▸ List.mem_singleton_self _⟩, ?_, fun text => ?_⟩
  · rintro ⟨o, ho, -⟩
    rw [htargets] at ho
    cases ho
  · rw [convert, tryConvert, findVendor, findVendor, hsource, htarget]
    rfl

end Registry

end FirewallConfig
