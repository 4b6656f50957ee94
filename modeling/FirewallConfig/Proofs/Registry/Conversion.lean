import FirewallConfig.Conversion

/-!
# Proofs/Registry/Conversion — what a conversion needs

A text is converted from one vendor to another if both are listed, their pair is supported, and the
check of its groups passes (`convert_eq_ok_iff`); where the first two hold, the check alone decides
(`convert_of_supports`).
-/

namespace FirewallConfig.Registry

/-- Both vendors are listed, and their pair is supported. -/
structure Supports (r : Registry) (source target : String) (v w : Vendor) (complexity : Complexity) :
    Prop where
  source : r.vendor? source = some v
  target : r.vendor? target = some w
  pair : r.conversion? v.dialect w.dialect = some complexity

/-- What a text is converted to. -/
def converted (v w : Vendor) (complexity : Complexity) (text : String) : Conversion :=
  let config := v.dialect.read text
  { source := v, target := w, complexity, config, output := w.dialect.write v.dialect config }

variable {r : Registry} {source target : String} {v w : Vendor} {complexity : Complexity}

theorem tryConvert_of_supports (h : r.Supports source target v w complexity) (strict : Bool)
    (text : String) : r.tryConvert strict source target text
      = ((v.dialect.read text).checkGroups strict).map
        fun _ => converted v w complexity text := by
  simp only [tryConvert, findVendor, h.source, h.target, findConversion, h.pair, bind, Except.bind,
    pure, Except.pure, Except.map]
  rfl

/-- **Between vendors that are supported, the check of groups decides.** -/
theorem convert_of_supports (h : r.Supports source target v w complexity) (strict : Bool)
    (text : String) : r.convert strict source target text
      = (((v.dialect.read text).checkGroups strict).map fun _ => converted v w complexity text).mapError
        fun error => { error, source? := some v.name, target? := some w.name } := by
  rw [convert, tryConvert_of_supports h, h.source, h.target]
  rfl

/-- A text is converted between vendors that are supported only. -/
theorem exists_supports_of_tryConvert {strict : Bool} {text : String} {c : Conversion}
    (h : r.tryConvert strict source target text = .ok c) :
    ∃ v w complexity, r.Supports source target v w complexity := by
  cases hsource : r.vendor? source with
  | none =>
    simp only [tryConvert, findVendor, hsource, bind, Except.bind] at h
    cases h
  | some v =>
    cases htarget : r.vendor? target with
    | none =>
      simp only [tryConvert, findVendor, hsource, htarget, bind, Except.bind] at h
      cases h
    | some w =>
      cases hpair : r.conversion? v.dialect w.dialect with
      | none =>
        simp only [tryConvert, findVendor, hsource, htarget, findConversion, hpair, bind,
          Except.bind] at h
        cases h
      | some complexity => exact ⟨v, w, complexity, hsource, htarget, hpair⟩

theorem mapError_eq_ok_iff {ε ε' α : Type} {f : ε → ε'} {x : Except ε α} {a : α} :
    x.mapError f = .ok a ↔ x = .ok a := by
  cases x <;> constructor <;> intro h <;> cases h <;> rfl

/-- **What a conversion needs**: two vendors that are supported, and groups that pass the check. -/
theorem convert_eq_ok_iff {strict : Bool} {text : String} {c : Conversion} :
    r.convert strict source target text = .ok c
      ↔ ∃ v w complexity, r.Supports source target v w complexity
        ∧ (v.dialect.read text).checkGroups strict = .ok () ∧ c = converted v w complexity text := by
  rw [convert, mapError_eq_ok_iff]
  constructor
  · intro h
    obtain ⟨v, w, complexity, hsupports⟩ := exists_supports_of_tryConvert h
    refine ⟨v, w, complexity, hsupports, ?_⟩
    rw [tryConvert_of_supports hsupports] at h
    cases hcheck : (v.dialect.read text).checkGroups strict with
    | error e => rw [hcheck] at h; cases h
    | ok _ => rw [hcheck] at h; cases h; exact ⟨rfl, rfl⟩
  · rintro ⟨v, w, complexity, hsupports, hcheck, rfl⟩
    rw [tryConvert_of_supports hsupports, hcheck]
    rfl

end FirewallConfig.Registry
