import FirewallConfig.Keyed

/-!
# Proofs/Checked — taking the parts of a list by their places

A program that names the parts of a list by their places stops where a place is not in the list.
A `Checked` value is what such a program comes to: a value, or the fault that it stopped with.  The
operations here take a part of a list and check the place first; each comes with the lemma that says
when it is there.
-/

namespace FirewallConfig

/-- Why a program stops that takes parts of lists and texts by their places. -/
inductive Fault where
  /-- The place of an entry is behind the end of the list. -/
  | index
  /-- A part reaches over the end, or ends before it begins. -/
  | slice
  /-- A text is cut inside a character. -/
  | boundary
  /-- More is taken off a number than it is. -/
  | subtraction
  /-- A loop goes on for longer than there are lines. -/
  | endless
deriving DecidableEq, Repr

/-- A value, or the fault that its computation stops with. -/
abbrev Checked (α : Type) := Except Fault α

namespace Checked

variable {α β : Type}

@[simp] theorem pure_eq_ok (a : α) : (pure a : Checked α) = .ok a := rfl

@[simp] theorem ok_bind (a : α) (f : α → Checked β) : (.ok a : Checked α) >>= f = f a := rfl

@[simp] theorem map_ok (f : α → β) (a : α) : f <$> (.ok a : Checked α) = .ok (f a) := rfl

/-! ## Places in a list -/

/-- The entry in a place. -/
def get : Nat → List α → Checked α
  | _, [] => .error .index
  | 0, a :: _ => .ok a
  | k + 1, _ :: as => get k as

/-- The list from a place on, which may be its end. -/
def drop : Nat → List α → Checked (List α)
  | 0, as => .ok as
  | _ + 1, [] => .error .slice
  | k + 1, _ :: as => drop k as

/-- The list up to a place. -/
def take : Nat → List α → Checked (List α)
  | 0, _ => .ok []
  | _ + 1, [] => .error .slice
  | k + 1, a :: as => (a :: ·) <$> take k as

/-- The part of a list from one place up to another one. -/
def slice (first last : Nat) (as : List α) : Checked (List α) := take last as >>= drop first

/-- The first number without the second one. -/
def sub (m n : Nat) : Checked Nat := if n ≤ m then .ok (m - n) else .error .subtraction

theorem get_append_cons (as : List α) (a : α) (bs : List α) :
    get as.length (as ++ a :: bs) = .ok a := by
  induction as with
  | nil => rfl
  | cons b as ih => exact ih

theorem drop_append (as bs : List α) : drop as.length (as ++ bs) = .ok bs := by
  induction as with
  | nil => rfl
  | cons a as ih => exact ih

/-- What follows an entry begins one place behind it. -/
theorem drop_append_cons (as : List α) (a : α) (bs : List α) :
    drop (as.length + 1) (as ++ a :: bs) = .ok bs := by
  simpa using drop_append (as ++ [a]) bs

theorem take_append (as bs : List α) : take as.length (as ++ bs) = .ok as := by
  induction as with
  | nil => rfl
  | cons a as ih =>
    rw [List.length_cons, List.cons_append, take, ih]
    rfl

/-- **The rest of a list is there** just from the places up to its end. -/
theorem drop_eq_ok_iff {k : Nat} {as bs : List α} :
    drop k as = .ok bs ↔ k ≤ as.length ∧ as.drop k = bs := by
  induction as generalizing k with
  | nil => cases k <;> simp [drop]
  | cons a as ih => cases k <;> simp [drop, ih]

/-- A part in the middle of a list. -/
theorem slice_append (as bs cs : List α) :
    slice as.length (as.length + bs.length) (as ++ bs ++ cs) = .ok bs := by
  rw [slice, ← List.length_append, take_append]
  exact drop_append as bs

/-- The front of what is left of a list. -/
theorem slice_append_take (as bs : List α) (k : Nat) :
    slice as.length (as.length + min k bs.length) (as ++ bs) = .ok (bs.take k) := by
  rw [← List.length_take]
  simpa using slice_append as (bs.take k) (bs.drop k)

theorem sub_of_le {m n : Nat} (h : n ≤ m) : sub m n = .ok (m - n) := if_pos h

/-! ## The first entry that fits -/

/-- A list has a first entry that fits, or it has none. -/
theorem find_cases (p : α → Bool) (as : List α) :
    (∀ a ∈ as, p a = false) ∨
      ∃ before a behind, as = before ++ a :: behind ∧ (∀ b ∈ before, p b = false) ∧ p a = true := by
  induction as with
  | nil => exact .inl (List.forall_mem_nil _)
  | cons b as ih =>
    cases hb : p b with
    | true => exact .inr ⟨[], b, as, rfl, List.forall_mem_nil _, hb⟩
    | false =>
      rcases ih with h | ⟨before, a, behind, rfl, hbefore, ha⟩
      · exact .inl (List.forall_mem_cons.2 ⟨hb, h⟩)
      · exact .inr ⟨b :: before, a, behind, rfl, List.forall_mem_cons.2 ⟨hb, hbefore⟩, ha⟩

/-- Where no entry fits, all of them are passed. -/
theorem dropWhile_of_forall {p : α → Bool} {as : List α} (h : ∀ a ∈ as, p a = false) :
    as.dropWhile (fun a => !p a) = [] := by
  rw [← List.append_nil as, List.dropWhile_append_of_pos fun a ha => by simp [h a ha]]
  rfl

section Found

variable {p : α → Bool} {before : List α} (hbefore : ∀ b ∈ before, p b = false) {a : α}
  (ha : p a = true) (behind : List α)
include hbefore ha

/-- The place of the first entry that fits. -/
theorem findIdx?_found : (before ++ a :: behind).findIdx? p = some before.length := by
  induction before with
  | nil => simp [List.findIdx?_cons, ha]
  | cons b before ih =>
    obtain ⟨hb, hbefore⟩ := List.forall_mem_cons.1 hbefore
    simp [List.findIdx?_cons, hb, ih hbefore]

theorem dropWhile_found : (before ++ a :: behind).dropWhile (fun b => !p b) = a :: behind := by
  rw [List.dropWhile_append_of_pos fun b hb => by simp [hbefore b hb]]
  exact List.dropWhile_cons_of_neg (by simp [ha])

theorem takeWhile_found : (before ++ a :: behind).takeWhile (fun b => !p b) = before := by
  rw [List.takeWhile_append_of_pos fun b hb => by simp [hbefore b hb],
    List.takeWhile_cons_of_neg (by simp [ha]), List.append_nil]

end Found

/-- Changes the first entry that fits, by its place; where there is none, `fresh` is put at the end
and changed there. -/
def amend (p : α → Bool) (fresh : α) (f : α → Checked α) (as : List α) : Checked (List α) :=
  match as.findIdx? p with
  | some place => do
    let a ← get place as
    return as.set place (← f a)
  | none => do
    let as := as ++ [fresh]
    let place ← sub as.length 1
    let a ← get place as
    return as.set place (← f a)

/-- **The entry that is changed is in its place.** -/
theorem amend_eq (p : α → Bool) (fresh : α) {f : α → α} {g : α → Checked α}
    (hg : ∀ a, g a = .ok (f a)) (as : List α) :
    amend p fresh g as = .ok (amendFirst p fresh f as) := by
  rcases find_cases p as with h | ⟨before, a, behind, rfl, hbefore, ha⟩
  · have hnone : as.findIdx? p = none := List.findIdx?_eq_none_iff.2 h
    have hany : as.any p = false := List.any_eq_false.2 fun a ha => by simp [h a ha]
    rw [amend, hnone, amendFirst_of_not_any hany]
    simp [sub, get_append_cons, hg]
  · have hfirst : amendFirst p fresh f (before ++ a :: behind) = before ++ f a :: behind := by
      induction before with
      | nil => rw [List.nil_append, amendFirst, if_pos ha, List.nil_append]
      | cons b before ih =>
        obtain ⟨hb, hbefore⟩ := List.forall_mem_cons.1 hbefore
        rw [List.cons_append, amendFirst, if_neg (by simp [hb]), ih hbefore, List.cons_append]
    rw [amend, findIdx?_found hbefore ha, hfirst]
    simp [get_append_cons, hg]

/-- Steps that stop with no fault stop with none in a row. -/
theorem foldlM_eq {f : β → α → β} {g : β → α → Checked β} (hg : ∀ b a, g b a = .ok (f b a))
    (b : β) (as : List α) : as.foldlM g b = .ok (as.foldl f b) := by
  obtain rfl : g = fun b a => pure (f b a) := funext fun b => funext fun a => hg b a
  exact List.foldlM_pure

theorem mapM_eq {f : α → β} {g : α → Checked β} (hg : ∀ a, g a = .ok (f a)) (as : List α) :
    as.mapM g = .ok (as.map f) := by
  obtain rfl : g = fun a => pure (f a) := funext hg
  exact List.mapM_pure

end Checked

end FirewallConfig
