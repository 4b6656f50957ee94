/-!
# Keyed — lists whose entries are looked up and grown at the end

`amendFirst` is how an entry of a name is changed: the first one that fits is changed in its place,
and where none fits, a fresh one is put at the end.
-/

namespace FirewallConfig

/-- Changes the first entry that `p` holds of; where there is none, `fresh` is changed and put at
the end. -/
def amendFirst {α : Type} (p : α → Bool) (fresh : α) (f : α → α) : List α → List α
  | [] => [f fresh]
  | a :: as => if p a then f a :: as else a :: amendFirst p fresh f as

/-- Where no entry fits, one is put at the end. -/
theorem amendFirst_of_not_any {α : Type} {p : α → Bool} {as : List α} (h : as.any p = false)
    (fresh : α) (f : α → α) : amendFirst p fresh f as = as ++ [f fresh] := by
  induction as with
  | nil => rfl
  | cons a as ih =>
    simp only [List.any_cons, Bool.or_eq_false_iff] at h
    simp [amendFirst, h.1, ih h.2]

end FirewallConfig
