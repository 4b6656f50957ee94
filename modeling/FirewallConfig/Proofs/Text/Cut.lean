import FirewallConfig.Text.Cut

/-!
# Proofs/Text/Cut — where a piece stands in a text

What is put together is taken apart again, and a piece is not found where its first character is
not: so a text can be searched from one such character to the next.
-/

namespace FirewallConfig

namespace Chars

/-! ## Lists of characters -/

/-- The first place of a character divides a text in one way. -/
theorem append_cons_inj {c : Char} {as bs xs ys : List Char} (ha : c ∉ as) (hb : c ∉ bs)
    (h : as ++ c :: xs = bs ++ c :: ys) : as = bs ∧ xs = ys := by
  induction as generalizing bs with
  | nil =>
    cases bs with
    | nil => exact ⟨rfl, (List.cons.inj h).2⟩
    | cons b bs => exact absurd (List.cons.inj h).1 fun hcb => hb (hcb ▸ List.mem_cons_self)
  | cons a as ih =>
    cases bs with
    | nil => exact absurd (List.cons.inj h).1 fun hac => ha (hac ▸ List.mem_cons_self)
    | cons b bs =>
      obtain ⟨hab, h⟩ := List.cons.inj h
      obtain ⟨has, hxs⟩ := ih (fun h => ha (List.mem_cons_of_mem _ h))
        (fun h => hb (List.mem_cons_of_mem _ h)) h
      exact ⟨by rw [hab, has], hxs⟩

/-- Two texts differ if the first of two characters is one of them here and the other one there. -/
theorem append_cons_ne {c d : Char} (hcd : c ≠ d) {as bs : List Char} (ha : d ∉ as) (hb : c ∉ bs)
    (xs ys : List Char) : as ++ c :: xs ≠ bs ++ d :: ys := by
  induction as generalizing bs with
  | nil =>
    cases bs with
    | nil => exact fun h => hcd (List.cons.inj h).1
    | cons b bs => exact fun h => hb ((List.cons.inj h).1 ▸ List.mem_cons_self)
  | cons a as ih =>
    cases bs with
    | nil => exact fun h => ha ((List.cons.inj h).1 ▸ List.mem_cons_self)
    | cons b bs =>
      exact fun h => ih (fun h => ha (List.mem_cons_of_mem _ h))
        (fun h => hb (List.mem_cons_of_mem _ h)) (List.cons.inj h).2

theorem withoutPrefix_eq_none_of_ne {p cs : List Char} (h : ∀ rest, cs ≠ p ++ rest) :
    withoutPrefix p cs = none :=
  Option.eq_none_iff_forall_ne_some.2 fun rest hrest => h rest (withoutPrefix_eq_some_iff.1 hrest)

/-- A piece is not found where its first character is not. -/
theorem occurrences_append_of_not_mem {c : Char} {as : List Char} (ha : c ∉ as)
    (p bs : List Char) : occurrences (c :: p) (as ++ bs) = occurrences (c :: p) bs := by
  induction as with
  | nil => rfl
  | cons a as ih =>
    have hca : ¬ c = a := fun h => ha (h ▸ List.mem_cons_self)
    rw [List.cons_append, occurrences, withoutPrefix, if_neg hca,
      ih fun h => ha (List.mem_cons_of_mem _ h)]
    simp

/-- A piece is found at a place of its first character, or from the next such place on. -/
theorem occurrences_cons_append {c : Char} {as : List Char} (ha : c ∉ as) (p bs : List Char) :
    occurrences (c :: p) (c :: (as ++ bs))
      = (if (withoutPrefix p (as ++ bs)).isSome then 1 else 0) + occurrences (c :: p) bs := by
  rw [occurrences, withoutPrefix, if_pos rfl, occurrences_append_of_not_mem ha]

theorem cutAt_eq_none_of_not_mem {c : Char} {as : List Char} (ha : c ∉ as) (p : List Char) :
    cutAt (c :: p) as = none := by
  induction as with
  | nil => rfl
  | cons a as ih =>
    have hca : ¬ c = a := fun h => ha (h ▸ List.mem_cons_self)
    rw [cutAt, withoutPrefix, if_neg hca, ih fun h => ha (List.mem_cons_of_mem _ h)]
    rfl

/-- A piece that stands nowhere is not found. -/
theorem cutAt_eq_none_of_occurrences {c : Char} {p cs : List Char}
    (h : occurrences (c :: p) cs = 0) : cutAt (c :: p) cs = none := by
  induction cs with
  | nil => rfl
  | cons d ds ih =>
    rw [occurrences, Nat.add_eq_zero_iff] at h
    cases hd : withoutPrefix (c :: p) (d :: ds) with
    | none => rw [cutAt, hd, ih h.2, Option.map_none]
    | some rest =>
      rw [hd] at h
      exact absurd h.1 Nat.one_ne_zero

/-- A piece that a text begins with stands in it. -/
theorem occurrences_ne_zero_of_withoutPrefix {c : Char} {p cs rest : List Char}
    (h : withoutPrefix (c :: p) cs = some rest) : occurrences (c :: p) cs ≠ 0 := by
  cases cs with
  | nil => cases h
  | cons d ds =>
    rw [occurrences, h, Option.isSome_some, if_pos rfl]
    omega

/-- A piece that a text begins with is cut at there. -/
theorem cutAt_append (p cs : List Char) : cutAt p (p ++ cs) = some ([], cs) := by
  cases h : p ++ cs with
  | nil =>
    obtain ⟨rfl, rfl⟩ := List.append_eq_nil_iff.1 h
    rfl
  | cons d ds =>
    have hp : withoutPrefix p (d :: ds) = some cs := by rw [← h, withoutPrefix_append]
    rw [cutAt, hp]

theorem cut_eq_none {c : Char} {as : List Char} (ha : c ∉ as) : cut c as = none := by
  induction as with
  | nil => rfl
  | cons a as ih =>
    have hac : ¬ a = c := fun h => ha (h ▸ List.mem_cons_self)
    rw [cut, if_neg hac, ih fun h => ha (List.mem_cons_of_mem _ h)]
    rfl

theorem cut_append_cons {c : Char} {as : List Char} (ha : c ∉ as) (bs : List Char) :
    cut c (as ++ c :: bs) = some (as, bs) := by
  induction as with
  | nil => simp [cut]
  | cons a as ih =>
    have hac : ¬ a = c := fun h => ha (h ▸ List.mem_cons_self)
    rw [List.cons_append, cut, if_neg hac, ih fun h => ha (List.mem_cons_of_mem _ h)]
    rfl

/-- A character is one that the text is divided at, or it stands in a piece. -/
theorem eq_or_mem_of_mem_splitOn {c d : Char} {cs : List Char} (hd : d ∈ cs) :
    d = c ∨ ∃ p ∈ cs.splitOn c, d ∈ p := by
  induction cs with
  | nil => cases hd
  | cons e cs ih =>
    obtain ⟨q, qs, hq⟩ := List.exists_cons_of_ne_nil (List.splitOn_ne_nil c cs)
    rw [List.splitOn_cons_eq_if_modifyHead, hq]
    rw [hq] at ih
    split
    · next he =>
      rcases List.mem_cons.1 hd with rfl | hd
      · exact .inl (beq_iff_eq.1 he)
      · exact (ih hd).imp_right fun ⟨p, hp, hdp⟩ => ⟨p, List.mem_cons_of_mem _ hp, hdp⟩
    · rcases List.mem_cons.1 hd with rfl | hd
      · exact .inr ⟨d :: q, List.mem_cons_self, List.mem_cons_self⟩
      · refine (ih hd).imp_right fun ⟨p, hp, hdp⟩ => ?_
        rcases List.mem_cons.1 hp with rfl | hp
        · exact ⟨e :: p, List.mem_cons_self, List.mem_cons_of_mem _ hdp⟩
        · exact ⟨p, List.mem_cons_of_mem _ hp, hdp⟩

end Chars

namespace Text

/-! ## Texts -/

theorem beginsWith_iff {p s : String} :
    beginsWith p s = true ↔ ∃ rest, s.toList = p.toList ++ rest := by
  rw [beginsWith, withoutPrefix, Option.isSome_map, Option.isSome_iff_exists]
  exact exists_congr fun rest => Chars.withoutPrefix_eq_some_iff

@[simp] theorem withoutPrefix_append (p s : String) : withoutPrefix p (p ++ s) = some s := by
  rw [withoutPrefix, String.toList_append, Chars.withoutPrefix_append, Option.map_some,
    String.ofList_toList]

@[simp] theorem withoutSuffix_append (p s : String) : withoutSuffix p (s ++ p) = some s := by
  rw [withoutSuffix, String.toList_append, Chars.withoutSuffix_eq_some_iff.2 rfl, Option.map_some,
    String.ofList_toList]

@[simp] theorem cutAt_append (p s : String) : cutAt p (p ++ s) = some ("", s) := by
  rw [cutAt, String.toList_append, Chars.cutAt_append]
  simp only [Option.map_some, String.ofList_nil, String.ofList_toList]

theorem cut_eq_none {c : Char} {s : String} (hs : c ∉ s.toList) : cut c s = none := by
  rw [cut, Chars.cut_eq_none hs, Option.map_none]

theorem cut_append {c : Char} {s : String} (hs : c ∉ s.toList) (t : String) :
    cut c (s ++ String.singleton c ++ t) = some (s, t) := by
  rw [cut, String.toList_append, String.toList_append, String.toList_singleton, List.append_assoc,
    List.singleton_append, Chars.cut_append_cons hs]
  simp only [Option.map_some, String.ofList_toList]

theorem endsIn_iff {p s : String} :
    endsIn p s = true ↔ ∃ rest, s.toList = rest ++ p.toList := by
  rw [endsIn, withoutSuffix, Option.isSome_map, Option.isSome_iff_exists]
  exact exists_congr fun rest => Chars.withoutSuffix_eq_some_iff

end Text

end FirewallConfig
