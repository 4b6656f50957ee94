import FirewallConfig.Keyed

/-!
# Proofs/Keyed — entries that are changed in their place, and repetitions taken out

What every entry has is kept by changing one of them (`forall_mem_amendFirst`).  Of the entries that
are put in under a key, the last one is found (`find?_foldl_putBy`), and they may be put together
before they are put in (`foldl_putBy_foldl_putBy`).  Their keys stand in the order in which they come
first (`foldl_putKey_eq_eraseDups`); where repetitions are taken out, the first entry of each key
stays.
-/

namespace FirewallConfig

theorem forall_mem_none {α : Type} {P : α → Prop} : ∀ a ∈ (none : Option α), P a :=
  fun _ h => absurd h (Option.not_mem_none _)

theorem forall_mem_some {α : Type} {P : α → Prop} {a : α} (h : P a) : ∀ b ∈ some a, P b :=
  fun _ hb => Option.some.inj hb ▸ h

/-- What every entry has is kept by one more that has it. -/
theorem forall_mem_concat {α : Type} {P : α → Prop} {as : List α} (h : ∀ a ∈ as, P a) {b : α}
    (hb : P b) : ∀ a ∈ as ++ [b], P a :=
  List.forall_mem_append.2 ⟨h, List.forall_mem_singleton.2 hb⟩

/-- What every entry has is kept where one more may follow, if that has it. -/
theorem forall_mem_append_toList {α : Type} {P : α → Prop} {as : List α} (h : ∀ a ∈ as, P a)
    {b : Option α} (hb : ∀ a ∈ b, P a) : ∀ a ∈ as ++ b.toList, P a :=
  List.forall_mem_append.2 ⟨h, fun a ha => hb a (Option.mem_toList.1 ha)⟩

/-- **What every entry has is kept by changing one of them**, if the fresh one has it too. -/
theorem forall_mem_amendFirst {α : Type} {P : α → Prop} {p : α → Bool} {fresh : α} {f : α → α}
    (hfresh : P (f fresh)) (hf : ∀ a, P a → P (f a)) {as : List α} (h : ∀ a ∈ as, P a) :
    ∀ a ∈ amendFirst p fresh f as, P a := by
  induction as with
  | nil => exact List.forall_mem_singleton.2 hfresh
  | cons a as ih =>
    obtain ⟨ha, has⟩ := List.forall_mem_cons.1 h
    rw [amendFirst]
    split
    · exact List.forall_mem_cons.2 ⟨hf a ha, has⟩
    · exact List.forall_mem_cons.2 ⟨ha, ih has⟩

/-! ## Entries of a key -/

section Key

variable {α β : Type} [BEq β] [LawfulBEq β] (key : α → β) (b : α)

/-- The list with an entry in the place of the first one of its key, or at the end. -/
def putBy (as : List α) : List α := amendFirst (fun a => key a == key b) b (fun _ => b) as

/-- **An entry that is put in is found under its key**, and the others as before. -/
theorem find?_putBy (k : β) (as : List α) :
    (putBy key b as).find? (fun a => key a == k)
      = if key b == k then some b else as.find? fun a => key a == k := by
  induction as with
  | nil =>
    rw [putBy, amendFirst, List.find?_cons]
    split <;> simp_all
  | cons a as ih =>
    rw [putBy, amendFirst]
    split
    · next ha =>
      rw [List.find?_cons, List.find?_cons, beq_iff_eq.1 ha]
      split <;> simp_all
    · next ha =>
      rw [List.find?_cons, List.find?_cons, ← putBy, ih]
      cases hb : key b == k with
      | true =>
        have hak : (key a == k) = false :=
          Bool.eq_false_iff.2 fun h => ha (beq_iff_eq.1 hb ▸ h)
        rw [hak]
      | false => split <;> simp_all

/-- The keys with one at their end, unless it is there already. -/
def putKey (k : β) (ks : List β) : List β := if k ∈ ks then ks else ks ++ [k]

theorem mem_putKey_iff {k k' : β} {ks : List β} : k ∈ putKey k' ks ↔ k = k' ∨ k ∈ ks := by
  rw [putKey]
  split
  · next hk => exact ⟨.inr, fun h => h.elim (fun heq => heq ▸ hk) id⟩
  · rw [List.mem_append, List.mem_singleton, or_comm]

/-- **Keys that differ go on to differ.** -/
theorem nodup_putKey (k : β) {ks : List β} (h : ks.Nodup) : (putKey k ks).Nodup := by
  rw [putKey]
  split
  · exact h
  · next hmem =>
    refine List.nodup_append.2 ⟨h, List.pairwise_singleton _ _, fun a ha b hb heq => hmem ?_⟩
    rwa [← List.mem_singleton.1 hb, ← heq]

/-- **Changing an entry by something that keeps its key** keeps all of them, or adds the key of a
new entry. -/
theorem map_amendFirst (fresh : α) {f : α → α}
    (hf : ∀ a, key a = key fresh → key (f a) = key fresh) (as : List α) :
    (amendFirst (fun a => key a == key fresh) fresh f as).map key
      = putKey (key fresh) (as.map key) := by
  induction as with
  | nil => exact congrArg (fun k => [k]) (hf fresh rfl)
  | cons a as ih =>
    by_cases ha : key a = key fresh
    · simp [amendFirst, putKey, ha, hf]
    · rw [amendFirst, if_neg (by simpa using ha), List.map_cons, List.map_cons, ih, putKey, putKey]
      by_cases hmem : key fresh ∈ as.map key
      · rw [if_pos hmem, if_pos (List.mem_cons_of_mem _ hmem)]
      · rw [if_neg hmem, if_neg (List.not_mem_cons_of_ne_of_not_mem (Ne.symm ha) hmem)]
        rfl

/-- The key of an entry that is put in is put in. -/
theorem map_putBy (as : List α) : (putBy key b as).map key = putKey (key b) (as.map key) :=
  map_amendFirst key b (fun _ _ => rfl) as

/-- The keys of entries that are put in one after the other are put in. -/
theorem map_foldl_putBy (bs as : List α) :
    (bs.foldl (fun as b => putBy key b as) as).map key
      = (bs.map key).foldl (fun ks k => putKey k ks) (as.map key) := by
  induction bs generalizing as with
  | nil => rfl
  | cons b bs ih => rw [List.foldl_cons, List.map_cons, List.foldl_cons, ih, map_putBy]

/-- **Keys that are put in one after the other** are those keys without repetitions. -/
theorem foldl_putKey_eq_eraseDups (ks : List β) :
    ks.foldl (fun ks k => putKey k ks) [] = ks.eraseDups := by
  have hput (k : β) (before : List β) :
      putKey k before.eraseDups = (before ++ [k]).eraseDups := by
    rw [putKey, List.eraseDups_append]
    by_cases hk : k ∈ before <;> simp [List.removeAll, List.eraseDups_cons, hk]
  have hfold : ∀ before : List β,
      ks.foldl (fun ks k => putKey k ks) before.eraseDups = (before ++ ks).eraseDups := by
    induction ks with
    | nil =>
      intro before
      rw [List.append_nil]
      rfl
    | cons k ks ih =>
      intro before
      rw [List.foldl_cons, hput, ih, List.append_assoc, List.singleton_append]
  exact hfold []

theorem nodup_eraseDups (ks : List β) : ks.eraseDups.Nodup := by
  rw [← foldl_putKey_eq_eraseDups]
  exact List.foldlRecOn ks _ List.nodup_nil fun _ hks k _ => nodup_putKey k hks

theorem nodup_map_putBy {as : List α} (h : (as.map key).Nodup) :
    ((putBy key b as).map key).Nodup := by
  rw [map_putBy]
  exact nodup_putKey _ h

/-- Entries that are put in one after the other keep all keys different. -/
theorem nodup_map_foldl_putBy (bs : List α) {as : List α} (h : (as.map key).Nodup) :
    ((bs.foldl (fun as b => putBy key b as) as).map key).Nodup := by
  induction bs generalizing as with
  | nil => exact h
  | cons b bs ih => exact ih (nodup_map_putBy key b h)

/-- **Under the key of an entry stands what the entry becomes**, if all keys differ and those of
entries that stay are kept. -/
theorem find?_filterMap_of_nodup {f : α → Option α} (hf : ∀ a b, f a = some b → key b = key a)
    {as : List α} (h : (as.map key).Nodup) {a : α} (ha : a ∈ as) :
    (as.filterMap f).find? (fun x => key x == key a) = f a := by
  induction as with
  | nil => cases ha
  | cons x as ih =>
    obtain ⟨hx, has⟩ := List.nodup_cons.1 h
    rw [List.filterMap_cons]
    rcases List.mem_cons.1 ha with rfl | ha
    · cases hfa : f a with
      | some b => exact List.find?_cons_of_pos (beq_iff_eq.2 (hf a b hfa))
      | none =>
        refine List.find?_eq_none.2 fun b hb heq => hx ?_
        obtain ⟨y, hy, hfy⟩ := List.mem_filterMap.1 hb
        exact List.mem_map.2 ⟨y, hy, (hf y b hfy).symm.trans (beq_iff_eq.1 heq)⟩
    · have hxa : key x ≠ key a := fun heq => hx (heq ▸ List.mem_map_of_mem ha)
      cases hfx : f x with
      | none => exact ih has ha
      | some b =>
        have hba : ¬ (key b == key a) = true := by rw [hf x b hfx, beq_iff_eq]; exact hxa
        dsimp only
        rw [List.find?_cons_of_neg (by exact hba)]
        exact ih has ha

/-- Of entries with different keys, the one of a key is found. -/
theorem find?_eq_some_of_nodup {as : List α} (h : (as.map key).Nodup) {a : α} (ha : a ∈ as) :
    as.find? (fun x => key x == key a) = some a := by
  have hfind := find?_filterMap_of_nodup key (f := some) (fun _ _ heq => by cases heq; rfl) h ha
  rwa [List.filterMap_some] at hfind

/-- Under the key of an entry stands what the entry becomes, if that has its key. -/
theorem find?_map_of_nodup {f : α → α} (hf : ∀ a, key (f a) = key a) {as : List α}
    (h : (as.map key).Nodup) {a : α} (ha : a ∈ as) :
    (as.map f).find? (fun x => key x == key a) = some (f a) := by
  rw [← List.filterMap_eq_map]
  exact find?_filterMap_of_nodup key (fun a _ heq => Option.some.inj heq ▸ hf a) h ha

/-- Among entries with names of their own, one is alone under its name. -/
theorem filter_eq_singleton_of_nodup {as : List α} (h : (as.map key).Nodup) {a : α} (ha : a ∈ as) :
    as.filter (fun x => key x == key a) = [a] := by
  obtain ⟨before, after, rfl⟩ := List.append_of_mem ha
  rw [List.map_append, List.map_cons, List.nodup_append, List.nodup_cons] at h
  obtain ⟨-, ⟨hafter, -⟩, hbefore⟩ := h
  have hout {xs : List α} (hxs : key a ∉ xs.map key) :
      xs.filter (fun x => key x == key a) = [] :=
    List.filter_eq_nil_iff.2 fun x hx heq => hxs (List.mem_map.2 ⟨x, hx, beq_iff_eq.1 heq⟩)
  rw [List.filter_append, List.filter_cons_of_pos (by exact beq_self_eq_true _), hout hafter,
    hout fun hmem => hbefore _ hmem _ List.mem_cons_self rfl, List.nil_append]

/-- **Entries whose keys all differ are put in one behind the other.** -/
theorem foldl_putBy_of_nodup {bs as : List α} (h : ((as ++ bs).map key).Nodup) :
    bs.foldl (fun as b => putBy key b as) as = as ++ bs := by
  induction bs generalizing as with
  | nil => exact (List.append_nil as).symm
  | cons b bs ih =>
    have hfresh : as.any (fun a => key a == key b) = false := by
      rw [List.map_append, List.map_cons, List.nodup_append] at h
      rw [List.any_eq_false]
      intro a ha heq
      exact h.2.2 (key a) (List.mem_map_of_mem ha) (key b) List.mem_cons_self (beq_iff_eq.1 heq)
    have hput : putBy key b as = as ++ [b] := amendFirst_of_not_any hfresh b fun _ => b
    rw [List.foldl_cons, hput, ih (by rwa [List.append_assoc, List.singleton_append]),
      List.append_assoc, List.singleton_append]

/-- **Of several entries that are put in under a key, the last one is found.** -/
theorem find?_foldl_putBy (k : β) (bs as : List α) :
    (bs.foldl (fun as b => putBy key b as) as).find? (fun a => key a == k)
      = (bs.reverse.find? fun a => key a == k).or (as.find? fun a => key a == k) := by
  induction bs generalizing as with
  | nil => rfl
  | cons b bs ih =>
    rw [List.foldl_cons, ih, find?_putBy, List.reverse_cons, List.find?_append]
    cases bs.reverse.find? fun a => key a == k with
    | some a => rfl
    | none =>
      rw [List.find?_singleton]
      split <;> rfl

/-- A key that is put in stays, and so do those that were there. -/
theorem mem_map_putBy_of_mem {k : β} {as : List α} (h : k = key b ∨ k ∈ as.map key) :
    k ∈ (putBy key b as).map key := by
  rw [map_putBy]
  exact mem_putKey_iff.2 h

theorem mem_map_foldl_putBy_of_mem {k : β} (bs : List α) {as : List α} (h : k ∈ as.map key) :
    k ∈ (bs.foldl (fun as b => putBy key b as) as).map key := by
  induction bs generalizing as with
  | nil => exact h
  | cons b bs ih => exact ih (mem_map_putBy_of_mem key b (.inr h))

/-- Of two entries of one key that are put in, the second one stays. -/
theorem putBy_putBy_of_eq {a : α} (h : key a = key b) (as : List α) :
    putBy key b (putBy key a as) = putBy key b as := by
  induction as with
  | nil => simp [putBy, amendFirst, h]
  | cons x as ih =>
    by_cases hx : key x = key b
    · simp [putBy, amendFirst, h, hx]
    · have ih : amendFirst _ b _ (amendFirst _ a _ as) = amendFirst _ b _ as := ih
      rw [putBy, putBy, putBy, amendFirst, if_neg (by simpa [h] using hx), amendFirst,
        if_neg (by simpa using hx), amendFirst, if_neg (by simpa using hx), ih]

/-- An entry whose key is there does not move, and so it may be put in after one of another key. -/
theorem putBy_comm {a : α} (hne : key a ≠ key b) {as : List α} (hb : key b ∈ as.map key) :
    putBy key b (putBy key a as) = putBy key a (putBy key b as) := by
  induction as with
  | nil => cases hb
  | cons x as ih =>
    by_cases hxb : key x = key b
    · have hxa : ¬ key x = key a := fun h => hne (h.symm.trans hxb)
      have hba : ¬ key b = key a := Ne.symm hne
      simp [putBy, amendFirst, hxb, hba]
    · have hb : key b ∈ as.map key := (List.mem_cons.1 hb).resolve_left (Ne.symm hxb)
      by_cases hxa : key x = key a
      · simp [putBy, amendFirst, hxa, hne]
      · have ih := ih hb
        simp only [putBy] at ih
        simp [putBy, amendFirst, hxa, hxb, ih]

/-- …also after several. -/
theorem putBy_foldl_putBy {as : List α} (hb : key b ∈ as.map key) {cs : List α}
    (hcs : key b ∉ cs.map key) :
    putBy key b (cs.foldl (fun as c => putBy key c as) as)
      = cs.foldl (fun as c => putBy key c as) (putBy key b as) := by
  induction cs generalizing as with
  | nil => rfl
  | cons c cs ih =>
    rw [List.map_cons, List.mem_cons, not_or] at hcs
    rw [List.foldl_cons, List.foldl_cons, ← putBy_comm key b (Ne.symm hcs.1) hb,
      ih (mem_map_putBy_of_mem key c (.inr hb)) hcs.2]

/-- To put in a list in which an entry was put is to put in the list, and then the entry. -/
theorem foldl_putBy_putBy {cs : List α} (hcs : (cs.map key).Nodup) (as : List α) :
    (putBy key b cs).foldl (fun as c => putBy key c as) as
      = putBy key b (cs.foldl (fun as c => putBy key c as) as) := by
  induction cs generalizing as with
  | nil => rfl
  | cons c cs ih =>
    obtain ⟨hc, hcs⟩ := List.nodup_cons.1 hcs
    rw [putBy, amendFirst]
    split
    · next hcb =>
      have hcb : key c = key b := beq_iff_eq.1 hcb
      rw [List.foldl_cons, List.foldl_cons,
        putBy_foldl_putBy key b (mem_map_putBy_of_mem key c (.inl hcb.symm)) (hcb ▸ hc),
        putBy_putBy_of_eq key b hcb]
    · exact ih hcs (putBy key c as)

/-- **To put in what was put together is to put in its parts**, one after the other. -/
theorem foldl_putBy_foldl_putBy (bs as : List α) :
    (bs.foldl (fun as b => putBy key b as) []).foldl (fun as b => putBy key b as) as
      = bs.foldl (fun as b => putBy key b as) as := by
  have hfold (cs : List α) (hcs : (cs.map key).Nodup) :
      (bs.foldl (fun as b => putBy key b as) cs).foldl (fun as b => putBy key b as) as
        = bs.foldl (fun as b => putBy key b as) (cs.foldl (fun as b => putBy key b as) as) := by
    induction bs generalizing cs with
    | nil => rfl
    | cons b bs ih =>
      rw [List.foldl_cons, ih (putBy key b cs) (nodup_map_putBy key b hcs),
        foldl_putBy_putBy key b hcs, List.foldl_cons]
  exact hfold [] List.nodup_nil

end Key

/-! ## Repetitions taken out -/

/-- What is left when repetitions are taken out was there before. -/
theorem mem_of_mem_eraseDupsBy {α : Type} {r : α → α → Bool} {a : α} {as : List α}
    (h : a ∈ as.eraseDupsBy r) : a ∈ as := by
  match as with
  | [] => exact h
  | b :: bs =>
    rw [List.eraseDupsBy_cons] at h
    rcases List.mem_cons.1 h with rfl | h
    · exact List.mem_cons_self
    · exact List.mem_cons_of_mem _ (List.mem_filter.1 (mem_of_mem_eraseDupsBy h)).1
termination_by as.length
decreasing_by exact Nat.lt_succ_of_le (List.length_filter_le _ bs)

/-- **Entries that repeat each other just if they are made of the same** are left just if what they
are made of is. -/
theorem eraseDupsBy_map {α β : Type} [BEq α] {f : α → β} {r : β → β → Bool} {as : List α}
    (h : ∀ a ∈ as, ∀ b ∈ as, r (f a) (f b) = (a == b)) :
    (as.map f).eraseDupsBy r = as.eraseDups.map f := by
  match as with
  | [] => rfl
  | a :: as =>
    have hfilter : (as.map f).filter (fun b => r b (f a) = false)
        = (as.filter fun b => !b == a).map f := by
      rw [List.filter_map]
      refine congrArg (List.map f) (List.filter_congr fun b hb => ?_)
      rw [Function.comp_apply, h b (List.mem_cons_of_mem _ hb) a List.mem_cons_self]
      cases b == a <;> rfl
    have hrest : ∀ b ∈ as.filter fun b => !b == a, ∀ b' ∈ as.filter fun b => !b == a,
        r (f b) (f b') = (b == b') := fun b hb b' hb' =>
      h b (List.mem_cons_of_mem _ (List.mem_filter.1 hb).1) b'
        (List.mem_cons_of_mem _ (List.mem_filter.1 hb').1)
    rw [List.map_cons, List.eraseDupsBy_cons, hfilter, eraseDupsBy_map hrest, List.eraseDups_cons,
      List.map_cons]
termination_by as.length
decreasing_by exact Nat.lt_succ_of_le (List.length_filter_le _ as)

/-- What is left out does not count where it is not looked for. -/
theorem find?_filter_of_imp {α : Type} {p q : α → Bool} (h : ∀ a, q a = true → p a = true)
    (as : List α) : (as.filter p).find? q = as.find? q := by
  induction as with
  | nil => rfl
  | cons a as ih =>
    rw [List.filter_cons]
    split
    · rw [List.find?_cons, List.find?_cons, ih]
    · next hp =>
      have hq : q a = false := Bool.eq_false_iff.2 fun hq => hp (h a hq)
      rw [List.find?_cons, hq, ih]

/-- **One entry of each key is left**, the first one. -/
theorem filter_eraseDupsBy {α : Type} {β : Type} [BEq β] [LawfulBEq β] (key : α → β) (b : β)
    (as : List α) :
    (as.eraseDupsBy fun x y => key x == key y).filter (fun a => key a == b)
      = (as.find? fun a => key a == b).toList := by
  match as with
  | [] => rfl
  | a :: as =>
    rw [List.eraseDupsBy_cons, List.filter_cons, filter_eraseDupsBy key b, List.find?_cons]
    cases hab : key a == b with
    | true =>
      have hnone : (as.filter fun x => (key x == key a) = false).find? (fun x => key x == b)
          = none := by
        refine List.find?_eq_none.2 fun x hx hxb => ?_
        have hxa := (List.mem_filter.1 hx).2
        rw [decide_eq_true_eq, beq_eq_false_iff_ne] at hxa
        exact hxa ((beq_iff_eq.1 hxb).trans (beq_iff_eq.1 hab).symm)
      rw [hnone]
      rfl
    | false =>
      rw [find?_filter_of_imp fun x hx => ?_]
      · rfl
      · rw [decide_eq_true_eq, beq_iff_eq.1 hx, beq_eq_false_iff_ne]
        exact fun h => absurd h.symm (beq_eq_false_iff_ne.1 hab)
termination_by as.length
decreasing_by exact Nat.lt_succ_of_le (List.length_filter_le _ as)

end FirewallConfig
