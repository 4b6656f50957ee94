import FirewallConfig.Proofs.Text.Cut
import FirewallConfig.Proofs.Xml.Entity

/-!
# Proofs/Xml/InTurn — reading the entities one after the other

The entities of a text may be read in one pass, or one entity after the other over the whole text.
Both give the same text (`unescapeInTurn_eq`) as long as the ampersand is read last: what an entity
stands for is in no entity behind its ampersand, so it completes none that was not there before
(`prefix_of_prefix_replace`).
-/

namespace FirewallConfig

namespace Chars

/-- The text with `q` where `p` stood, from the left and without overlap. -/
def replace (p q cs : List Char) : List Char := q.intercalate (piecesAt p cs)

section Replace

variable {p : List Char} (hp : p ≠ []) (q : List Char)
include hp

theorem piecesAt_ne_nil (cs : List Char) : piecesAt p cs ≠ [] := by
  rw [piecesAt, dif_neg hp]
  split <;> exact List.cons_ne_nil _ _

theorem replace_nil : replace p q [] = [] := by
  obtain ⟨c, p, rfl⟩ := List.exists_cons_of_ne_nil hp
  rw [replace, piecesAt, dif_neg hp]
  rfl

/-- A piece in front is replaced. -/
theorem replace_append (cs : List Char) : replace p q (p ++ cs) = q ++ replace p q cs := by
  rw [replace, piecesAt, dif_neg hp]
  split
  · next h => rw [cutAt_append] at h; cases h
  · next a b h =>
    rw [cutAt_append] at h
    cases h
    rw [List.intercalate_cons_of_ne_nil (piecesAt_ne_nil hp cs), List.nil_append, replace]

/-- A character in front that begins no piece stays where it is. -/
theorem replace_cons {c : Char} {cs : List Char} (h : ¬ p <+: c :: cs) :
    replace p q (c :: cs) = c :: replace p q cs := by
  have hnone : withoutPrefix p (c :: cs) = none :=
    withoutPrefix_eq_none_of_ne fun rest heq => h ⟨rest, heq.symm⟩
  have hcut : cutAt p (c :: cs) = (cutAt p cs).map fun ab => (c :: ab.1, ab.2) := by
    rw [cutAt, hnone]
  rw [replace, replace, piecesAt, piecesAt, dif_neg hp, dif_neg hp]
  split
  · next hc =>
    rw [hcut, Option.map_eq_none_iff] at hc
    split
    · rw [List.intercalate_singleton, List.intercalate_singleton]
    · next h => rw [hc] at h; cases h
  · next a b hab =>
    rw [hcut] at hab
    obtain ⟨⟨a', b'⟩, hcs, heq⟩ := Option.map_eq_some_iff.1 hab
    cases heq
    split
    · next h => rw [hcs] at h; cases h
    · next h =>
      rw [hcs] at h
      cases h
      rw [List.intercalate_cons_of_ne_nil (piecesAt_ne_nil hp b'),
        List.intercalate_cons_of_ne_nil (piecesAt_ne_nil hp b')]
      rfl

/-- **What is put in completes nothing**: a beginning without it was there before. -/
theorem prefix_of_prefix_replace {d : Char} {w cs : List Char} (hd : d ∉ w)
    (h : w <+: replace p [d] cs) : w <+: cs := by
  induction w generalizing cs with
  | nil => exact List.nil_prefix
  | cons x w ih =>
    by_cases hpiece : p <+: cs
    · obtain ⟨rest, rfl⟩ := hpiece
      rw [replace_append hp, List.singleton_append, List.cons_prefix_cons] at h
      exact absurd (h.1 ▸ List.mem_cons_self) hd
    · cases cs with
      | nil => rwa [replace_nil hp] at h
      | cons c cs =>
        rw [replace_cons hp _ hpiece, List.cons_prefix_cons] at h
        exact List.cons_prefix_cons.2 ⟨h.1, ih (fun hw => hd (List.mem_cons_of_mem _ hw)) h.2⟩

end Replace

/-! ## Entities one after the other -/

/-- The text with the first part of each pair replaced by the second one, pair after pair. -/
def replaceInTurn (es : List (List Char × Char)) (cs : List Char) : List Char :=
  es.foldl (fun cs e => replace e.1 [e.2] cs) cs

/-- A character in front that begins none of the pieces stays where it is, if what the pieces are
replaced by completes none. -/
theorem replaceInTurn_cons {es : List (List Char × Char)} (hes : ∀ e ∈ es, e.1 ≠ [])
    (hapart : ∀ e ∈ es, ∀ f ∈ es, e.2 ∉ f.1.tail) {c : Char} {cs : List Char}
    (h : ∀ e ∈ es, ¬ e.1 <+: c :: cs) :
    replaceInTurn es (c :: cs) = c :: replaceInTurn es cs := by
  induction es generalizing cs with
  | nil => rfl
  | cons e es ih =>
    have hrest : ∀ f ∈ es, ¬ f.1 <+: c :: replace e.1 [e.2] cs := by
      intro f hf hbegins
      obtain ⟨x, w, hw⟩ := List.exists_cons_of_ne_nil (hes f (List.mem_cons_of_mem _ hf))
      have hd : e.2 ∉ w := by
        have := hapart e List.mem_cons_self f (List.mem_cons_of_mem _ hf)
        rwa [hw] at this
      rw [hw, List.cons_prefix_cons] at hbegins
      refine h f (List.mem_cons_of_mem _ hf) ?_
      rw [hw, List.cons_prefix_cons]
      exact ⟨hbegins.1, prefix_of_prefix_replace (hes e List.mem_cons_self) hd hbegins.2⟩
    have hfirst := replace_cons (hes e List.mem_cons_self) [e.2] (h e List.mem_cons_self)
    rw [replaceInTurn, List.foldl_cons, hfirst]
    exact ih (fun f hf => hes f (List.mem_cons_of_mem _ hf))
      (fun f hf g hg => hapart f (List.mem_cons_of_mem _ hf) g (List.mem_cons_of_mem _ hg)) hrest

end Chars

namespace Text

/-- The text with `q` where `p` stood, from the left and without overlap. -/
def replace (p q s : String) : String := q.intercalate (piecesAt p s)

theorem toList_replace (p q s : String) :
    (replace p q s).toList = Chars.replace p.toList q.toList s.toList := by
  rw [replace, String.toList_intercalate, piecesAt, List.map_map, Chars.replace]
  simp [Function.comp_def]

end Text

namespace Xml

/-- The entities with what they stand for, the ampersand last. -/
def entities : List (List Char × Char) :=
  [(['&', 'l', 't', ';'], '<'), (['&', 'g', 't', ';'], '>'), (['&', 'q', 'u', 'o', 't', ';'], '"'),
    (['&', 'a', 'p', 'o', 's', ';'], '\''), (['&', 'a', 'm', 'p', ';'], '&')]

/-- Reads the entities of a text one after the other, the ampersand last. -/
def unescapeInTurn (s : String) : String :=
  let s := Text.replace "&lt;" "<" s
  let s := Text.replace "&gt;" ">" s
  let s := Text.replace "&quot;" "\"" s
  let s := Text.replace "&apos;" "'" s
  Text.replace "&amp;" "&" s

theorem toList_unescapeInTurn (s : String) :
    (unescapeInTurn s).toList = Chars.replaceInTurn entities s.toList := by
  simp only [unescapeInTurn, Text.toList_replace]
  rfl

/-- An entity in front is read, and what it stands for is not read again. -/
theorem replaceInTurn_append {e : List Char × Char} (he : e ∈ entities) (cs : List Char) :
    Chars.replaceInTurn entities (e.1 ++ cs) = e.2 :: Chars.replaceInTurn entities cs := by
  have hread {p : List Char} (hp : p ≠ []) (q : List Char) {cs rest : List Char}
      (h : Chars.withoutPrefix p cs = some rest) :
      Chars.replace p q cs = q ++ Chars.replace p q rest := by
    rw [Chars.withoutPrefix_eq_some_iff.1 h, Chars.replace_append hp]
  simp only [entities, List.mem_cons, List.not_mem_nil, or_false] at he
  rcases he with rfl | rfl | rfl | rfl | rfl <;>
    simp [Chars.replaceInTurn, entities, Chars.replace_cons, hread, Chars.withoutPrefix]

/-- **Reading the entities in turn is reading them in one pass.** -/
theorem replaceInTurn_entities (cs : List Char) :
    Chars.replaceInTurn entities cs = unescapeChars cs := by
  have hpieces : ∀ e ∈ entities, e.1 ≠ [] := by decide
  fun_induction unescapeChars cs with
  | case1 cs ih =>
    exact ih ▸ replaceInTurn_append (e := (['&', 'a', 'm', 'p', ';'], '&')) (by decide) cs
  | case2 cs ih => exact ih ▸ replaceInTurn_append (e := (['&', 'l', 't', ';'], '<')) (by decide) cs
  | case3 cs ih => exact ih ▸ replaceInTurn_append (e := (['&', 'g', 't', ';'], '>')) (by decide) cs
  | case4 cs ih =>
    exact ih ▸ replaceInTurn_append (e := (['&', 'a', 'p', 'o', 's', ';'], '\'')) (by decide) cs
  | case5 cs ih =>
    exact ih ▸ replaceInTurn_append (e := (['&', 'q', 'u', 'o', 't', ';'], '"')) (by decide) cs
  | case6 c cs hamp hlt hgt hapos hquot ih =>
    have hnone : ∀ e ∈ entities, ¬ e.1 <+: c :: cs := by
      rintro e he ⟨rest, heq⟩
      simp only [entities, List.mem_cons, List.not_mem_nil, or_false] at he
      rcases he with rfl | rfl | rfl | rfl | rfl <;>
        obtain ⟨hc, hcs⟩ := List.cons.inj heq
      · exact hlt rest hc.symm hcs.symm
      · exact hgt rest hc.symm hcs.symm
      · exact hquot rest hc.symm hcs.symm
      · exact hapos rest hc.symm hcs.symm
      · exact hamp rest hc.symm hcs.symm
    rw [Chars.replaceInTurn_cons hpieces (by decide) hnone, ih]
  | case7 => simp [Chars.replaceInTurn, entities, Chars.replace_nil]

/-- Reading the entities of a text in turn is reading them in one pass. -/
theorem unescapeInTurn_eq (s : String) : unescapeInTurn s = unescape s := by
  apply String.toList_inj.1
  rw [toList_unescapeInTurn, replaceInTurn_entities, unescape, String.toList_ofList]

/-- The order counts: with the ampersand first, what it completes is read as an entity again. -/
example : unescapeInTurn "&amp;lt;" = "&lt;"
    ∧ Text.replace "&lt;" "<" (Text.replace "&amp;" "&" "&amp;lt;") = "<" := by decide +kernel

end Xml

end FirewallConfig
