import FirewallConfig.Text.Case
import FirewallConfig.Text.Cut
import FirewallConfig.Text.Lines
import FirewallConfig.Text.Numeral
import FirewallConfig.Text.Words

/-!
# Proofs/Text/OneLine — texts without a line feed

A text that is written into a line must not end it.  `OneLine` says so, and the lemmas below follow
it through the operations on texts: what an operation returns is drawn from what it was given
(`⊆` on characters), and so it holds no line feed either.  `lines_unlines_map` is what this is for:
lines that hold no line feed are read back as they were written, a carriage return at their end
apart, and `trim` does not see that one.
-/

namespace FirewallConfig

/-! ## Characters that a part is made of -/

namespace Chars

theorem trimStart_subset (cs : List Char) : trimStart cs ⊆ cs :=
  (List.dropWhile_sublist _).subset

theorem trimEnd_subset (cs : List Char) : trimEnd cs ⊆ cs := by
  induction cs with
  | nil => simp
  | cons c cs ih =>
    rw [trimEnd_cons]
    split
    · exact List.nil_subset _
    · exact List.cons_subset_cons c ih

theorem trim_subset (cs : List Char) : trim cs ⊆ cs :=
  List.Subset.trans (trimEnd_subset _) (trimStart_subset cs)

/-- A cut loses nothing but the character it is made at. -/
theorem eq_append_of_cut {c : Char} {cs a b : List Char} (h : cut c cs = some (a, b)) :
    cs = a ++ c :: b := by
  induction cs generalizing a with
  | nil => simp [cut] at h
  | cons d ds ih =>
    rw [cut] at h
    split at h
    · next hd =>
      cases h
      rw [hd, List.nil_append]
    · obtain ⟨⟨a', b'⟩, hab, heq⟩ := Option.map_eq_some_iff.1 h
      cases heq
      rw [ih hab, List.cons_append]

/-- A word that is read holds characters of the text, or of what was read of it before. -/
theorem subset_of_mem_wordsFrom {w opened cs : List Char} (hw : w ∈ wordsFrom opened cs) :
    w ⊆ opened ++ cs := by
  induction cs generalizing opened with
  | nil =>
    rw [wordsFrom] at hw
    split at hw
    · simp at hw
    · rw [List.mem_singleton.1 hw, List.append_nil]
      exact fun c hc => List.mem_reverse.1 hc
  | cons c cs ih =>
    have hrest : w ∈ wordsFrom [] cs → w ⊆ opened ++ c :: cs := fun h d hd =>
      List.mem_append_right _ (List.mem_cons_of_mem _ (by simpa using ih h hd))
    rw [wordsFrom] at hw
    split at hw
    · split at hw
      · exact hrest hw
      · rcases List.mem_cons.1 hw with rfl | hw
        · exact fun d hd => List.mem_append_left _ (List.mem_reverse.1 hd)
        · exact hrest hw
    · refine fun d hd => ?_
      have := ih hw hd
      simp only [List.cons_append, List.mem_cons, List.mem_append] at this ⊢
      exact or_left_comm.1 this

theorem subset_of_mem_words {w cs : List Char} (hw : w ∈ words cs) : w ⊆ cs := by
  simpa using subset_of_mem_wordsFrom hw

theorem skipWords_subset (k : Nat) (cs : List Char) : skipWords k cs ⊆ cs := by
  induction k generalizing cs with
  | zero => exact trimStart_subset cs
  | succ k ih =>
    exact List.Subset.trans (ih _)
      (List.Subset.trans (List.dropWhile_sublist _).subset (trimStart_subset cs))

theorem subset_of_mem_piecesAt {p q cs : List Char} (hq : q ∈ piecesAt p cs) : q ⊆ cs := by
  rw [piecesAt] at hq
  split at hq
  · rw [List.mem_singleton.1 hq]
    exact List.Subset.refl _
  · split at hq
    · rw [List.mem_singleton.1 hq]
      exact List.Subset.refl _
    · next a b hcut =>
      have heq := eq_append_of_cutAt hcut
      rcases List.mem_cons.1 hq with rfl | hq
      · rw [heq]
        exact List.subset_append_left _ _
      · have hb : b ⊆ cs := by
          rw [heq]
          exact List.Subset.trans (List.subset_append_right _ _) (List.subset_append_right _ _)
        exact List.Subset.trans (subset_of_mem_piecesAt hq) hb
termination_by cs.length
decreasing_by
  have hp : p ≠ [] := ‹_›
  have := List.length_pos_iff.2 hp
  rw [heq]
  simp only [List.length_append]
  omega

theorem subset_of_mem_splitOn {c : Char} {cs p : List Char} (hp : p ∈ cs.splitOn c) : p ⊆ cs := by
  induction cs generalizing p with
  | nil =>
    rw [List.splitOn_nil, List.mem_singleton] at hp
    rw [hp]
    exact List.nil_subset _
  | cons d cs ih =>
    obtain ⟨q, qs, hq⟩ := List.exists_cons_of_ne_nil (List.splitOn_ne_nil c cs)
    rw [List.splitOn_cons_eq_if_modifyHead, hq] at hp
    rw [hq] at ih
    split at hp
    · rcases List.mem_cons.1 hp with rfl | hp
      · exact List.nil_subset _
      · exact List.subset_cons_of_subset d (ih hp)
    · rcases List.mem_cons.1 hp with rfl | hp
      · exact List.cons_subset_cons d (ih List.mem_cons_self)
      · exact List.subset_cons_of_subset d (ih (List.mem_cons_of_mem _ hp))

/-- The small letter of a large one, by code point; any other character stays. -/
theorem toNat_toLower (c : Char) :
    c.toLower.toNat = if 65 ≤ c.toNat ∧ c.toNat ≤ 90 then c.toNat + 32 else c.toNat := by
  delta Char.toLower
  split
  · next h =>
    have h1 : 65 ≤ c.toNat := UInt32.le_iff_toNat_le.1 h.1
    have h2 : c.toNat ≤ 90 := UInt32.le_iff_toNat_le.1 h.2
    have hshift : ('a'.val - 'A'.val).toNat = 32 := rfl
    rw [if_pos ⟨h1, h2⟩, Char.toNat_mk, UInt32.toNat_add, Char.toNat_val, hshift]
    exact Nat.mod_eq_of_lt (by omega)
  · next h =>
    rw [if_neg]
    exact fun h' => h ⟨UInt32.le_iff_toNat_le.2 h'.1, UInt32.le_iff_toNat_le.2 h'.2⟩

/-- A blank at the end is not seen by trimming. -/
theorem trim_append_blank {c : Char} (hc : isBlank c = true) (cs : List Char) :
    trim (cs ++ [c]) = trim cs := by
  rw [trim, trim, trimStart, trimStart, List.dropWhile_append]
  split
  · next h =>
    rw [List.isEmpty_iff.1 h]
    simp [hc]
  · rw [trimEnd_append_blank hc]

theorem dropReturn_eq_or (cs : List Char) : dropReturn cs = cs ∨ cs = '\r' :: dropReturn cs := by
  unfold dropReturn
  split
  · exact Or.inr rfl
  · exact Or.inl rfl

/-- No line holds a line feed, if what was read of the first one did not. -/
theorem not_mem_of_mem_linesFrom {l opened cs : List Char} (ho : '\n' ∉ opened)
    (hl : l ∈ linesFrom opened cs) : '\n' ∉ l := by
  have hdone {opened : List Char} (ho : '\n' ∉ opened) : '\n' ∉ opened.reverse := fun h =>
    ho (List.mem_reverse.1 h)
  induction cs generalizing opened with
  | nil =>
    rw [linesFrom] at hl
    split at hl
    · cases hl
    · rw [List.mem_singleton.1 hl]
      exact hdone ho
  | cons c cs ih =>
    rw [linesFrom] at hl
    split at hl
    · rcases List.mem_cons.1 hl with rfl | hl
      · refine hdone fun h => ho ?_
        rcases dropReturn_eq_or opened with heq | heq
        · exact heq ▸ h
        · exact heq ▸ List.mem_cons_of_mem _ h
      · exact ih List.not_mem_nil hl
    · next hc => exact ih (fun h => (List.mem_cons.1 h).elim (fun h => hc h.symm) ho) hl

end Chars

/-! ## Texts -/

namespace Text

/-- The text holds no line feed. -/
def OneLine (s : String) : Prop := '\n' ∉ s.toList

instance (s : String) : Decidable (OneLine s) := inferInstanceAs (Decidable ('\n' ∉ s.toList))

theorem OneLine.of_subset {s t : String} (ht : OneLine t) (h : s.toList ⊆ t.toList) : OneLine s :=
  fun hs => ht (h hs)

/-- A text that is shown as a part of another is that text. -/
@[simp] theorem toString_text (s : String) : toString s = s := rfl

@[simp] theorem oneLine_ofList {cs : List Char} : OneLine (String.ofList cs) ↔ '\n' ∉ cs := by
  simp [OneLine]

@[simp] theorem oneLine_append {s t : String} : OneLine (s ++ t) ↔ OneLine s ∧ OneLine t := by
  simp [OneLine]

theorem OneLine.append_append {s t u : String} (hs : OneLine s) (ht : OneLine t) (hu : OneLine u) :
    OneLine (s ++ t ++ u) := oneLine_append.2 ⟨oneLine_append.2 ⟨hs, ht⟩, hu⟩

theorem oneLine_join {ts : List String} (h : ∀ t ∈ ts, OneLine t) : OneLine (String.join ts) := by
  induction ts with
  | nil => simp [OneLine]
  | cons t ts ih =>
    rw [String.join_cons, oneLine_append]
    exact ⟨h t List.mem_cons_self, ih fun u hu => h u (List.mem_cons_of_mem _ hu)⟩

theorem oneLine_intercalate {s : String} {ts : List String} (hs : OneLine s)
    (h : ∀ t ∈ ts, OneLine t) : OneLine (s.intercalate ts) := by
  induction ts with
  | nil => simp [OneLine]
  | cons t ts ih =>
    have ht := h t List.mem_cons_self
    have hts := ih fun u hu => h u (List.mem_cons_of_mem _ hu)
    cases ts with
    | nil => rwa [String.intercalate_singleton]
    | cons u ts =>
      rw [String.intercalate_cons_cons, oneLine_append, oneLine_append]
      exact ⟨⟨ht, hs⟩, hts⟩

theorem oneLine_unwords {ws : List String} (h : ∀ w ∈ ws, OneLine w) : OneLine (unwords ws) :=
  oneLine_intercalate (by decide) h

/-! ### Numerals -/

@[simp] theorem oneLine_repr (n : Nat) : OneLine n.repr := by
  rw [OneLine, Nat.toList_repr]
  intro h
  exact absurd (Nat.isDigit_of_mem_toDigits (by decide) (by decide) h) (by decide)

@[simp] theorem oneLine_toString_nat (n : Nat) : OneLine (toString n) := oneLine_repr n

@[simp] theorem oneLine_toString_uInt8 (n : UInt8) : OneLine (toString n) := oneLine_repr n.toNat

@[simp] theorem oneLine_toString_uInt16 (n : UInt16) : OneLine (toString n) :=
  oneLine_repr n.toNat

@[simp] theorem oneLine_toString_uInt32 (n : UInt32) : OneLine (toString n) :=
  oneLine_repr n.toNat

/-! ### Parts of a text -/

/-- A cut loses nothing but the character it is made at. -/
theorem eq_append_of_cut {c : Char} {s a b : String} (h : cut c s = some (a, b)) :
    s = a ++ String.singleton c ++ b := by
  obtain ⟨⟨as, bs⟩, hab, heq⟩ := Option.map_eq_some_iff.1 h
  cases heq
  rw [← String.toList_inj, Chars.eq_append_of_cut hab]
  simp

section Parts

variable {s : String} (hs : OneLine s)
include hs

theorem OneLine.trim : OneLine (Text.trim s) :=
  hs.of_subset (by rw [toList_trim]; exact Chars.trim_subset _)

theorem OneLine.trimEnd : OneLine (Text.trimEnd s) :=
  hs.of_subset (by rw [toList_trimEnd]; exact Chars.trimEnd_subset _)

theorem OneLine.lower : OneLine (Text.lower s) := by
  rw [Text.lower, oneLine_ofList, List.mem_map]
  rintro ⟨c, hc, hlow⟩
  have hn : c.toNat = 10 := by
    have hcase := Chars.toNat_toLower c
    rw [hlow, show ('\n').toNat = 10 from rfl] at hcase
    split at hcase <;> omega
  exact hs ((Char.toNat_inj.1 hn : c = '\n') ▸ hc)

theorem OneLine.cut {c : Char} {a b : String} (h : Text.cut c s = some (a, b)) :
    OneLine a ∧ OneLine b := by
  obtain ⟨⟨a', b'⟩, hab, heq⟩ := Option.map_eq_some_iff.1 h
  cases heq
  have hcs := Chars.eq_append_of_cut hab
  rw [oneLine_ofList, oneLine_ofList]
  rw [OneLine, hcs] at hs
  simp only [List.mem_append, List.mem_cons, not_or] at hs
  exact ⟨hs.1, hs.2.2⟩

theorem OneLine.withoutPrefix {p t : String} (h : Text.withoutPrefix p s = some t) :
    OneLine t := by
  obtain ⟨cs, hcs, rfl⟩ := Option.map_eq_some_iff.1 h
  refine hs.of_subset ?_
  rw [String.toList_ofList, Chars.withoutPrefix_eq_some_iff.1 hcs]
  exact List.subset_append_right _ _

theorem OneLine.withoutSuffix {p t : String} (h : Text.withoutSuffix p s = some t) :
    OneLine t := by
  obtain ⟨cs, hcs, rfl⟩ := Option.map_eq_some_iff.1 h
  refine hs.of_subset ?_
  rw [String.toList_ofList, Chars.withoutSuffix_eq_some_iff.1 hcs]
  exact List.subset_append_left _ _

theorem OneLine.cutAt {p a b : String} (h : Text.cutAt p s = some (a, b)) :
    OneLine a ∧ OneLine b := by
  obtain ⟨⟨a', b'⟩, hab, heq⟩ := Option.map_eq_some_iff.1 h
  cases heq
  have hcs := Chars.eq_append_of_cutAt hab
  rw [oneLine_ofList, oneLine_ofList]
  rw [OneLine, hcs] at hs
  simp only [List.mem_append, not_or] at hs
  exact ⟨hs.1, hs.2.2⟩

theorem OneLine.of_mem_piecesAt {p t : String} (ht : t ∈ Text.piecesAt p s) : OneLine t := by
  obtain ⟨q, hq, rfl⟩ := List.mem_map.1 ht
  exact hs.of_subset (by simpa using Chars.subset_of_mem_piecesAt hq)

theorem OneLine.of_mem_pieces {c : Char} {p : String} (hp : p ∈ Text.pieces c s) : OneLine p := by
  obtain ⟨q, hq, rfl⟩ := List.mem_map.1 hp
  exact hs.of_subset (by simpa using Chars.subset_of_mem_splitOn hq)

theorem OneLine.of_mem_words {w : String} (hw : w ∈ Text.words s) : OneLine w := by
  obtain ⟨v, hv, rfl⟩ := List.mem_map.1 hw
  exact hs.of_subset (by simpa using Chars.subset_of_mem_words hv)

theorem OneLine.textAfter (k : Nat) : OneLine (Text.textAfter k s) :=
  hs.of_subset (by
    rw [Text.textAfter, String.toList_ofList]
    exact List.Subset.trans (Chars.trimEnd_subset _) (Chars.skipWords_subset k _))

end Parts

/-! ### Lines -/

/-- The text without a carriage return at its end. -/
def withoutReturn (s : String) : String :=
  String.ofList (Chars.dropReturn s.toList.reverse).reverse

/-- **Lines are read back as they were written**, a carriage return at their end apart. -/
theorem lines_unlines_map {ls : List String} (h : ∀ l ∈ ls, OneLine l) :
    lines (unlines ls) = ls.map withoutReturn := by
  induction ls with
  | nil => simp [lines]
  | cons l ls ih =>
    have ih := ih fun m hm => h m (List.mem_cons_of_mem _ hm)
    rw [lines, toList_unlines_cons, Chars.lines_append (h l List.mem_cons_self), List.map_cons,
      List.map_cons, ← ih]
    rfl

/-- No line of a text holds a line feed. -/
theorem oneLine_of_mem_lines {l s : String} (h : l ∈ lines s) : OneLine l := by
  obtain ⟨cs, hcs, rfl⟩ := List.mem_map.1 h
  exact oneLine_ofList.2 (Chars.not_mem_of_mem_linesFrom (List.not_mem_nil) hcs)

/-- What is left out at the end is a carriage return or nothing. -/
theorem withoutReturn_eq_or (s : String) :
    withoutReturn s = s ∨ s = withoutReturn s ++ "\r" := by
  rcases Chars.dropReturn_eq_or s.toList.reverse with h | h
  · left
    rw [withoutReturn, h, List.reverse_reverse, String.ofList_toList]
  · right
    apply String.toList_inj.1
    rw [withoutReturn, String.toList_append, String.toList_ofList]
    exact (List.reverse_eq_iff.1 h).trans List.reverse_cons

@[simp] theorem trim_withoutReturn (s : String) : trim (withoutReturn s) = trim s := by
  rcases withoutReturn_eq_or s with h | h
  · rw [h]
  · generalize withoutReturn s = t at h
    subst h
    apply String.toList_inj.1
    rw [toList_trim, toList_trim, String.toList_append]
    exact (Chars.trim_append_blank (by decide) _).symm

/-- Without the blanks at their ends, lines are read back as they were written. -/
theorem map_trim_lines_unlines {ls : List String} (h : ∀ l ∈ ls, OneLine l) :
    (lines (unlines ls)).map trim = ls.map trim := by
  rw [lines_unlines_map h, List.map_map]
  exact List.map_congr_left fun l _ => trim_withoutReturn l

end Text

end FirewallConfig
