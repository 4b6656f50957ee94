import FirewallConfig.Proofs.Text.Cut
import FirewallConfig.Proofs.Text.OneLine

/-!
# Proofs/Text/Lines — the lines of texts put together, and of a text broken off

A text that ends its last line may be followed by another one: the lines are those of the first,
then those of the second (`lines_append`).  Where whole lines are broken off somewhere, also within a
line, each line that is left is the beginning of one of them (`exists_prefix_of_mem_lines`).
-/

namespace FirewallConfig

namespace Chars

/-- A beginning of two parts ends in the first one, or somewhere in the second. -/
theorem prefix_append_cases {p as bs : List Char} (h : p <+: as ++ bs) :
    p <+: as ∨ ∃ q, p = as ++ q ∧ q <+: bs := by
  rcases List.prefix_or_prefix_of_prefix h (List.prefix_append as bs) with hp | ⟨q, rfl⟩
  · exact .inl hp
  · exact .inr ⟨q, rfl, (List.prefix_append_right_inj as).1 h⟩

/-- Blanks behind a text are not seen. -/
theorem trim_append_of_forall_blank {bs : List Char} (hbs : ∀ b ∈ bs, isBlank b = true)
    (cs : List Char) : trim (cs ++ bs) = trim cs := by
  induction bs generalizing cs with
  | nil => rw [List.append_nil]
  | cons b bs ih =>
    obtain ⟨hb, hbs⟩ := List.forall_mem_cons.1 hbs
    rw [List.append_cons, ih hbs, trim_append_blank hb]

/-- Reading goes on afresh after a line feed. -/
theorem linesFrom_append_newline (opened cs ds : List Char) :
    linesFrom opened (cs ++ '\n' :: ds) = linesFrom opened (cs ++ ['\n']) ++ lines ds := by
  induction cs generalizing opened with
  | nil => simp [linesFrom, lines]
  | cons c cs ih =>
    rw [List.cons_append, List.cons_append, linesFrom, linesFrom]
    split
    · rw [ih, List.cons_append]
    · exact ih (c :: opened)

/-- What has no line feed is one line, or no line if it is empty. -/
theorem lines_eq_of_not_mem {cs : List Char} (h : '\n' ∉ cs) :
    lines cs = if cs.isEmpty then [] else [cs] := by
  have hopened (opened : List Char) :
      linesFrom opened cs = if (opened ++ cs).isEmpty then [] else [opened.reverse ++ cs] := by
    induction cs generalizing opened with
    | nil => simp [linesFrom]
    | cons c cs ih =>
      have hc : ¬ c = '\n' := fun hc => h (hc ▸ List.mem_cons_self)
      rw [linesFrom, if_neg hc, ih fun hcs => h (List.mem_cons_of_mem _ hcs)]
      simp
  exact hopened []

end Chars

namespace Text

/-- The text is empty, or it ends its last line. -/
def EndsLine (s : String) : Prop := s = "" ∨ endsIn "\n" s = true

instance (s : String) : Decidable (EndsLine s) :=
  inferInstanceAs (Decidable (s = "" ∨ endsIn "\n" s = true))

theorem endsLine_iff {s : String} :
    EndsLine s ↔ s.toList = [] ∨ ∃ cs, s.toList = cs ++ ['\n'] := by
  rw [EndsLine, endsIn_iff, String.toList_eq_nil_iff]
  exact Iff.rfl

/-- **The lines of a text that ends its last line come first**, whatever follows it. -/
theorem lines_append {s : String} (hs : EndsLine s) (t : String) :
    lines (s ++ t) = lines s ++ lines t := by
  rw [lines, lines, lines, String.toList_append, ← List.map_append]
  rcases endsLine_iff.1 hs with h | ⟨cs, h⟩
  · rw [h]
    rfl
  · rw [h, List.append_assoc, List.singleton_append, Chars.lines, Chars.linesFrom_append_newline]
    rfl

theorem endsLine_unlines (ls : List String) : EndsLine (unlines ls) := by
  induction ls with
  | nil => exact .inl unlines_nil
  | cons l ls ih =>
    rw [endsLine_iff, toList_unlines_cons]
    rcases endsLine_iff.1 ih with h | ⟨cs, h⟩
    · exact .inr ⟨l.toList, by rw [h]⟩
    · exact .inr ⟨l.toList ++ '\n' :: cs, by rw [h, List.append_assoc, List.cons_append]⟩

theorem unlines_append (ls ms : List String) : unlines (ls ++ ms) = unlines ls ++ unlines ms := by
  rw [unlines, unlines, unlines, List.map_append, String.join_append]

theorem withoutReturn_isPrefix (s : String) : (withoutReturn s).toList <+: s.toList := by
  rcases withoutReturn_eq_or s with h | h
  · exact ⟨[], by rw [h, List.append_nil]⟩
  · generalize withoutReturn s = t at h
    rw [h, String.toList_append]
    exact List.prefix_append _ _

/-- **What is left of whole lines are beginnings of them**, wherever the text is broken off. -/
theorem exists_prefix_of_mem_lines {ls : List String} (hls : ∀ l ∈ ls, OneLine l) {t : String}
    (ht : t.toList <+: (unlines ls).toList) {m : String} (hm : m ∈ lines t) :
    ∃ l ∈ ls, m.toList <+: l.toList := by
  induction ls generalizing t with
  | nil =>
    have hnil : t = "" := by simpa using ht
    rw [hnil] at hm
    cases hm
  | cons l ls ih =>
    obtain ⟨hl, hls⟩ := List.forall_mem_cons.1 hls
    have hwithin (hbegin : t.toList <+: l.toList) : ∃ k ∈ l :: ls, m.toList <+: k.toList := by
      have hnot : '\n' ∉ t.toList := fun h => hl (hbegin.subset h)
      rw [lines, Chars.lines_eq_of_not_mem hnot] at hm
      split at hm
      · cases hm
      · rw [List.map_singleton, String.ofList_toList, List.mem_singleton] at hm
        exact ⟨l, List.mem_cons_self, hm ▸ hbegin⟩
    rw [toList_unlines_cons] at ht
    rcases Chars.prefix_append_cases ht with hbegin | ⟨rest, hrest, hbelow⟩
    · exact hwithin hbegin
    · rcases List.prefix_cons_iff.1 hbelow with rfl | ⟨rest, rfl, hbelow⟩
      · exact hwithin ⟨[], by rw [hrest, List.append_nil, List.append_nil]⟩
      · rw [lines, hrest, Chars.lines_append hl, List.map_cons] at hm
        rcases List.mem_cons.1 hm with rfl | hm
        · exact ⟨l, List.mem_cons_self, withoutReturn_isPrefix l⟩
        · have hlines : m ∈ lines (String.ofList rest) := by rwa [lines, String.toList_ofList]
          obtain ⟨k, hk, hprefix⟩ := ih hls (by rwa [String.toList_ofList]) hlines
          exact ⟨k, List.mem_cons_of_mem _ hk, hprefix⟩

end Text

end FirewallConfig
