import FirewallConfig.Text.Blank

/-!
# Proofs/Text/Blank — what trimming leaves

Trimming sees only the blanks at the ends of a text.  A **solid** text has none there, and so it
stays as it is, also where it stands in front of something else (`trim_append`).
-/

namespace FirewallConfig

theorem not_isBlank_of_isDigit {c : Char} (hc : c.isDigit = true) : isBlank c = false := by
  have hlow : 48 ≤ c.toNat := by
    simpa [Char.isDigit, UInt32.le_iff_toNat_le] using (Bool.and_eq_true_iff.1 hc).1
  have hhigh : c.toNat ≤ 57 := by
    simpa [Char.isDigit, UInt32.le_iff_toNat_le] using (Bool.and_eq_true_iff.1 hc).2
  simp [isBlank]
  omega

namespace Chars

theorem trimStart_of_blank {c : Char} (hc : isBlank c = true) (cs : List Char) :
    trimStart (c :: cs) = trimStart cs := List.dropWhile_cons_of_pos hc

theorem trimStart_of_not_blank {c : Char} (hc : isBlank c = false) (cs : List Char) :
    trimStart (c :: cs) = c :: cs := List.dropWhile_cons_of_neg (by simp [hc])

/-- A text that begins with a character that is not blank keeps its beginning. -/
theorem trim_cons {c : Char} (hc : isBlank c = false) (cs : List Char) :
    trim (c :: cs) = trimEnd (c :: cs) := by rw [trim, trimStart_of_not_blank hc]

/-- What is left of the end is a beginning. -/
theorem trimEnd_trimEnd (cs : List Char) : trimEnd (trimEnd cs) = trimEnd cs := by
  induction cs with
  | nil => rfl
  | cons c cs ih =>
    rw [trimEnd_cons]
    split
    · rfl
    · next h => rw [trimEnd_cons, ih, if_neg h]

/-- It does not count which end is trimmed first. -/
theorem trimStart_trimEnd (cs : List Char) : trimStart (trimEnd cs) = trim cs := by
  rw [trim]
  induction cs with
  | nil => rfl
  | cons c cs ih =>
    cases hc : isBlank c with
    | false =>
      rw [trimStart_of_not_blank hc, trimEnd_cons, if_neg (by simp [hc]), trimStart_of_not_blank hc]
    | true =>
      rw [trimStart_of_blank hc, ← ih, trimEnd_cons]
      split
      · next h =>
        have hnil : trimEnd cs = [] := by simpa [hc] using h
        rw [hnil]
      · rw [trimStart_of_blank hc]

/-- Trimming twice is trimming once. -/
theorem trim_trim (cs : List Char) : trim (trim cs) = trim cs := by
  have hstart : trimStart (trimStart cs) = trimStart cs := by
    induction cs with
    | nil => rfl
    | cons c cs ih =>
      cases hc : isBlank c with
      | false => rw [trimStart_of_not_blank hc, trimStart_of_not_blank hc]
      | true => rw [trimStart_of_blank hc, ih]
  calc
    trim (trim cs) = trimEnd (trimStart (trimEnd (trimStart cs))) := rfl
    _ = trimEnd (trimEnd (trimStart (trimStart cs))) := by rw [trimStart_trimEnd, trim]
    _ = trim cs := by rw [trimEnd_trimEnd, hstart, trim]

/-- Blanks in front are not seen. -/
theorem trim_append_of_blank {bs : List Char} (hbs : ∀ b ∈ bs, isBlank b = true) (cs : List Char) :
    trim (bs ++ cs) = trim cs := by
  rw [trim, trimStart, List.dropWhile_append_of_pos hbs, trim, trimStart]

theorem isBlank_of_mem_replicate {k : Nat} : ∀ b ∈ List.replicate k ' ', isBlank b = true := by
  intro b hb
  rw [List.eq_of_mem_replicate hb]
  decide

/-! ## Solid texts -/

/-- The text is not empty, and neither its first character nor its last is a blank. -/
structure Solid (cs : List Char) : Prop where
  first : ∃ c ds, cs = c :: ds ∧ isBlank c = false
  last : ∃ ds c, cs = ds ++ [c] ∧ isBlank c = false

theorem solid_of_forall {cs : List Char} (hne : cs ≠ []) (h : ∀ c ∈ cs, isBlank c = false) :
    Solid cs where
  first := by
    obtain ⟨c, ds, rfl⟩ := List.exists_cons_of_ne_nil hne
    exact ⟨c, ds, rfl, h c List.mem_cons_self⟩
  last :=
    ⟨cs.dropLast, cs.getLast hne, (List.dropLast_concat_getLast hne).symm,
      h _ (List.getLast_mem hne)⟩

/-- A text between two characters that are no blanks. -/
theorem solid_cons_append {c d : Char} (hc : isBlank c = false) (hd : isBlank d = false)
    (cs : List Char) : Solid (c :: (cs ++ [d])) :=
  ⟨⟨c, cs ++ [d], rfl, hc⟩, ⟨c :: cs, d, rfl, hd⟩⟩

namespace Solid

variable {cs : List Char} (h : Solid cs)
include h

theorem trimEnd_append (ds : List Char) : Chars.trimEnd (cs ++ ds) = cs ++ Chars.trimEnd ds := by
  obtain ⟨es, c, rfl, hc⟩ := h.last
  clear h
  induction es with
  | nil => rw [List.nil_append, List.singleton_append, trimEnd_cons, if_neg (by simp [hc])]; rfl
  | cons e es ih =>
    rw [List.cons_append, List.cons_append, trimEnd_cons, ih, if_neg (by simp)]
    rfl

/-- **A solid text is kept**, and what follows it loses the blanks at its end. -/
theorem trim_append (ds : List Char) : trim (cs ++ ds) = cs ++ Chars.trimEnd ds := by
  rw [← h.trimEnd_append]
  obtain ⟨c, es, rfl, hc⟩ := h.first
  rw [List.cons_append, trim_cons hc]

theorem trim_eq : trim cs = cs := by simpa using h.trim_append []

end Solid

end Chars

namespace Text

@[simp] theorem trim_trim (s : String) : trim (trim s) = trim s :=
  String.toList_inj.1 (by rw [toList_trim, toList_trim, Chars.trim_trim])

theorem toList_blanks (k : Nat) : ("".pushn ' ' k).toList = List.replicate k ' ' := by
  rw [String.pushn_eq_repeat_push]
  induction k with
  | zero => rfl
  | succ k ih => rw [Nat.repeat, String.toList_push, ih, List.replicate_succ']

/-- A text is trimmed the same where it is indented. -/
theorem trim_blanks_append (k : Nat) (s : String) : trim ("".pushn ' ' k ++ s) = trim s := by
  apply String.toList_inj.1
  rw [toList_trim, String.toList_append, toList_blanks,
    Chars.trim_append_of_blank Chars.isBlank_of_mem_replicate, toList_trim]

end Text

end FirewallConfig
