import FirewallConfig.Proofs.Text.Blank
import FirewallConfig.Proofs.Text.OneLine
import FirewallConfig.Text.Words

/-!
# Proofs/Text/Words — the words of a line that is put together

Words split at a blank (`words_append`), and so a line made of words is read as these words.  What
follows the first words of a line is read with its spacing (`textAfter_unwords`), whatever blanks
stand at the ends of the line.
-/

namespace FirewallConfig

namespace Chars

/-! ## Lists of characters -/

theorem wordsFrom_append_of_forall {w : List Char} (hw : ∀ c ∈ w, isBlank c = false)
    (opened rest : List Char) :
    wordsFrom opened (w ++ rest) = wordsFrom (w.reverse ++ opened) rest := by
  induction w generalizing opened with
  | nil => rfl
  | cons c w ih =>
    obtain ⟨hc, hw⟩ := List.forall_mem_cons.1 hw
    rw [List.cons_append, wordsFrom, if_neg (by simp [hc]), ih hw]
    simp

/-- **Words split at a blank.** -/
theorem wordsFrom_append {b : Char} (hb : isBlank b = true) (opened cs ds : List Char) :
    wordsFrom opened (cs ++ b :: ds) = wordsFrom opened cs ++ words ds := by
  induction cs generalizing opened with
  | nil =>
    rw [List.nil_append, wordsFrom.eq_2, if_pos hb, wordsFrom.eq_1, words]
    cases opened <;> rfl
  | cons c cs ih =>
    rw [List.cons_append, wordsFrom, wordsFrom, ih, ih]
    split
    · split <;> rfl
    · rfl

/-- Characters without a blank are one word. -/
theorem words_of_forall {w : List Char} (hne : w ≠ []) (hw : ∀ c ∈ w, isBlank c = false) :
    words w = [w] := by
  have h := wordsFrom_append_of_forall hw [] []
  rw [List.append_nil, List.append_nil] at h
  rw [words, h, wordsFrom, if_neg (by simpa using hne), List.reverse_reverse]

/-- A word is not empty and holds no blank. -/
theorem solid_of_mem_wordsFrom {w cs opened : List Char} (ho : ∀ c ∈ opened, isBlank c = false)
    (hw : w ∈ wordsFrom opened cs) : w ≠ [] ∧ ∀ c ∈ w, isBlank c = false := by
  have hdone {opened : List Char} (ho : ∀ c ∈ opened, isBlank c = false)
      (hne : ¬ opened.isEmpty = true) :
      opened.reverse ≠ [] ∧ ∀ c ∈ opened.reverse, isBlank c = false :=
    ⟨by simpa using hne, fun c hc => ho c (List.mem_reverse.1 hc)⟩
  induction cs generalizing opened with
  | nil =>
    rw [wordsFrom] at hw
    split at hw
    · cases hw
    · next hne =>
      rw [List.mem_singleton.1 hw]
      exact hdone ho hne
  | cons c cs ih =>
    rw [wordsFrom] at hw
    split at hw
    · split at hw
      · exact ih (List.forall_mem_nil _) hw
      · next hne =>
        rcases List.mem_cons.1 hw with rfl | hw
        · exact hdone ho hne
        · exact ih (List.forall_mem_nil _) hw
    · next hc => exact ih (List.forall_mem_cons.2 ⟨by simpa using hc, ho⟩) hw

/-- A word that is open goes on with the beginning of what follows it. -/
theorem exists_wordsFrom_eq {opened : List Char} (ho : opened ≠ []) (cs : List Char) :
    ∃ ds ws, ds <+: cs ∧ wordsFrom opened cs = (opened.reverse ++ ds) :: ws := by
  have hempty : ¬ opened.isEmpty = true := by simpa using ho
  induction cs generalizing opened with
  | nil => exact ⟨[], [], List.nil_prefix, by rw [wordsFrom, if_neg hempty, List.append_nil]⟩
  | cons c cs ih =>
    rw [wordsFrom]
    split
    · exact ⟨[], wordsFrom [] cs, List.nil_prefix, by rw [List.append_nil]⟩
    · obtain ⟨ds, ws, hds, h⟩ := ih (List.cons_ne_nil c opened) Bool.false_ne_true
      refine ⟨c :: ds, ws, List.cons_prefix_cons.2 ⟨rfl, hds⟩, ?_⟩
      rw [h, List.reverse_cons, List.append_assoc]
      rfl

/-- A blank in front of a text is passed over with the first word. -/
theorem skipWords_cons {b : Char} (hb : isBlank b = true) (k : Nat) (cs : List Char) :
    skipWords k (b :: cs) = skipWords k cs := by
  cases k <;> rw [skipWords, skipWords, trimStart_of_blank hb]

/-- One word is passed over. -/
theorem skipWords_append {w : List Char} (hne : w ≠ []) (hw : ∀ c ∈ w, isBlank c = false) (k : Nat)
    (cs : List Char) : skipWords (k + 1) (w ++ ' ' :: cs) = skipWords k cs := by
  have hstart : trimStart (w ++ ' ' :: cs) = w ++ ' ' :: cs := by
    obtain ⟨c, w, rfl⟩ := List.exists_cons_of_ne_nil hne
    exact trimStart_of_not_blank (hw c List.mem_cons_self) _
  have hafter : afterWord (w ++ ' ' :: cs) = ' ' :: cs := by
    rw [afterWord, List.dropWhile_append_of_pos fun c hc => by simp [hw c hc]]
    exact List.dropWhile_cons_of_neg (by decide)
  rw [skipWords, hstart, hafter, skipWords_cons (by decide)]

/-- Blanks at the end are all that trimming the end takes away before anything is dropped. -/
theorem trimEnd_dropWhile (p : Char → Bool) (cs : List Char) :
    trimEnd ((trimEnd cs).dropWhile p) = trimEnd (cs.dropWhile p) := by
  induction cs with
  | nil => rfl
  | cons c cs ih =>
    rw [trimEnd_cons, List.dropWhile_cons]
    split
    · next h =>
      have hnil : trimEnd cs = [] := by
        have hand := Bool.and_eq_true_iff.1 h
        simpa using hand.1
      split
      · rw [← ih, hnil]
      · rw [trimEnd_cons, if_pos h]
        rfl
    · next h =>
      rw [List.dropWhile_cons]
      split
      · exact ih
      · rw [trimEnd_cons, trimEnd_trimEnd, trimEnd_cons]

theorem trimEnd_skipWords (k : Nat) (cs : List Char) :
    trimEnd (skipWords k (trimEnd cs)) = trimEnd (skipWords k cs) := by
  induction k generalizing cs with
  | zero => exact trimEnd_dropWhile isBlank cs
  | succ k ih =>
    have hafter : trimEnd (afterWord (trimStart (trimEnd cs)))
        = trimEnd (afterWord (trimStart cs)) := by
      have h (cs : List Char) : trimEnd (afterWord (trimEnd cs)) = trimEnd (afterWord cs) :=
        trimEnd_dropWhile _ cs
      rw [← h, trimStart, trimEnd_dropWhile, h, trimStart]
    rw [skipWords, skipWords, ← ih, hafter, ih]

theorem skipWords_trimStart (k : Nat) (cs : List Char) :
    skipWords k (trimStart cs) = skipWords k cs := by
  induction cs with
  | nil => rfl
  | cons c cs ih =>
    cases hc : isBlank c with
    | false => rw [trimStart_of_not_blank hc]
    | true => rw [trimStart_of_blank hc, ih, skipWords_cons hc]

/-- What is left of a text has no blank in front. -/
theorem exists_skipWords_eq (k : Nat) (cs : List Char) : ∃ ds, skipWords k cs = trimStart ds := by
  induction k generalizing cs with
  | zero => exact ⟨cs, rfl⟩
  | succ k ih => exact ih _

/-- A text of blanks only has no words. -/
theorem words_of_trim_eq_nil {cs : List Char} (h : trim cs = []) : words cs = [] := by
  induction cs with
  | nil => rfl
  | cons c cs ih =>
    cases hc : isBlank c with
    | true =>
      have htail : trim cs = [] := by rwa [trim, trimStart_of_blank hc] at h
      rw [words, wordsFrom, if_pos hc]
      exact ih htail
    | false =>
      rw [trim_cons hc, trimEnd_cons, if_neg (by simp [hc])] at h
      cases h

end Chars

namespace Text

/-! ## Texts -/

/-- The text is one word. -/
def IsWord (s : String) : Prop := s.toList ≠ [] ∧ ∀ c ∈ s.toList, isBlank c = false

instance (s : String) : Decidable (IsWord s) :=
  decidable_of_iff ((!s.toList.isEmpty && s.toList.all fun c => !isBlank c) = true)
    (by simp [IsWord])

theorem IsWord.solid {w : String} (hw : IsWord w) : Chars.Solid w.toList :=
  Chars.solid_of_forall hw.1 hw.2

theorem IsWord.trim_eq {w : String} (hw : IsWord w) : trim w = w :=
  String.toList_inj.1 (by rw [toList_trim, hw.solid.trim_eq])

theorem IsWord.isEmpty_eq {w : String} (hw : IsWord w) : w.isEmpty = false := by
  rw [String.isEmpty_eq_false_iff]
  rintro rfl
  exact hw.1 rfl

theorem IsWord.words_eq {w : String} (hw : IsWord w) : words w = [w] := by
  rw [words, Chars.words_of_forall hw.1 hw.2, List.map_singleton, String.ofList_toList]

/-- Two words with nothing between them are one. -/
theorem IsWord.append {v w : String} (hv : IsWord v) (hw : IsWord w) : IsWord (v ++ w) := by
  rw [IsWord, String.toList_append]
  exact ⟨List.append_ne_nil_of_left_ne_nil hv.1 _, List.forall_mem_append.2 ⟨hv.2, hw.2⟩⟩

/-- No word holds a line feed. -/
theorem IsWord.oneLine {w : String} (hw : IsWord w) : OneLine w := fun h =>
  absurd (hw.2 _ h) (by decide)

theorem isWord_of_mem_words {w s : String} (hw : w ∈ words s) : IsWord w := by
  obtain ⟨cs, hcs, rfl⟩ := List.mem_map.1 hw
  have h := Chars.solid_of_mem_wordsFrom (List.forall_mem_nil _) hcs
  rwa [IsWord, String.toList_ofList]

/-- A text that is not indented begins with its first word. -/
theorem isPrefix_of_words {s w : String} (hs : isIndented s = false)
    (hw : (words s).head? = some w) : w.toList <+: s.toList := by
  cases hlist : s.toList with
  | nil =>
    rw [words, hlist] at hw
    cases hw
  | cons c cs =>
    have hc : isBlank c = false := by
      rw [isIndented, hlist] at hs
      exact hs
    obtain ⟨ds, ws, hds, h⟩ := Chars.exists_wordsFrom_eq (List.cons_ne_nil c []) cs
    have hwords : Chars.words (c :: cs) = (c :: ds) :: ws := by
      rw [Chars.words, Chars.wordsFrom, if_neg (by simp [hc]), h]
      rfl
    rw [words, hlist, hwords] at hw
    cases hw
    rw [String.toList_ofList]
    exact List.cons_prefix_cons.2 ⟨rfl, hds⟩

theorem head?_of_words {s w : String} (hs : isIndented s = false) (hw : (words s).head? = some w) :
    s.toList.head? = w.toList.head? := by
  obtain ⟨c, cs, hcons⟩ := List.exists_cons_of_ne_nil (isWord_of_mem_words (List.mem_of_head? hw)).1
  obtain ⟨rest, hrest⟩ := isPrefix_of_words hs hw
  rw [← hrest, hcons]
  rfl

@[simp] theorem words_empty : words "" = [] := rfl

theorem words_of_isEmpty_trim {s : String} (h : (trim s).isEmpty = true) : words s = [] := by
  have hnil : Chars.trim s.toList = [] := by
    rw [← toList_trim, String.isEmpty_iff.1 h]
    rfl
  rw [words, Chars.words_of_trim_eq_nil hnil, List.map_nil]

/-- **Words split at a blank.** -/
theorem words_append (s t : String) : words (s ++ " " ++ t) = words s ++ words t := by
  have hlist : (s ++ " " ++ t).toList = s.toList ++ ' ' :: t.toList := by
    rw [String.toList_append, String.toList_append, List.append_assoc]
    rfl
  rw [words, hlist, Chars.words, Chars.wordsFrom_append (by decide), List.map_append]
  rfl

theorem IsWord.words_append {s : String} (hs : IsWord s) (t : String) :
    words (s ++ " " ++ t) = s :: words t := by
  rw [Text.words_append, hs.words_eq]
  rfl

theorem words_pair {s t : String} (hs : IsWord s) (ht : IsWord t) :
    words (s ++ " " ++ t) = [s, t] := by
  rw [hs.words_append, ht.words_eq]

theorem words_unwords (ts : List String) : words (unwords ts) = ts.flatMap words := by
  rw [unwords]
  induction ts with
  | nil => rfl
  | cons t ts ih =>
    cases ts with
    | nil => rw [String.intercalate_singleton, List.flatMap_singleton]
    | cons u us => rw [String.intercalate_cons_cons, words_append, ih, ← List.flatMap_cons]

theorem toList_unwords_cons (w : String) (ws : List String) :
    ∃ cs, (unwords (w :: ws)).toList = w.toList ++ cs := by
  cases ws with
  | nil => exact ⟨[], by rw [unwords, String.intercalate_singleton, List.append_nil]⟩
  | cons v vs =>
    refine ⟨" ".toList ++ (" ".intercalate (v :: vs)).toList, ?_⟩
    rw [unwords, String.intercalate_cons_cons, String.toList_append, String.toList_append,
      List.append_assoc]

/-- A line that begins with a word is not indented. -/
theorem isIndented_unwords {w : String} (hw : IsWord w) (ws : List String) :
    isIndented (unwords (w :: ws)) = false := by
  obtain ⟨cs, hcs⟩ := toList_unwords_cons w ws
  obtain ⟨c, ds, hlist⟩ := List.exists_cons_of_ne_nil hw.1
  rw [isIndented, hcs, hlist]
  exact hw.2 c (hlist ▸ List.mem_cons_self)

theorem flatMap_words {ws : List String} (hws : ∀ w ∈ ws, IsWord w) : ws.flatMap words = ws := by
  induction ws with
  | nil => rfl
  | cons w ws ih =>
    obtain ⟨hw, hws⟩ := List.forall_mem_cons.1 hws
    rw [List.flatMap_cons, hw.words_eq, ih hws]
    rfl

/-- **Words that are written are read back.** -/
theorem words_unwords_of_isWord {ws : List String} (hws : ∀ w ∈ ws, IsWord w) :
    words (unwords ws) = ws := by rw [words_unwords, flatMap_words hws]

theorem words_withoutReturn (s : String) : words (withoutReturn s) = words s := by
  rcases withoutReturn_eq_or s with h | h
  · rw [h]
  · have hlist : s.toList = (withoutReturn s).toList ++ ['\r'] := by
      rw [← String.toList_inj, String.toList_append] at h
      exact h
    have hwords := Chars.wordsFrom_append (by decide : isBlank '\r' = true) []
      (withoutReturn s).toList []
    rw [words, words, hlist, Chars.words, Chars.words, hwords]
    exact congrArg (List.map String.ofList) (List.append_nil _).symm

/-- What follows the first words of a line does not depend on the blanks at its ends. -/
theorem textAfter_trim (k : Nat) (s : String) : textAfter k (trim s) = textAfter k s := by
  rw [textAfter, toList_trim, Chars.trim, Chars.trimEnd_skipWords, Chars.skipWords_trimStart,
    textAfter]

/-- What follows the first words of a line has no blanks at its ends. -/
theorem trim_textAfter (k : Nat) (s : String) : trim (textAfter k s) = textAfter k s := by
  obtain ⟨ds, hds⟩ := Chars.exists_skipWords_eq k s.toList
  apply String.toList_inj.1
  rw [toList_trim, textAfter, String.toList_ofList, hds]
  exact Chars.trim_trim ds

theorem textAfter_zero (s : String) : textAfter 0 s = trim s := rfl

theorem textAfter_append {w : String} (hw : IsWord w) (k : Nat) (s : String) :
    textAfter (k + 1) (w ++ " " ++ s) = textAfter k s := by
  have hlist : (w ++ " " ++ s).toList = w.toList ++ ' ' :: s.toList := by
    rw [String.toList_append, String.toList_append, List.append_assoc]
    rfl
  rw [textAfter, hlist, Chars.skipWords_append hw.1 hw.2, textAfter]

/-- **What follows the words of a line is read with its spacing.** -/
theorem textAfter_unwords {ws : List String} (hws : ∀ w ∈ ws, IsWord w) (s : String) :
    textAfter ws.length (unwords (ws ++ [s])) = trim s := by
  rw [unwords]
  induction ws with
  | nil => rw [List.nil_append, String.intercalate_singleton, List.length_nil, textAfter_zero]
  | cons w ws ih =>
    obtain ⟨hw, hws⟩ := List.forall_mem_cons.1 hws
    have hline : " ".intercalate (w :: ws ++ [s]) = w ++ " " ++ " ".intercalate (ws ++ [s]) := by
      cases ws <;> exact String.intercalate_cons_cons
    rw [hline, List.length_cons, textAfter_append hw, ih hws]

end Text

end FirewallConfig
