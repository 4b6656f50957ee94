import FirewallConfig.Proofs.Text.Words
import Mathlib.Data.List.TakeWhile

/-!
# Proofs/Text/Alignment — the words of a line, and what follows the first of them

A line is read in two ways: as its words, and as the text that follows the first few of them.  Both
pass over the same words (`exists_skipWords_append`): what is left of the line once `k` words are
passed holds the other words, and in front of it stand exactly the words that were passed.
-/

namespace FirewallConfig

namespace Chars

/-! ## Lists of characters -/

/-- Blanks in front of a text hold no words. -/
theorem words_append_of_blank {bs : List Char} (hbs : ∀ b ∈ bs, isBlank b = true)
    (cs : List Char) : words (bs ++ cs) = words cs := by
  induction bs with
  | nil => rfl
  | cons b bs ih =>
    obtain ⟨hb, hbs⟩ := List.forall_mem_cons.1 hbs
    rw [List.cons_append, words, wordsFrom, if_pos hb]
    exact ih hbs

theorem words_takeWhile_isBlank_append (cs ds : List Char) :
    words (cs.takeWhile isBlank ++ ds) = words ds :=
  words_append_of_blank (fun _ hb => List.mem_takeWhile_imp hb) ds

theorem words_trimStart (cs : List Char) : words (trimStart cs) = words cs := by
  have h := words_takeWhile_isBlank_append cs (trimStart cs)
  rw [trimStart, List.takeWhile_append_dropWhile] at h
  exact h.symm

/-- Characters without a blank are a word where they go up to a blank or to the end. -/
theorem words_append_of_head? {w rest : List Char} (hne : w ≠ [])
    (hw : ∀ c ∈ w, isBlank c = false) (hrest : ∀ b ∈ rest.head?, isBlank b = true) :
    words (w ++ rest) = w :: words rest := by
  cases rest with
  | nil => rw [List.append_nil, words_of_forall hne hw]; rfl
  | cons b rest =>
    have hb : isBlank b = true := hrest b rfl
    have hbehind : words (b :: rest) = words rest :=
      words_append_of_blank (List.forall_mem_singleton.2 hb) rest
    have hfirst : wordsFrom [] w = [w] := words_of_forall hne hw
    rw [words, wordsFrom_append hb, hfirst, hbehind]
    rfl

/-- What is left from the first blank on begins with a blank. -/
theorem isBlank_of_mem_head?_afterWord (cs : List Char) {b : Char}
    (hb : b ∈ (afterWord cs).head?) : isBlank b = true := by
  have h := List.head?_dropWhile_not (fun c => !isBlank c) cs
  rw [afterWord, Option.mem_def] at hb
  rw [hb] at h
  simpa using h

/-- A text that does not begin with a blank begins with a word. -/
theorem words_of_not_blank {c : Char} (hc : isBlank c = false) (cs : List Char) :
    words (c :: cs)
      = (c :: cs).takeWhile (fun c => !isBlank c) :: words (afterWord (c :: cs)) := by
  have hne : (c :: cs).takeWhile (fun c => !isBlank c) ≠ [] := by
    rw [List.takeWhile_cons_of_pos (by simp [hc])]
    exact List.cons_ne_nil _ _
  have hword : ∀ d ∈ (c :: cs).takeWhile (fun c => !isBlank c), isBlank d = false := fun d hd => by
    simpa using List.mem_takeWhile_imp hd
  have h := words_append_of_head? hne hword fun _ => isBlank_of_mem_head?_afterWord (c :: cs)
  rwa [afterWord, List.takeWhile_append_dropWhile] at h

theorem skipWords_nil (k : Nat) : skipWords k [] = [] := by
  induction k with
  | zero => rfl
  | succ k ih => exact ih

/-- **The first words are passed over, and no other**: they stand in front of what is left, and the
other words stand in it. -/
theorem exists_skipWords_append (k : Nat) (cs : List Char) :
    ∃ before, cs = before ++ skipWords k cs ∧ words before = (words cs).take k
      ∧ words (skipWords k cs) = (words cs).drop k := by
  induction k generalizing cs with
  | zero =>
    have hnone := words_takeWhile_isBlank_append cs []
    rw [List.append_nil] at hnone
    exact ⟨cs.takeWhile isBlank, List.takeWhile_append_dropWhile.symm, hnone, words_trimStart cs⟩
  | succ k ih =>
    rw [skipWords, ← words_trimStart cs]
    have hcs : cs = cs.takeWhile isBlank ++ trimStart cs := List.takeWhile_append_dropWhile.symm
    cases hstart : trimStart cs with
    | nil =>
      have hleft : skipWords k (afterWord []) = [] := skipWords_nil k
      refine ⟨cs, by rw [hleft, List.append_nil], ?_, by rw [hleft]; rfl⟩
      rw [← words_trimStart, hstart]
      rfl
    | cons c ds =>
      have hc : isBlank c = false := by
        have h := List.head?_dropWhile_not isBlank cs
        rw [trimStart] at hstart
        rw [hstart] at h
        simpa using h
      obtain ⟨before, happend, htake, hdrop⟩ := ih (afterWord (c :: ds))
      have hword := words_of_not_blank hc ds
      have hsplit : c :: ds = (c :: ds).takeWhile (fun c => !isBlank c) ++ afterWord (c :: ds) :=
        List.takeWhile_append_dropWhile.symm
      have hne : (c :: ds).takeWhile (fun c => !isBlank c) ≠ [] := by
        rw [List.takeWhile_cons_of_pos (by simp [hc])]
        exact List.cons_ne_nil _ _
      have hsolid : ∀ d ∈ (c :: ds).takeWhile (fun c => !isBlank c), isBlank d = false :=
        fun d hd => by simpa using List.mem_takeWhile_imp hd
      -- what stands in front of the rest, behind the word, begins with a blank as well
      have hbefore : ∀ b ∈ before.head?, isBlank b = true := fun b hb => by
        refine isBlank_of_mem_head?_afterWord (c :: ds) ?_
        rw [happend, List.head?_append, Option.mem_def.1 hb]
        rfl
      refine ⟨cs.takeWhile isBlank ++ ((c :: ds).takeWhile (fun c => !isBlank c) ++ before), ?_, ?_,
        by rw [hdrop, hword]; rfl⟩
      · rw [List.append_assoc, List.append_assoc, ← happend, ← hsplit, ← hstart]
        exact hcs
      · rw [words_takeWhile_isBlank_append, words_append_of_head? hne hsolid hbefore, htake, hword]
        rfl

/-- Only blanks are taken off the end. -/
theorem exists_trimEnd_append (cs : List Char) :
    ∃ bs, cs = trimEnd cs ++ bs ∧ ∀ b ∈ bs, isBlank b = true := by
  induction cs with
  | nil => exact ⟨[], rfl, List.forall_mem_nil _⟩
  | cons c cs ih =>
    obtain ⟨bs, hcs, hbs⟩ := ih
    rw [trimEnd_cons]
    split
    · next h =>
      obtain ⟨hempty, hc⟩ := Bool.and_eq_true_iff.1 h
      rw [List.isEmpty_iff.1 hempty, List.nil_append] at hcs
      exact ⟨c :: cs, rfl, List.forall_mem_cons.2 ⟨hc, hcs ▸ hbs⟩⟩
    · exact ⟨bs, congrArg (c :: ·) hcs, hbs⟩

theorem words_append_blanks {bs : List Char} (hbs : ∀ b ∈ bs, isBlank b = true) (cs : List Char) :
    words (cs ++ bs) = words cs := by
  cases bs with
  | nil => rw [List.append_nil]
  | cons b bs =>
    obtain ⟨hb, hbs⟩ := List.forall_mem_cons.1 hbs
    have hnone := words_append_of_blank hbs []
    rw [List.append_nil] at hnone
    rw [words, wordsFrom_append hb, hnone]
    exact List.append_nil _

theorem words_trimEnd (cs : List Char) : words (trimEnd cs) = words cs := by
  obtain ⟨bs, hcs, hbs⟩ := exists_trimEnd_append cs
  calc
    words (trimEnd cs) = words (trimEnd cs ++ bs) := (words_append_blanks hbs _).symm
    _ = words cs := by rw [← hcs]

/-- A text without words holds nothing but blanks. -/
theorem trimStart_of_words_eq_nil {cs : List Char} (h : words cs = []) : trimStart cs = [] := by
  cases hstart : trimStart cs with
  | nil => rfl
  | cons c ds =>
    have hc : isBlank c = false := by
      have h := List.head?_dropWhile_not isBlank cs
      rw [trimStart] at hstart
      rw [hstart] at h
      simpa using h
    rw [← words_trimStart, hstart, words_of_not_blank hc] at h
    cases h

theorem length_trim_le (cs : List Char) : (trim cs).length ≤ cs.length := by
  obtain ⟨bs, hbs, -⟩ := exists_trimEnd_append (trimStart cs)
  calc
    (trim cs).length ≤ (trim cs ++ bs).length := List.length_append ▸ Nat.le_add_right _ _
    _ = (trimStart cs).length := congrArg List.length hbs.symm
    _ ≤ cs.length := (List.dropWhile_sublist _).length_le

/-- A trimmed text neither begins nor ends with a blank. -/
theorem not_isBlank_of_mem_trim {cs : List Char} (h : trim cs = cs) :
    (∀ c ∈ cs.head?, isBlank c = false) ∧ ∀ c ∈ cs.getLast?, isBlank c = false := by
  constructor
  · intro c hc
    obtain ⟨ds, rfl⟩ := List.head?_eq_some_iff.1 hc
    by_contra hblank
    have hshort : (trim ds).length ≤ ds.length := length_trim_le ds
    rw [trim, trimStart_of_blank (by simpa using hblank)] at h
    rw [trim, h, List.length_cons] at hshort
    omega
  · intro c hc
    obtain ⟨ds, rfl⟩ := List.getLast?_eq_some_iff.1 hc
    by_contra hblank
    have hshort : (trim ds).length ≤ ds.length := length_trim_le ds
    rw [← trimStart_trimEnd, trimEnd_append_blank (by simpa using hblank), trimStart_trimEnd] at h
    rw [h, List.length_append, List.length_singleton] at hshort
    omega

end Chars

namespace Text

/-! ## Texts -/

/-- The text neither begins nor ends with a blank. -/
def HasNoBlankEnds (s : String) : Prop :=
  (∀ c ∈ s.toList.head?, isBlank c = false) ∧ ∀ c ∈ s.toList.getLast?, isBlank c = false

theorem hasNoBlankEnds_textAfter (k : Nat) (s : String) : HasNoBlankEnds (textAfter k s) := by
  refine Chars.not_isBlank_of_mem_trim ?_
  rw [← toList_trim, trim_textAfter]

/-- The words of what follows the first `k` words are the other words. -/
theorem words_textAfter_eq (k : Nat) (s : String) : words (textAfter k s) = (words s).drop k := by
  obtain ⟨-, -, -, hdrop⟩ := Chars.exists_skipWords_append k s.toList
  rw [words, textAfter, String.toList_ofList, Chars.words_trimEnd, hdrop, words, List.map_drop]

/-- What follows the first `k` words is a piece of the line: in front of it stand these words, and
behind it only blanks. -/
theorem exists_textAfter_append (k : Nat) (s : String) :
    ∃ before behind, s = before ++ textAfter k s ++ behind ∧ words before = (words s).take k
      ∧ isAllBlank behind = true := by
  obtain ⟨before, happend, htake, -⟩ := Chars.exists_skipWords_append k s.toList
  obtain ⟨behind, hbehind, hblank⟩ := Chars.exists_trimEnd_append (Chars.skipWords k s.toList)
  refine ⟨String.ofList before, String.ofList behind, ?_, ?_, ?_⟩
  · apply String.toList_inj.1
    rw [textAfter, ← String.ofList_append, ← String.ofList_append, String.toList_ofList,
      List.append_assoc, ← hbehind]
    exact happend
  · rw [words, String.toList_ofList, htake, words, List.map_take]
  · rw [isAllBlank, String.toList_ofList]
    exact List.all_eq_true.2 hblank

/-- The blanks inside are kept. -/
example : textAfter 3 "access-list ACL remark allow  web" = "allow  web" := by decide +kernel

theorem textAfter_eq_empty_iff (k : Nat) (s : String) :
    textAfter k s = "" ↔ (words s).length ≤ k := by
  rw [← List.drop_eq_nil_iff, ← words_textAfter_eq]
  constructor
  · intro h
    rw [h]
    rfl
  · intro h
    have hnil : Chars.words (textAfter k s).toList = [] := List.map_eq_nil_iff.1 h
    have hstart := Chars.trimStart_of_words_eq_nil hnil
    rw [← trim_textAfter]
    apply String.toList_inj.1
    rw [toList_trim, Chars.trim, hstart]
    rfl

/-- **The words of a line and its free text stay aligned**: what follows the first `k` words is a
piece of the line with the other words in it, it stands behind these words and in front of blanks, it
has no blank at either end, and it is empty just when the line has no more than `k` words. -/
theorem textAfter_aligned (s : String) (k : Nat) :
    words (textAfter k s) = (words s).drop k
      ∧ (∃ before behind, s = before ++ textAfter k s ++ behind ∧ words before = (words s).take k
          ∧ isAllBlank behind = true)
      ∧ HasNoBlankEnds (textAfter k s)
      ∧ (textAfter k s = "" ↔ (words s).length ≤ k) :=
  ⟨words_textAfter_eq k s, exists_textAfter_append k s, hasNoBlankEnds_textAfter k s,
    textAfter_eq_empty_iff k s⟩

end Text

end FirewallConfig
