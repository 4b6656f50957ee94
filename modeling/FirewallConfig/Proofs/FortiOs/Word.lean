import FirewallConfig.FortiOs.Word
import FirewallConfig.Proofs.Text.Blank
import FirewallConfig.Proofs.Text.OneLine

/-!
# Proofs/FortiOs/Word — the words of a line are read back

A value that is quoted, or bare and free of blanks and quotes, is one word, and it is read back as
it was (`splitWords_spellings`).  A bare value may hold anything: what is read of it then is
`readValues`, and the words in front of it are not disturbed (`splitWords_trim_unwords_cons`).
-/

namespace FirewallConfig.FortiOs

/-! ## What the reader of words does with a piece -/

/-- The characters make one word as they stand. -/
def IsBareWord (cs : List Char) : Prop := cs ≠ [] ∧ ∀ c ∈ cs, isBlank c = false ∧ c ≠ '"'

instance (cs : List Char) : Decidable (IsBareWord cs) :=
  decidable_of_iff ((!cs.isEmpty && cs.all fun c => !isBlank c && c != '"') = true)
    (by simp [IsBareWord])

/-- No word goes on here: what follows is a blank, or nothing. -/
def EndsWord (rest : List Char) : Prop := ∀ c ∈ rest.head?, isBlank c = true

theorem endsWord_nil : EndsWord [] := nofun

theorem endsWord_blank (rest : List Char) : EndsWord (' ' :: rest) := by
  rintro c ⟨⟩
  decide

/-- A blank between words is passed over. -/
theorem wordsFrom_blank {c : Char} (hc : isBlank c = true) (cs : List Char) :
    wordsFrom [] false false (c :: cs) = wordsFrom [] false false cs := by
  have hquote : c ≠ '"' := by
    rintro rfl
    revert hc
    decide
  rw [wordsFrom.eq_def]
  simp [hc, hquote]

theorem wordsFrom_trimStart (cs : List Char) :
    wordsFrom [] false false (Chars.trimStart cs) = wordsFrom [] false false cs := by
  induction cs with
  | nil => rfl
  | cons c cs ih =>
    cases hc : isBlank c with
    | false => rw [Chars.trimStart_of_not_blank hc]
    | true => rw [Chars.trimStart_of_blank hc, ih, wordsFrom_blank hc]

/-- Characters of a word that stand as they are. -/
theorem wordsFrom_plain_append {w : List Char} (hw : ∀ c ∈ w, isBlank c = false ∧ c ≠ '"')
    (opened : List Char) (hadQuotes : Bool) (rest : List Char) :
    wordsFrom opened hadQuotes false (w ++ rest)
      = wordsFrom (w.reverse ++ opened) hadQuotes false rest := by
  induction w generalizing opened with
  | nil => rfl
  | cons c w ih =>
    obtain ⟨⟨hblank, hquote⟩, hw⟩ := List.forall_mem_cons.1 hw
    rw [List.cons_append, wordsFrom.eq_def]
    simp only [Bool.false_and, Bool.false_eq_true, if_false, beq_iff_eq, if_neg hquote, hblank]
    rw [ih hw, List.reverse_cons, List.append_assoc]
    rfl

/-- What stands between quotes. -/
theorem wordsFrom_escape_append (cs opened : List Char) (hadQuotes : Bool) (rest : List Char) :
    wordsFrom opened hadQuotes true (escape cs ++ rest)
      = wordsFrom (cs.reverse ++ opened) hadQuotes true rest := by
  induction cs generalizing opened with
  | nil => rfl
  | cons c cs ih =>
    rw [List.reverse_cons, List.append_assoc]
    refine Eq.trans ?_ (ih (c :: opened))
    rw [escape, List.flatMap_cons, ← escape]
    by_cases hc : (c == '"' || c == '\\') = true
    · rw [if_pos hc, List.cons_append, List.cons_append, wordsFrom.eq_def]
      simp
    · rw [if_neg hc, List.cons_append, List.nil_append, List.cons_append, wordsFrom.eq_def]
      simp only [Bool.or_eq_true, beq_iff_eq, not_or] at hc
      simp [hc]

/-- A word ends. -/
theorem wordsFrom_of_endsWord {rest : List Char} (hrest : EndsWord rest) {opened : List Char}
    {hadQuotes : Bool} (hopen : (opened.isEmpty && !hadQuotes) = false) :
    wordsFrom opened hadQuotes false rest = opened.reverse :: wordsFrom [] false false rest := by
  cases rest with
  | nil =>
    have hnil : wordsFrom [] false false [] = [] := rfl
    rw [wordsFrom.eq_def, hnil]
    simp [hopen]
  | cons c cs =>
    have hc : isBlank c = true := hrest c rfl
    have hquote : c ≠ '"' := by
      rintro rfl
      revert hc
      decide
    rw [wordsFrom_blank hc, wordsFrom.eq_def]
    simp [hc, hquote, hopen]

/-! ## Values -/

namespace Value

/-- What a value says. -/
def text : Value → String
  | .bare text => text
  | .quoted text => text

/-- The value is written as one word. -/
def IsWord : Value → Prop
  | .bare text => IsBareWord text.toList
  | .quoted _ => True

instance (v : Value) : Decidable v.IsWord :=
  match v with
  | .bare text => inferInstanceAs (Decidable (IsBareWord text.toList))
  | .quoted _ => inferInstanceAs (Decidable True)

theorem isWord_number (n : Nat) : (number n).IsWord := by
  have hlist : (toString n).toList = Nat.toDigits 10 n := Nat.toList_repr
  rw [number, IsWord, hlist]
  refine ⟨Nat.toDigits_ne_nil, fun c hc => ?_⟩
  have hdigit := Nat.isDigit_of_mem_toDigits (by decide) (by decide) hc
  refine ⟨not_isBlank_of_isDigit hdigit, ?_⟩
  rintro rfl
  revert hdigit
  decide

variable {v : Value}

theorem solid_spelling (hv : v.IsWord) : Chars.Solid v.spelling.toList := by
  cases v with
  | bare text => exact Chars.solid_of_forall hv.1 fun c hc => (hv.2 c hc).1
  | quoted text =>
    rw [spelling, FortiOs.quoted, String.toList_ofList]
    exact Chars.solid_cons_append (by decide) (by decide) _

/-- **A value that is one word is read as that word.** -/
theorem wordsFrom_spelling_append (hv : v.IsWord) {rest : List Char} (hrest : EndsWord rest) :
    wordsFrom [] false false (v.spelling.toList ++ rest)
      = v.text.toList :: wordsFrom [] false false rest := by
  cases v with
  | bare text =>
    have hopen : (text.toList.reverse.isEmpty && !false) = false := by simpa using hv.1
    rw [spelling, wordsFrom_plain_append hv.2, List.append_nil, wordsFrom_of_endsWord hrest hopen,
      List.reverse_reverse]
    rfl
  | quoted text =>
    have hopening (cs : List Char) :
        wordsFrom [] false false ('"' :: cs) = wordsFrom [] true true cs := by
      rw [wordsFrom.eq_def]
      rfl
    have hclosing (opened cs : List Char) :
        wordsFrom opened true true ('"' :: cs) = wordsFrom opened true false cs := by
      rw [wordsFrom.eq_def]
      rfl
    rw [spelling, FortiOs.quoted, String.toList_ofList, List.cons_append, List.append_assoc,
      hopening, wordsFrom_escape_append, List.append_nil, List.singleton_append, hclosing,
      wordsFrom_of_endsWord hrest (by simp), List.reverse_reverse]
    rfl

end Value

/-! ## The words of a line -/

/-- What is read of values that are written next to each other. -/
def readValues (vs : List Value) : List String :=
  splitWords (Text.trim (Text.unwords (vs.map Value.spelling)))

@[simp] theorem readValues_nil : readValues [] = [] := by
  rw [readValues, List.map_nil, Text.unwords, String.intercalate_nil]
  rfl

/-- **A word at the beginning is read as it is**, whatever follows it. -/
theorem splitWords_trim_unwords_cons {v : Value} (hv : v.IsWord) (ts : List String) :
    splitWords (Text.trim (Text.unwords (v.spelling :: ts)))
      = v.text :: splitWords (Text.trim (Text.unwords ts)) := by
  cases ts with
  | nil =>
    have hnil : splitWords (Text.trim (Text.unwords [])) = [] := readValues_nil
    have hword := Value.wordsFrom_spelling_append hv endsWord_nil
    rw [List.append_nil] at hword
    rw [hnil, Text.unwords, String.intercalate_singleton, splitWords, Text.toList_trim,
      (Value.solid_spelling hv).trim_eq, hword, List.map_cons, String.ofList_toList]
    rfl
  | cons t ts =>
    have hlist : (Text.unwords (v.spelling :: t :: ts)).toList
        = v.spelling.toList ++ ' ' :: (Text.unwords (t :: ts)).toList := by
      rw [Text.unwords, String.intercalate_cons_cons, String.toList_append, String.toList_append,
        List.append_assoc]
      rfl
    generalize Text.unwords (t :: ts) = line at hlist ⊢
    -- What follows the word begins with the blank that ends it, or is nothing at all.
    have hends : EndsWord (Chars.trimEnd (' ' :: line.toList)) := by
      rw [Chars.trimEnd_cons]
      split
      · exact endsWord_nil
      · exact endsWord_blank _
    have hrest : wordsFrom [] false false (Chars.trimEnd (' ' :: line.toList))
        = wordsFrom [] false false (Chars.trim line.toList) := by
      rw [← wordsFrom_trimStart, Chars.trimStart_trimEnd, Chars.trim,
        Chars.trimStart_of_blank (by decide), ← Chars.trim]
    rw [splitWords, Text.toList_trim, hlist, (Value.solid_spelling hv).trim_append,
      Value.wordsFrom_spelling_append hv hends, hrest, List.map_cons, String.ofList_toList,
      splitWords, Text.toList_trim]

/-- **Words are read back as they were written.** -/
theorem readValues_eq {vs : List Value} (hvs : ∀ v ∈ vs, v.IsWord) :
    readValues vs = vs.map Value.text := by
  induction vs with
  | nil => exact readValues_nil
  | cons v vs ih =>
    obtain ⟨hv, hvs⟩ := List.forall_mem_cons.1 hvs
    rw [readValues, List.map_cons, splitWords_trim_unwords_cons hv, ← readValues, ih hvs,
      List.map_cons]

@[simp] theorem readValues_quoted (ts : List String) : readValues (ts.map .quoted) = ts := by
  have hwords : ∀ v ∈ ts.map Value.quoted, v.IsWord := by
    intro v hv
    obtain ⟨t, -, rfl⟩ := List.mem_map.1 hv
    exact trivial
  rw [readValues_eq hwords, List.map_map]
  exact List.map_id ts

end FirewallConfig.FortiOs
