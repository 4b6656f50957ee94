import FirewallConfig.Proofs.Text.Words
import FirewallConfig.Text.Case
import FirewallConfig.Text.Numeral

/-!
# Proofs/Text/Numeral — numerals that are written are read back

A number is written in decimal digits, without a sign and without leading zeros, and each width
reads back the numbers that fit it.  A text that is read as a number is a word of digits and plus
signs (`IsNumeral`).
-/

namespace FirewallConfig

namespace Chars

/-- Digits are read as the number that they denote. -/
theorem digitsFrom_eq {cs : List Char} (h : ∀ c ∈ cs, c.isDigit = true) (n : Nat) :
    digitsFrom n cs = some (Nat.ofDigitChars 10 cs n) := by
  induction cs generalizing n with
  | nil => rw [digitsFrom, Nat.ofDigitChars_nil]
  | cons c cs ih =>
    obtain ⟨hc, hcs⟩ := List.forall_mem_cons.1 h
    rw [digitsFrom, if_pos hc, ih hcs, Nat.ofDigitChars_cons]

theorem numeral_eq {cs : List Char} (hne : cs ≠ []) (h : ∀ c ∈ cs, c.isDigit = true) :
    numeral cs = some (Nat.ofDigitChars 10 cs 0) := by
  obtain ⟨c, ds, rfl⟩ := List.exists_cons_of_ne_nil hne
  have hplus : c ≠ '+' := by
    rintro rfl
    exact absurd (h _ List.mem_cons_self) (by decide)
  unfold numeral
  split
  · next heq => exact absurd (List.cons.inj heq).1 hplus
  · exact digitsFrom_eq h 0

/-- The character may stand in a numeral. -/
def isNumeric (c : Char) : Bool := c.isDigit || c == '+'

theorem isDigit_of_digitsFrom {cs : List Char} {n m : Nat} (h : digitsFrom n cs = some m) :
    ∀ c ∈ cs, c.isDigit = true := by
  induction cs generalizing n with
  | nil => exact List.forall_mem_nil _
  | cons c cs ih =>
    rw [digitsFrom] at h
    split at h
    · next hc => exact List.forall_mem_cons.2 ⟨hc, ih h⟩
    · cases h

theorem isDigit_of_digits {cs : List Char} {n : Nat} (h : digits cs = some n) :
    cs ≠ [] ∧ ∀ c ∈ cs, c.isDigit = true := by
  cases cs with
  | nil => cases h
  | cons c cs => exact ⟨List.cons_ne_nil c cs, isDigit_of_digitsFrom h⟩

/-- What is read as a number is not empty and holds digits and plus signs only. -/
theorem isNumeric_of_numeral {cs : List Char} {n : Nat} (h : numeral cs = some n) :
    cs ≠ [] ∧ ∀ c ∈ cs, isNumeric c = true := by
  have hdigit {cs : List Char} (h : ∀ c ∈ cs, c.isDigit = true) : ∀ c ∈ cs, isNumeric c = true :=
    fun c hc => by rw [isNumeric, h c hc, Bool.true_or]
  unfold numeral at h
  split at h
  · exact ⟨List.cons_ne_nil _ _,
      List.forall_mem_cons.2 ⟨by decide, hdigit (isDigit_of_digits h).2⟩⟩
  · exact ⟨(isDigit_of_digits h).1, hdigit (isDigit_of_digits h).2⟩

theorem not_isBlank_of_isNumeric {c : Char} (hc : isNumeric c = true) : isBlank c = false := by
  rcases Bool.or_eq_true_iff.1 hc with h | h
  · exact not_isBlank_of_isDigit h
  · rw [beq_iff_eq.1 h]
    decide

/-- What may stand in a numeral has no case. -/
theorem toLower_of_isNumeric {c : Char} (hc : isNumeric c = true) : c.toLower = c := by
  rcases Bool.or_eq_true_iff.1 hc with h | h
  · have hhigh : c.toNat ≤ 57 := by
      simpa [Char.isDigit, UInt32.le_iff_toNat_le] using (Bool.and_eq_true_iff.1 h).2
    apply Char.toNat_inj.1
    rw [Chars.toNat_toLower, if_neg (by omega)]
  · rw [beq_iff_eq.1 h]
    rfl

end Chars

namespace Text

/-- **A written number is read back**, below any bound that it keeps. -/
theorem numeralBelow_toString {bound n : Nat} (h : n < bound) :
    numeralBelow bound (toString n) = some n := by
  have hlist : (toString n).toList = Nat.toDigits 10 n := Nat.toList_repr
  have hdigits : ∀ c ∈ Nat.toDigits 10 n, c.isDigit = true := fun c hc =>
    Nat.isDigit_of_mem_toDigits (by decide) (by decide) hc
  rw [numeralBelow, hlist, Chars.numeral_eq Nat.toDigits_ne_nil hdigits,
    Nat.ofDigitChars_ten_toDigits]
  simp [h]

theorem readUInt32_toString {n : Nat} (h : n < UInt32.size) :
    readUInt32 (toString n) = some (UInt32.ofNat n) := by
  rw [readUInt32, numeralBelow_toString h, Option.map_some]

theorem readUInt8_toString (n : UInt8) : readUInt8 (toString n) = some n := by
  have hlist : toString n = toString n.toNat := rfl
  rw [readUInt8, hlist, numeralBelow_toString n.toNat_lt, Option.map_some, UInt8.ofNat_toNat]

theorem readUInt16_toString (n : UInt16) : readUInt16 (toString n) = some n := by
  have hlist : toString n = toString n.toNat := rfl
  rw [readUInt16, hlist, numeralBelow_toString n.toNat_lt, Option.map_some, UInt16.ofNat_toNat]

/-- Different numbers are written differently. -/
theorem toString_nat_injective : Function.Injective (toString : Nat → String) := fun n m h => by
  have hn : n < max n m + 1 := Nat.lt_succ_of_le (Nat.le_max_left n m)
  have hm : m < max n m + 1 := Nat.lt_succ_of_le (Nat.le_max_right n m)
  exact Option.some.inj ((numeralBelow_toString hn).symm.trans (h ▸ numeralBelow_toString hm))

/-! ## Texts that are read as numbers -/

/-- The text is made of digits and plus signs. -/
def IsNumeral (s : String) : Prop := s.toList ≠ [] ∧ ∀ c ∈ s.toList, Chars.isNumeric c = true

theorem isNumeral_of_numeralBelow {bound : Nat} {s : String} {n : Nat}
    (h : numeralBelow bound s = some n) : IsNumeral s :=
  Chars.isNumeric_of_numeral (Option.filter_eq_some_iff.1 h).1

theorem isNumeral_toString (n : Nat) : IsNumeral (toString n) :=
  isNumeral_of_numeralBelow (numeralBelow_toString (Nat.lt_succ_self n))

namespace IsNumeral

variable {s : String} (h : IsNumeral s)
include h

theorem isWord : IsWord s := ⟨h.1, fun c hc => Chars.not_isBlank_of_isNumeric (h.2 c hc)⟩

/-- A numeral does not hold what is no numeric character. -/
theorem not_mem {c : Char} (hc : Chars.isNumeric c = false) : c ∉ s.toList := fun hmem =>
  absurd (h.2 c hmem) (by rw [hc]; exact Bool.false_ne_true)

/-- A numeral has no case. -/
theorem lower_eq : lower s = s := by
  have hmap : s.toList.map Char.toLower = s.toList.map id :=
    List.map_congr_left fun c hc => Chars.toLower_of_isNumeric (h.2 c hc)
  rw [lower, hmap, List.map_id, String.ofList_toList]

end IsNumeral

end Text

end FirewallConfig
