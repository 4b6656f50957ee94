import FirewallConfig.Proofs.Text.OneLine
import FirewallConfig.Proofs.Text.Words

/-!
# Proofs/Text/Case — texts in small letters

Only letters have a case, so a text keeps its words and its slashes in small letters.
-/

namespace FirewallConfig

namespace Chars

theorem toLower_toLower (c : Char) : c.toLower.toLower = c.toLower := by
  have hnat := toNat_toLower c
  refine Char.toNat_inj.1 ((toNat_toLower c.toLower).trans (if_neg ?_))
  rw [hnat]
  split <;> omega

@[simp] theorem isBlank_toLower (c : Char) : isBlank c.toLower = isBlank c := by
  by_cases hcase : 65 ≤ c.toNat ∧ c.toNat ≤ 90
  · have hnat : c.toLower.toNat = c.toNat + 32 := by rw [toNat_toLower, if_pos hcase]
    have hsmall : isBlank c.toLower = false := by
      simp only [isBlank, hnat, Bool.or_eq_false_iff, Bool.and_eq_false_iff,
        decide_eq_false_iff_not, beq_eq_false_iff_ne]
      omega
    have hcapital : isBlank c = false := by
      simp only [isBlank, Bool.or_eq_false_iff, Bool.and_eq_false_iff, decide_eq_false_iff_not,
        beq_eq_false_iff_ne]
      omega
    rw [hsmall, hcapital]
  · have hsame : c.toLower = c := Char.toNat_inj.1 (by rw [toNat_toLower, if_neg hcase])
    rw [hsame]

theorem trimEnd_map_toLower (cs : List Char) :
    trimEnd (cs.map Char.toLower) = (trimEnd cs).map Char.toLower := by
  induction cs with
  | nil => rfl
  | cons c cs ih =>
    rw [List.map_cons, trimEnd_cons, ih, trimEnd_cons, List.isEmpty_map, isBlank_toLower]
    split
    · rfl
    · rfl

/-- Small letters are trimmed as the letters they come from. -/
theorem trim_map_toLower (cs : List Char) :
    trim (cs.map Char.toLower) = (trim cs).map Char.toLower := by
  have hstart : trimStart (cs.map Char.toLower) = (trimStart cs).map Char.toLower := by
    rw [trimStart, List.dropWhile_map, trimStart]
    congr 2
    exact funext isBlank_toLower
  rw [trim, hstart, trimEnd_map_toLower, trim]

theorem toLower_eq_slash_iff {c : Char} : c.toLower = '/' ↔ c = '/' := by
  have hslash : '/'.toNat = 47 := rfl
  rw [← Char.toNat_inj, ← Char.toNat_inj, toNat_toLower, hslash]
  split
  · next h => exact iff_of_false (by omega) (by omega)
  · exact Iff.rfl

end Chars

namespace Text

theorem toList_lower (s : String) : (lower s).toList = s.toList.map Char.toLower := by
  rw [lower, String.toList_ofList]

@[simp] theorem lower_lower (s : String) : lower (lower s) = lower s := by
  apply String.toList_inj.1
  rw [toList_lower, toList_lower, List.map_map]
  exact List.map_congr_left fun c _ => Chars.toLower_toLower c

theorem trim_lower (s : String) : trim (lower s) = lower (trim s) := by
  apply String.toList_inj.1
  rw [toList_trim, toList_lower, Chars.trim_map_toLower, toList_lower, toList_trim]

theorem lower_append (s t : String) : lower (s ++ t) = lower s ++ lower t := by
  apply String.toList_inj.1
  rw [toList_lower, String.toList_append, List.map_append, String.toList_append, toList_lower,
    toList_lower]

theorem IsWord.lower {s : String} (h : IsWord s) : IsWord (Text.lower s) := by
  rw [IsWord, toList_lower]
  exact ⟨mt List.map_eq_nil_iff.1 h.1,
    List.forall_mem_map.2 fun c hc => (Chars.isBlank_toLower c).trans (h.2 c hc)⟩

theorem slash_mem_lower {s : String} : '/' ∈ (lower s).toList ↔ '/' ∈ s.toList := by
  rw [toList_lower, List.mem_map]
  exact ⟨fun ⟨c, hc, h⟩ => Chars.toLower_eq_slash_iff.1 h ▸ hc, fun h => ⟨'/', h, rfl⟩⟩

end Text

end FirewallConfig
