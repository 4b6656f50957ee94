/-!
# Text/Control — characters that steer a terminal

A terminal does not show every character: some ring, move what follows, or begin a command to it.
In a text from outside they are spelled out, so that they are shown and not obeyed.  Tabs and ends
of lines are left as they are.
-/

namespace FirewallConfig

namespace Chars

/-- The character steers a terminal: bell, backspace, form feed, escape, delete, or one of the
controls beyond ASCII. -/
def steers (c : Char) : Bool :=
  ['\x07', '\x08', '\x0c', '\x1b', '\x7f'].contains c || (0x80 ≤ c.toNat && c.toNat ≤ 0x9f)

/-- The spelling of a character that steers a terminal, by its code point.  Any other character
stays. -/
def spellControl (c : Char) : List Char :=
  let digits := [(c.toNat / 16).digitChar, (c.toNat % 16).digitChar]
  if steers c then
    if c.toNat < 0x80 then '\\' :: 'x' :: digits else '\\' :: 'u' :: '\x7b' :: digits ++ ['\x7d']
  else [c]

theorem spellControl_of_not_steers {c : Char} (hc : steers c = false) : spellControl c = [c] := by
  simp [spellControl, hc]

/-- Two hexadecimal digits spell the code point of what steers a terminal. -/
theorem toNat_lt_of_steers {c : Char} (hc : steers c = true) : c.toNat < 0x100 := by
  simp only [steers, List.contains_eq_mem, List.mem_cons, List.not_mem_nil, or_false,
    Bool.or_eq_true, Bool.and_eq_true, decide_eq_true_eq] at hc
  rcases hc with (rfl | rfl | rfl | rfl | rfl) | hc <;> first | decide | omega

/-- No hexadecimal digit steers a terminal. -/
theorem steers_digitChar {n : Nat} (hn : n < 16) : steers n.digitChar = false := by
  revert n
  decide

/-- Nothing in a spelling steers a terminal. -/
theorem steers_of_mem_spellControl {c d : Char} (hd : d ∈ spellControl c) : steers d = false := by
  cases hc : steers c with
  | false =>
    rw [spellControl_of_not_steers hc, List.mem_singleton] at hd
    rw [hd, hc]
  | true =>
    have h := toNat_lt_of_steers hc
    simp only [spellControl, hc, if_true] at hd
    split at hd
    · simp only [List.mem_cons, List.not_mem_nil, or_false] at hd
      rcases hd with rfl | rfl | rfl | rfl <;> first | exact steers_digitChar (by omega) | decide
    · simp only [List.cons_append, List.nil_append, List.mem_cons, List.not_mem_nil, or_false] at hd
      rcases hd with rfl | rfl | rfl | rfl | rfl | rfl <;>
        first | exact steers_digitChar (by omega) | decide

end Chars

/-- The text with every character spelled out that steers a terminal. -/
def Text.spellControls (s : String) : String := String.ofList (s.toList.flatMap Chars.spellControl)

end FirewallConfig
