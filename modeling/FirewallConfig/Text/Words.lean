import FirewallConfig.Text.Blank

/-!
# Text/Words — the words of a line, and the text that follows them

Words are the maximal runs of characters that are not blank.  `textAfter k` is the rest of a line
once its first `k` words are passed, with its inner spacing kept: what a remark or a description
holds.
-/

namespace FirewallConfig

namespace Chars

/-- The words of `cs`, where `opened` is the part of the first word that has been read already,
back to front. -/
def wordsFrom (opened : List Char) : List Char → List (List Char)
  | [] => if opened.isEmpty then [] else [opened.reverse]
  | c :: cs =>
    if isBlank c then
      if opened.isEmpty then wordsFrom [] cs else opened.reverse :: wordsFrom [] cs
    else wordsFrom (c :: opened) cs

/-- The words of a list of characters. -/
def words (cs : List Char) : List (List Char) := wordsFrom [] cs

/-- What is left of `cs` from the first blank on; empty if there is none. -/
def afterWord (cs : List Char) : List Char := cs.dropWhile fun c => !isBlank c

/-- What is left of `cs` after `k` words and the blanks around them. -/
def skipWords : Nat → List Char → List Char
  | 0, cs => trimStart cs
  | k + 1, cs => skipWords k (afterWord (trimStart cs))

end Chars

namespace Text

/-- The words of a text. -/
def words (s : String) : List String := (Chars.words s.toList).map String.ofList

/-- The text that follows the first `k` words of a line, without the blanks at its ends. -/
def textAfter (k : Nat) (s : String) : String :=
  String.ofList (Chars.trimEnd (Chars.skipWords k s.toList))

end Text

end FirewallConfig
