/-!
# Text/Lines — the lines of a text

A line ends at a line feed, and a carriage return right before the line feed belongs to the end of
the line.  A last line without a line feed counts; an empty one does not.  `unlines` is the inverse
direction: every line is written with a line feed after it.
-/

namespace FirewallConfig

namespace Chars

/-- Drops the carriage return that a line feed follows.  The line is given back to front, so that
its last character comes first. -/
def dropReturn : List Char → List Char
  | '\r' :: cs => cs
  | cs => cs

/-- The lines of `cs`, where `opened` is the part of the first line that has been read already,
back to front. -/
def linesFrom (opened : List Char) : List Char → List (List Char)
  | [] => if opened.isEmpty then [] else [opened.reverse]
  | c :: cs =>
    if c = '\n' then (dropReturn opened).reverse :: linesFrom [] cs
    else linesFrom (c :: opened) cs

/-- The lines of a list of characters. -/
def lines (cs : List Char) : List (List Char) := linesFrom [] cs

@[simp] theorem lines_nil : lines [] = [] := rfl

/-- Reading past the characters of one line. -/
theorem linesFrom_append {l : List Char} (hl : '\n' ∉ l) (opened rest : List Char) :
    linesFrom opened (l ++ '\n' :: rest)
      = (dropReturn (l.reverse ++ opened)).reverse :: lines rest := by
  induction l generalizing opened with
  | nil => simp [linesFrom, lines]
  | cons c cs ih =>
    have hc : ¬ c = '\n' := fun h => hl (by simp [h])
    have hcs : '\n' ∉ cs := fun h => hl (by simp [h])
    rw [List.cons_append, linesFrom, if_neg hc, ih hcs]
    simp

/-- **A text that begins with a whole line** has that line first and the rest's lines after it. -/
theorem lines_append {l : List Char} (hl : '\n' ∉ l) (rest : List Char) :
    lines (l ++ '\n' :: rest) = (dropReturn l.reverse).reverse :: lines rest := by
  rw [lines, linesFrom_append hl, List.append_nil]

end Chars

namespace Text

/-- The lines of a text. -/
def lines (s : String) : List String := (Chars.lines s.toList).map String.ofList

/-- The text in which every line is followed by a line feed. -/
def unlines (ls : List String) : String := String.join (ls.map (· ++ "\n"))

@[simp] theorem unlines_nil : unlines [] = "" := by simp [unlines]

theorem toList_unlines_cons (l : String) (ls : List String) :
    (unlines (l :: ls)).toList = l.toList ++ '\n' :: (unlines ls).toList := by
  simp [unlines]

/-- **Written lines are read back**, when no line holds a line feed and none ends in a carriage
return. -/
theorem lines_unlines {ls : List String} (hls : ∀ l ∈ ls, '\n' ∉ l.toList)
    (hr : ∀ l ∈ ls, Chars.dropReturn l.toList.reverse = l.toList.reverse) :
    lines (unlines ls) = ls := by
  induction ls with
  | nil => simp [lines]
  | cons l ls ih =>
    have ih := ih (fun m hm => hls m (by simp [hm])) (fun m hm => hr m (by simp [hm]))
    rw [lines, toList_unlines_cons, Chars.lines_append (hls l (by simp)), hr l (by simp)]
    simpa [lines] using ih

end Text

end FirewallConfig
