import FirewallConfig.Text.Cut

/-!
# Report/Ink — coloured text for a terminal

A painted text stands between an escape sequence that turns a style on and the one that turns every
style off.  Where the text itself turns styles off, the style is taken up again right after.
-/

namespace FirewallConfig

/-- A style of terminal text. -/
inductive Ink where
  | green
  | cyan
  | red
  | yellow
  | bold
  | dimmed
deriving DecidableEq, Repr

namespace Ink

/-- The number of the style in an escape sequence. -/
def code : Ink → String
  | .green => "32"
  | .cyan => "36"
  | .red => "31"
  | .yellow => "33"
  | .bold => "1"
  | .dimmed => "2"

/-- The escape sequence with a number. -/
def sequence (code : String) : String := "\x1b[" ++ code ++ "m"

/-- Turns every style off. -/
def reset : String := sequence "0"

/-- Puts `added` before every place where `p` begins. -/
def insertBefore (p added : List Char) : List Char → List Char
  | [] => []
  | c :: cs =>
    if (Chars.withoutPrefix p (c :: cs)).isSome then added ++ c :: insertBefore p added cs
    else c :: insertBefore p added cs

/-- Puts `style` after every sequence inside a text that turns the styles off. -/
def resume (style s : String) : String :=
  String.ofList
    (insertBefore reset.toList.reverse style.toList.reverse s.toList.reverse).reverse

/-- Paints a text, if colours are on. -/
def paint (ink : Ink) (colours : Bool) (s : String) : String :=
  if colours then sequence ink.code ++ resume (sequence ink.code) s ++ reset else s

end Ink

end FirewallConfig
