/-!
# Text/Case — letter case

Only the letters `A` to `Z` have a case here: keywords and names of every dialect are compared and
folded in ASCII, and any other character is left as it is.
-/

namespace FirewallConfig.Text

/-- The text with `A` to `Z` made small. -/
def lower (s : String) : String := String.ofList (s.toList.map Char.toLower)

/-- The text with `a` to `z` made large. -/
def upper (s : String) : String := String.ofList (s.toList.map Char.toUpper)

/-- The texts differ at most in the case of ASCII letters. -/
def sameIgnoringCase (s t : String) : Bool := lower s == lower t

end FirewallConfig.Text
