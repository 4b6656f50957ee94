/-!
# Text/Numeral — numerals of bounded numbers

A numeral is one or more decimal digits, with any number of leading zeros and at most one plus sign
in front.  Each width has its own reader, which refuses a number that does not fit.  Hexadecimal
digits, of either case, are read for the code points of characters.
-/

namespace FirewallConfig

namespace Chars

/-- The number that decimal digits continue, `n` being the number read so far. -/
def digitsFrom (n : Nat) : List Char → Option Nat
  | [] => some n
  | c :: cs => if c.isDigit then digitsFrom (10 * n + (c.toNat - '0'.toNat)) cs else none

/-- The number that one or more decimal digits denote. -/
def digits : List Char → Option Nat
  | [] => none
  | cs => digitsFrom 0 cs

/-- The number that a numeral denotes. -/
def numeral : List Char → Option Nat
  | '+' :: cs => digits cs
  | cs => digits cs

/-- The value of a hexadecimal digit. -/
def hexValue? (c : Char) : Option Nat :=
  if c.isDigit then some (c.toNat - '0'.toNat)
  else if 'a' ≤ c ∧ c ≤ 'f' then some (c.toNat - 'a'.toNat + 10)
  else if 'A' ≤ c ∧ c ≤ 'F' then some (c.toNat - 'A'.toNat + 10)
  else none

/-- The number that hexadecimal digits continue, `n` being the number read so far. -/
def hexFrom (n : Nat) : List Char → Option Nat
  | [] => some n
  | c :: cs => (hexValue? c).bind fun d => hexFrom (16 * n + d) cs

/-- The number that one or more hexadecimal digits denote. -/
def hexNumber : List Char → Option Nat
  | [] => none
  | cs => hexFrom 0 cs

/-- The character of a code point. -/
def ofCodePoint? (n : Nat) : Option Char :=
  if n.isValidChar then some (Char.ofNat n) else none

end Chars

namespace Text

/-- The number that a text denotes, if it lies below `bound`. -/
def numeralBelow (bound : Nat) (s : String) : Option Nat :=
  (Chars.numeral s.toList).filter (· < bound)

/-- Reads a number of 8 bits. -/
def readUInt8 (s : String) : Option UInt8 := (numeralBelow UInt8.size s).map UInt8.ofNat

/-- Reads a number of 16 bits. -/
def readUInt16 (s : String) : Option UInt16 := (numeralBelow UInt16.size s).map UInt16.ofNat

/-- Reads a number of 32 bits. -/
def readUInt32 (s : String) : Option UInt32 := (numeralBelow UInt32.size s).map UInt32.ofNat

end Text

end FirewallConfig
