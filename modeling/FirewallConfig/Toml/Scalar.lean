import FirewallConfig.Text.Cut
import FirewallConfig.Text.Numeral
import FirewallConfig.Toml.Value

/-!
# Toml/Scalar — numbers, truth values and times

A scalar other than a text is one run of characters.  Underscores may stand between two digits.
-/

namespace FirewallConfig.Toml

/-! ## Digits -/

/-- The character is a digit to the base. -/
def isDigitOf (base : Nat) (c : Char) : Bool := (Chars.hexValue? c).any (· < base)

/-- Digits to the base, where single underscores may stand between two of them. -/
def isDigitRun (base : Nat) (cs : List Char) : Bool :=
  (cs.splitOn '_').all fun piece => !piece.isEmpty && piece.all (isDigitOf base)

/-- The number that digits to the base denote. -/
def numberOf (base : Nat) (cs : List Char) : Nat :=
  (cs.filterMap Chars.hexValue?).foldl (fun n d => base * n + d) 0

/-- A number with its sign. -/
def signed (negative : Bool) (n : Nat) : Int := if negative then -n else n

/-- A number of digits that stand alone. -/
def isFixed (width : Nat) (cs : List Char) : Bool :=
  cs.length == width && cs.all Char.isDigit

/-! ## Integers -/

/-- Takes a sign off: the number is negative, and what follows. -/
def takeSign : List Char → Bool × List Char
  | '+' :: cs => (false, cs)
  | '-' :: cs => (true, cs)
  | cs => (false, cs)

/-- Decimal digits without a leading zero, unless it stands alone. -/
def isDecimal (cs : List Char) : Bool :=
  isDigitRun 10 cs && (cs.head? != some '0' || cs.length == 1)

/-- A number that 64 bits hold. -/
def bounded (n : Int) : Option Value :=
  if -9223372036854775808 ≤ n ∧ n ≤ 9223372036854775807 then some (.integer n) else none

/-- Reads digits to the base. -/
def readBase (base : Nat) (cs : List Char) : Option Value :=
  if isDigitRun base cs then bounded (numberOf base cs) else none

/-- Reads an integer. -/
def readInteger : List Char → Option Value
  | '0' :: 'x' :: cs => readBase 16 cs
  | '0' :: 'o' :: cs => readBase 8 cs
  | '0' :: 'b' :: cs => readBase 2 cs
  | cs =>
    let (negative, digits) := takeSign cs
    if isDecimal digits then bounded (signed negative (numberOf 10 digits)) else none

/-! ## Floats -/

/-- The character is part of a run of digits. -/
def isRunChar (c : Char) : Bool := c.isDigit || c == '_'

/-- Reads an exponent, which is zero where there is none. -/
def readExponent : List Char → Option Int
  | [] => some 0
  | c :: cs =>
    let (negative, digits) := takeSign cs
    if (c == 'e' || c == 'E') && isDigitRun 10 digits then
      some (signed negative (numberOf 10 digits))
    else none

/-- Reads a fraction, an exponent or both: the digits of the fraction, and the exponent. -/
def readFraction : List Char → Option (List Char × Int)
  | [] => none
  | '.' :: cs =>
    let run := cs.takeWhile isRunChar
    if isDigitRun 10 run then
      (readExponent (cs.dropWhile isRunChar)).map (run.filter Char.isDigit, ·)
    else none
  | cs => (readExponent cs).map ([], ·)

/-- The least number that rounds to infinity among floats of 64 bits: halfway from the largest of
them to the next power of two. -/
def floatBound : Nat := Nat.pow 2 1024 - Nat.pow 2 970

/-- Digits times a power of ten round to infinity.  The bound has 309 digits, and so no other number
needs a closer look than at its digits before the point. -/
def isInfinite (digits : List Char) (exponent : Int) : Bool :=
  match digits.dropWhile (· == '0') with
  | [] => false
  | digits =>
    let width : Int := digits.length + exponent
    if width = 309 then
      floatBound * Nat.pow 10 (-exponent).toNat ≤ numberOf 10 digits * Nat.pow 10 exponent.toNat
    else width > 309

/-- The characters are a float.  Digits that round to infinity are none, but those that round to its
negative are. -/
def isFloat (cs : List Char) : Bool :=
  let (negative, cs) := takeSign cs
  let whole := cs.takeWhile isRunChar
  cs == "inf".toList || cs == "nan".toList
    || isDecimal whole
      && (readFraction (cs.dropWhile isRunChar)).any fun (fraction, exponent) =>
        negative
          || !isInfinite (whole.filter Char.isDigit ++ fraction) (exponent - fraction.length)

/-! ## Times -/

/-- Two digits that denote a number within bounds. -/
def isTwoDigits (lower upper : Nat) (cs : List Char) : Bool :=
  isFixed 2 cs && lower ≤ numberOf 10 cs && numberOf 10 cs ≤ upper

/-- The number of days of a month. -/
def daysOf (year month : Nat) : Nat :=
  if month = 2 then
    if year % 4 = 0 ∧ (year % 100 ≠ 0 ∨ year % 400 = 0) then 29 else 28
  else if month ∈ [4, 6, 9, 11] then 30
  else 31

/-- A date: year, month and day. -/
def isDate (cs : List Char) : Bool :=
  match cs.splitOn '-' with
  | [year, month, day] =>
    isFixed 4 year && isTwoDigits 1 12 month
      && isTwoDigits 1 (daysOf (numberOf 10 year) (numberOf 10 month)) day
  | _ => false

/-- A time of day: hour, minute and second, and perhaps a fraction of it. -/
def isClock (cs : List Char) : Bool :=
  match cs.splitOn ':' with
  | [hour, minute, second] =>
    isTwoDigits 0 23 hour && isTwoDigits 0 59 minute && isTwoDigits 0 60 (second.take 2)
      && match second.drop 2 with
        | [] => true
        | '.' :: fraction => !fraction.isEmpty && fraction.all Char.isDigit
        | _ => false
  | _ => false

/-- A distance from universal time. -/
def isOffset (cs : List Char) : Bool :=
  match cs.splitOn ':' with
  | [hour, minute] => isTwoDigits 0 23 hour && isTwoDigits 0 59 minute
  | _ => false

/-- A time of day, perhaps with its distance from universal time. -/
def isZonedClock (cs : List Char) : Bool :=
  let clock := cs.takeWhile fun c => !"zZ+-".toList.contains c
  isClock clock
    && match cs.drop clock.length with
      | [] | ['z'] | ['Z'] => true
      | '+' :: offset | '-' :: offset => isOffset offset
      | _ => false

/-- A date, a time of day, or both. -/
def isTime (cs : List Char) : Bool :=
  isClock cs || isDate cs
    || isDate (cs.take 10) && ((cs.drop 10).head?.any fun c => "tT ".toList.contains c)
      && isZonedClock (cs.drop 11)

/-! ## Scalars -/

/-- Reads the characters of a scalar that is no text. -/
def readScalar (cs : List Char) : Option Value :=
  if cs == "true".toList then some (.truth true)
  else if cs == "false".toList then some (.truth false)
  else if isTime cs then some (.time (String.ofList cs))
  else if isFloat cs then some (.float (String.ofList cs))
  else readInteger cs

/-- The character may be part of such a scalar. -/
def isScalarChar (c : Char) : Bool := c.isAlphanum || "+-_.:".toList.contains c

/-- Takes such a scalar off.  A blank inside it separates a date from a time of day. -/
def takeScalar (cs : List Char) : Option (Value × List Char) :=
  let first := cs.takeWhile isScalarChar
  let rest := cs.dropWhile isScalarChar
  match isDate first, rest with
  | true, ' ' :: d :: rest' =>
    if d.isDigit then
      let time := (d :: rest').takeWhile isScalarChar
      (readScalar (first ++ ' ' :: time)).map fun v => (v, (d :: rest').dropWhile isScalarChar)
    else (readScalar first).map fun v => (v, rest)
  | _, _ => (readScalar first).map fun v => (v, rest)

end FirewallConfig.Toml
