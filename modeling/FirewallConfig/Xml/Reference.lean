import FirewallConfig.Text.Numeral

/-!
# Xml/Reference — reading references to characters and entities

In text and in attributes, what stands between an ampersand and a semicolon refers to a character:
one of the five predefined entities by name, or any character but NUL by its number.  A text with
any other ampersand is refused.
-/

namespace FirewallConfig.Xml

/-- The character of a number, if it is one and not NUL. -/
def charOfNumber (n : Nat) : Option Char := if n = 0 then none else Chars.ofCodePoint? n

/-- The character that a reference means, the reference standing without its ampersand and its
semicolon. -/
def referenced : List Char → Option Char
  | '#' :: 'x' :: digits => (Chars.hexNumber digits).bind charOfNumber
  | '#' :: digits => (Chars.digits digits).bind charOfNumber
  | ['l', 't'] => some '<'
  | ['g', 't'] => some '>'
  | ['a', 'm', 'p'] => some '&'
  | ['a', 'p', 'o', 's'] => some '\''
  | ['q', 'u', 'o', 't'] => some '"'
  | _ => none

/-- Reads the references in some characters.  `opened` is the part of a reference that has been read
already, back to front, if one is open. -/
def decodeFrom (opened : Option (List Char)) : List Char → Option (List Char)
  | [] => if opened.isNone then some [] else none
  | c :: cs =>
    match opened with
    | none => if c = '&' then decodeFrom (some []) cs else (decodeFrom none cs).map (c :: ·)
    | some body =>
      if c = ';' then
        (referenced body.reverse).bind fun d => (decodeFrom none cs).map (d :: ·)
      else if c = '&' then none
      else decodeFrom (some (c :: body)) cs

/-- Reads the references in some characters. -/
def decode (cs : List Char) : Option (List Char) := decodeFrom none cs

end FirewallConfig.Xml
