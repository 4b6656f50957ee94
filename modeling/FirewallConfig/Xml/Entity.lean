/-!
# Xml/Entity — the five predefined entities

`escape` spells the five characters that markup uses as entities; `unescape` reads these entities
and leaves any other text alone, one that looks like an entity included.
-/

namespace FirewallConfig.Xml

/-- The spelling of a character in text or in an attribute. -/
def escapeChar (c : Char) : List Char :=
  match c with
  | '&' => ['&', 'a', 'm', 'p', ';']
  | '<' => ['&', 'l', 't', ';']
  | '>' => ['&', 'g', 't', ';']
  | '\'' => ['&', 'a', 'p', 'o', 's', ';']
  | '"' => ['&', 'q', 'u', 'o', 't', ';']
  | c => [c]

/-- Spells the characters that markup uses as entities. -/
def escapeChars (cs : List Char) : List Char := cs.flatMap escapeChar

/-- Reads the predefined entities, from the left; what an entity stands for is not read again. -/
def unescapeChars : List Char → List Char
  | '&' :: 'a' :: 'm' :: 'p' :: ';' :: cs => '&' :: unescapeChars cs
  | '&' :: 'l' :: 't' :: ';' :: cs => '<' :: unescapeChars cs
  | '&' :: 'g' :: 't' :: ';' :: cs => '>' :: unescapeChars cs
  | '&' :: 'a' :: 'p' :: 'o' :: 's' :: ';' :: cs => '\'' :: unescapeChars cs
  | '&' :: 'q' :: 'u' :: 'o' :: 't' :: ';' :: cs => '"' :: unescapeChars cs
  | c :: cs => c :: unescapeChars cs
  | [] => []

/-- Spells the characters of a text that markup uses as entities. -/
def escape (s : String) : String := String.ofList (escapeChars s.toList)

/-- Reads the predefined entities of a text. -/
def unescape (s : String) : String := String.ofList (unescapeChars s.toList)

end FirewallConfig.Xml
