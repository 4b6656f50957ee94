import FirewallConfig.Text.Numeral

/-!
# Toml/Quoted — texts between quotes

There are two kinds of quotes, with escapes and without, and each may be tripled: then the text may
run over several lines, and hold up to two of its quotes side by side.
-/

namespace FirewallConfig.Toml

/-- The character may stand in a text or in a comment: any but a control character, and a tab. -/
def isPlain (c : Char) : Bool := c == '\t' || (0x20 ≤ c.toNat && c.toNat != 0x7F)

/-- The character is a blank inside a line. -/
def isTabOrSpace (c : Char) : Bool := c == ' ' || c == '\t'

/-- Drops the leading blanks of a line. -/
def dropBlanks (cs : List Char) : List Char := cs.dropWhile isTabOrSpace

/-- The end of a line comes first. -/
def startsNewline : List Char → Bool
  | '\n' :: _ => true
  | '\r' :: '\n' :: _ => true
  | _ => false

/-- Drops the end of a line, if it comes first. -/
def dropNewline : List Char → List Char
  | '\n' :: cs => cs
  | '\r' :: '\n' :: cs => cs
  | cs => cs

/-- The character that one letter after a backslash means. -/
def escaped? : Char → Option Char
  | 'b' => some '\x08'
  | 't' => some '\t'
  | 'n' => some '\n'
  | 'f' => some '\x0c'
  | 'r' => some '\r'
  | '"' => some '"'
  | '\\' => some '\\'
  | _ => none

/-- The character of a code point in hexadecimal digits. -/
def ofHex? (digits : List Char) : Option Char := (Chars.hexNumber digits).bind Chars.ofCodePoint?

/-- What the quotes that come first in a tripled text do. -/
inductive QuoteRun where
  /-- The first one is part of the text. -/
  | content
  /-- The first three end the text. -/
  | close
  /-- There are too many. -/
  | tooMany

/-- What the quotes do that follow the first one. -/
def quoteRun (quote : Char) (cs : List Char) : QuoteRun :=
  match (cs.takeWhile (· == quote)).length with
  | 0 | 1 => .content
  | 2 => .close
  | 3 | 4 => .content
  | _ => .tooMany

/-- Reads a text with escapes up to its closing quotes.  `long` says that the quotes are tripled,
`skipping` that blanks and ends of lines are passed over; `read` is what has been read already, back
to front. -/
def takeBasic (long skipping : Bool) (read : List Char) : List Char → Option (String × List Char)
  | [] => none
  | '\r' :: '\n' :: cs =>
    if long then takeBasic long skipping (if skipping then read else '\n' :: read) cs else none
  | '\n' :: cs =>
    if long then takeBasic long skipping (if skipping then read else '\n' :: read) cs else none
  | '"' :: cs =>
    if long then
      match quoteRun '"' cs with
      | .content => takeBasic long false ('"' :: read) cs
      | .close => some (String.ofList read.reverse, cs.drop 2)
      | .tooMany => none
    else some (String.ofList read.reverse, cs)
  | '\\' :: 'u' :: a :: b :: c :: d :: cs =>
    match ofHex? [a, b, c, d] with
    | some e => takeBasic long false (e :: read) cs
    | none => none
  | '\\' :: 'U' :: a :: b :: c :: d :: e :: f :: g :: h :: cs =>
    match ofHex? [a, b, c, d, e, f, g, h] with
    | some e => takeBasic long false (e :: read) cs
    | none => none
  | '\\' :: c :: cs =>
    if long && startsNewline (dropBlanks (c :: cs)) then takeBasic long true read (c :: cs)
    else
      match escaped? c with
      | some e => takeBasic long false (e :: read) cs
      | none => none
  | c :: cs =>
    if skipping && isTabOrSpace c then takeBasic long true read cs
    else if isPlain c && c != '\\' then takeBasic long false (c :: read) cs
    else none

/-- Reads a text without escapes up to its closing quotes. -/
def takeLiteral (long : Bool) (read : List Char) : List Char → Option (String × List Char)
  | [] => none
  | '\r' :: '\n' :: cs => if long then takeLiteral long ('\n' :: read) cs else none
  | '\n' :: cs => if long then takeLiteral long ('\n' :: read) cs else none
  | '\'' :: cs =>
    if long then
      match quoteRun '\'' cs with
      | .content => takeLiteral long ('\'' :: read) cs
      | .close => some (String.ofList read.reverse, cs.drop 2)
      | .tooMany => none
    else some (String.ofList read.reverse, cs)
  | c :: cs => if isPlain c then takeLiteral long (c :: read) cs else none

/-- Takes a text off that may not be tripled. -/
def takeShort : List Char → Option (String × List Char)
  | '"' :: cs => takeBasic false false [] cs
  | '\'' :: cs => takeLiteral false [] cs
  | _ => none

/-- Takes a text off.  The end of a line right after tripled quotes does not count. -/
def takeText : List Char → Option (String × List Char)
  | '"' :: '"' :: '"' :: cs => takeBasic true false [] (dropNewline cs)
  | '\'' :: '\'' :: '\'' :: cs => takeLiteral true [] (dropNewline cs)
  | cs => takeShort cs

end FirewallConfig.Toml
