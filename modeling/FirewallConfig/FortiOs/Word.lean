import FirewallConfig.Text.Cut

/-!
# FortiOs/Word — the words of a line, and how a word is quoted

Words are separated by blanks.  Double quotes group characters into a word, blanks and nothing at
all included, and a backslash inside quotes takes the next character as it is.  `quoted` writes any
text as one word; `splitWords` reads the words of a line.
-/

namespace FirewallConfig.FortiOs

/-- The words of `cs`.  `opened` is the part of the first word that has been read already, back to
front; `hadQuotes` says that quotes stood in it, so that it is a word even if it is empty;
`inQuotes` says that the quotes are still open. -/
def wordsFrom (opened : List Char) (hadQuotes inQuotes : Bool) : List Char → List (List Char)
  | [] => if opened.isEmpty && !hadQuotes then [] else [opened.reverse]
  | c :: cs =>
    if inQuotes && c == '\\' then
      match cs with
      | [] => wordsFrom opened hadQuotes inQuotes []
      | d :: ds => wordsFrom (d :: opened) hadQuotes inQuotes ds
    else if c == '"' then wordsFrom opened true (!inQuotes) cs
    else if isBlank c && !inQuotes then
      if opened.isEmpty && !hadQuotes then wordsFrom [] false false cs
      else opened.reverse :: wordsFrom [] false false cs
    else wordsFrom (c :: opened) hadQuotes inQuotes cs

/-- The words of a line. -/
def splitWords (line : String) : List String :=
  (wordsFrom [] false false line.toList).map String.ofList

/-! ## Writing a word -/

/-- Puts a backslash before each quote and each backslash. -/
def escape (cs : List Char) : List Char :=
  cs.flatMap fun c => if c == '"' || c == '\\' then ['\\', c] else [c]

/-- The text as one word between quotes. -/
def quoted (s : String) : String := String.ofList ('"' :: (escape s.toList ++ ['"']))

/-- A value as it is written. -/
inductive Value where
  /-- Written as it is; it may hold several words. -/
  | bare (text : String)
  /-- Written as one word between quotes. -/
  | quoted (text : String)
deriving DecidableEq, Repr

namespace Value

/-- The spelling of a value. -/
def spelling : Value → String
  | .bare text => text
  | .quoted text => FortiOs.quoted text

/-- A number as a value. -/
def number (n : Nat) : Value := .bare (toString n)

/-- A secret.  One that the device has encrypted already is a single word behind `ENC` and stays
bare; any other is quoted. -/
def secret (s : String) : Value :=
  match Chars.withoutPrefix "ENC ".toList s.toList with
  | some blob =>
    if blob.isEmpty || blob.any (fun c => isBlank c || c == '"') then .quoted s else .bare s
  | none => .quoted s

end Value

end FirewallConfig.FortiOs
