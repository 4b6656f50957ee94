import FirewallConfig.Text.Cut
import FirewallConfig.Xml.Node
import FirewallConfig.Xml.Reference

/-!
# Xml/Token — taking a document apart into tags and text

`Token.next` takes the first piece off a document: a tag, a run of text, or markup that means
nothing here.  Names are not checked, so that whatever stands up to a blank is one.  A piece is
never empty (`Token.length_next`), and so a document comes to its end.
-/

namespace FirewallConfig.Xml

/-- Why a text is no document. -/
inductive ReadError where
  /-- Markup that begins and does not end, or that is of no known kind. -/
  | badMarkup
  /-- An attribute without a quoted value, or one that is given twice. -/
  | badAttribute
  /-- A reference to no known character. -/
  | badReference
  /-- A closing tag that closes nothing, or another element than the innermost one. -/
  | unmatchedTag
  /-- The text ends inside the element. -/
  | notClosed (tag : String)
  | noRoot
  | secondRoot
deriving DecidableEq, Repr

/-- A piece of a document. -/
inductive Token where
  | opening (tag : String) (attributes : Attributes)
  /-- A tag that opens an element and closes it. -/
  | empty (tag : String) (attributes : Attributes)
  /-- A closing tag. -/
  | closing (tag : String)
  | text (s : String)
  /-- A comment, a declaration or an instruction. -/
  | ignored

/-! ## Blanks -/

/-- The blanks of markup. -/
def isSpace (c : Char) : Bool := c == ' ' || c == '\t' || c == '\r' || c == '\n'

/-- Drops the leading blanks of markup. -/
def dropSpaces (cs : List Char) : List Char := cs.dropWhile isSpace

/-- Drops the trailing blanks of markup. -/
def dropSpacesEnd (cs : List Char) : List Char := (cs.reverse.dropWhile isSpace).reverse

theorem length_dropSpaces (cs : List Char) : (dropSpaces cs).length ≤ cs.length :=
  (List.dropWhile_sublist _).length_le

theorem length_of_cut {c : Char} {cs a b : List Char} (h : Chars.cut c cs = some (a, b)) :
    b.length < cs.length := by
  induction cs generalizing a with
  | nil => simp [Chars.cut] at h
  | cons d ds ih =>
    rw [Chars.cut] at h
    split at h
    · cases h; simp
    · obtain ⟨⟨a', b'⟩, hab, heq⟩ := Option.map_eq_some_iff.1 h
      cases heq
      have := ih hab
      simp only [List.length_cons]
      omega

/-! ## Attributes -/

/-- The character is part of a key. -/
def isKeyChar (c : Char) : Bool := c != '=' && !isSpace c

/-- Takes a quoted value off, quotes included. -/
def takeQuoted : List Char → Option (List Char × List Char)
  | '"' :: cs => Chars.cut '"' cs
  | '\'' :: cs => Chars.cut '\'' cs
  | _ => none

theorem length_of_takeQuoted {cs a b : List Char} (h : takeQuoted cs = some (a, b)) :
    b.length < cs.length := by
  unfold takeQuoted at h
  split at h
  · have := length_of_cut h; simp only [List.length_cons]; omega
  · have := length_of_cut h; simp only [List.length_cons]; omega
  · cases h

/-- Takes an attribute off: a key, an equals sign and a quoted value, with any blanks between
them.  The characters begin with the key. -/
def takeAttribute (cs : List Char) : Option (List Char × List Char × List Char) :=
  match cs with
  | [] => none
  | c :: cs =>
    match dropSpaces (cs.dropWhile isKeyChar) with
    | '=' :: rest =>
      (takeQuoted (dropSpaces rest)).map fun (value, rest) =>
        (c :: cs.takeWhile isKeyChar, value, rest)
    | _ => none

theorem length_of_takeAttribute {cs key value rest : List Char}
    (h : takeAttribute cs = some (key, value, rest)) : rest.length < cs.length := by
  cases cs with
  | nil => simp [takeAttribute] at h
  | cons c cs =>
    rw [takeAttribute] at h
    split at h
    · next after hafter =>
      obtain ⟨⟨v, r⟩, hq, heq⟩ := Option.map_eq_some_iff.1 h
      cases heq
      have h1 := length_of_takeQuoted hq
      have h2 := length_dropSpaces after
      have h3 := length_dropSpaces (cs.dropWhile isKeyChar)
      have h4 := (List.dropWhile_sublist isKeyChar (l := cs)).length_le
      rw [hafter] at h3
      simp only [List.length_cons] at h3 ⊢
      omega
    · cases h

/-- Reads the attributes of a tag, of which no key may come twice. -/
def readAttributes (seen : List (String × String)) (cs : List Char) :
    Except ReadError (List (String × String)) :=
  match _hs : dropSpaces cs with
  | [] => .ok seen
  | d :: ds =>
    match _ht : takeAttribute (d :: ds) with
    | none => .error .badAttribute
    | some (key, value, rest) =>
      let key := String.ofList key
      if seen.any (·.1 == key) then .error .badAttribute
      else
        match decode value with
        | none => .error .badReference
        | some value => readAttributes (seen ++ [(key, String.ofList value)]) rest
termination_by cs.length
decreasing_by
  have h1 := length_of_takeAttribute _ht
  have h2 := length_dropSpaces cs
  rw [_hs] at h2
  omega

/-! ## Tags -/

/-- Takes off what stands before the bracket that ends a tag.  A bracket between quotes does not
end it; `quote` is the quote that is open, if one is. -/
def takeTag (quote : Option Char) : List Char → Option (List Char × List Char)
  | [] => none
  | c :: cs =>
    let more := fun quote => (takeTag quote cs).map fun (a, b) => (c :: a, b)
    match quote with
    | none =>
      if c = '>' then some ([], cs) else if c = '"' ∨ c = '\'' then more (some c) else more none
    | some q => if c = q then more none else more (some q)

theorem length_of_takeTag {quote : Option Char} {cs a b : List Char}
    (h : takeTag quote cs = some (a, b)) : b.length < cs.length := by
  induction cs generalizing quote a with
  | nil => simp [takeTag] at h
  | cons c cs ih =>
    have more : ∀ {q : Option Char},
        (takeTag q cs).map (fun x => (c :: x.1, x.2)) = some (a, b) →
          b.length < (c :: cs).length := by
      intro q hq
      obtain ⟨⟨a', b'⟩, hab, heq⟩ := Option.map_eq_some_iff.1 hq
      cases heq
      exact Nat.lt_succ_of_lt (ih hab)
    cases quote with
    | none =>
      rw [takeTag] at h
      split at h
      · cases h; simp
      · split at h
        · exact more h
        · exact more h
    | some q =>
      rw [takeTag] at h
      split at h
      · exact more h
      · exact more h

/-- Reads the name of a tag and its attributes. -/
def readTag (cs : List Char) : Except ReadError (String × Attributes) :=
  (readAttributes [] (cs.dropWhile (!isSpace ·))).map fun attributes =>
    (String.ofList (cs.takeWhile (!isSpace ·)), .ofList attributes)

/-- Reads what stands between the brackets of a tag that opens an element. -/
def readOpening (cs : List Char) : Except ReadError Token :=
  match Chars.withoutSuffix ['/'] cs with
  | some cs => (readTag cs).map fun (tag, attributes) => .empty tag attributes
  | none => (readTag cs).map fun (tag, attributes) => .opening tag attributes

/-- Reads what stands between the slash and the bracket of a closing tag.  Blanks after the name do
not count, unless there is no name. -/
def readClosing (cs : List Char) : Token :=
  .closing (String.ofList (if cs.all isSpace then cs else dropSpacesEnd cs))

/-! ## Other markup -/

/-- Drops a declaration of the type of the document, up to the bracket that ends it; brackets inside
it come in pairs.  `depth` counts those that are open. -/
def takeDoctype (depth : Nat) : List Char → Option (List Char × List Char)
  | [] => none
  | c :: cs =>
    let more := fun depth => (takeDoctype depth cs).map fun (a, b) => (c :: a, b)
    if c = '<' then more (depth + 1)
    else if c = '>' then if depth = 0 then some ([], cs) else more (depth - 1)
    else more depth

theorem length_of_takeDoctype {depth : Nat} {cs a b : List Char}
    (h : takeDoctype depth cs = some (a, b)) : b.length < cs.length := by
  induction cs generalizing depth a with
  | nil => simp [takeDoctype] at h
  | cons c cs ih =>
    have more : ∀ {d : Nat},
        (takeDoctype d cs).map (fun x => (c :: x.1, x.2)) = some (a, b) →
          b.length < (c :: cs).length := by
      intro d hd
      obtain ⟨⟨a', b'⟩, hab, heq⟩ := Option.map_eq_some_iff.1 hd
      cases heq
      exact Nat.lt_succ_of_lt (ih hab)
    rw [takeDoctype] at h
    split at h
    · exact more h
    · split at h
      · split at h
        · cases h; simp
        · exact more h
      · exact more h

/-- The text is a declaration of the type of the document, which must name it. -/
def isDoctype (cs : List Char) : Bool :=
  (cs.take 7).map Char.toUpper == "DOCTYPE".toList && !(cs.drop 7).all isSpace

/-- Takes off markup that begins with an exclamation mark, which is off already. -/
def takeDeclaration : List Char → Except ReadError (Token × List Char)
  | '-' :: '-' :: cs =>
    match Chars.cutAt "-->".toList cs with
    | some (_, rest) => .ok (.ignored, rest)
    | none => .error .badMarkup
  | '[' :: 'C' :: 'D' :: 'A' :: 'T' :: 'A' :: '[' :: cs =>
    match Chars.cutAt "]]>".toList cs with
    | some (s, rest) => .ok (.text (String.ofList s), rest)
    | none => .error .badMarkup
  | cs =>
    match takeDoctype 0 cs with
    | some (s, rest) => if isDoctype s then .ok (.ignored, rest) else .error .badMarkup
    | none => .error .badMarkup

theorem length_of_cutAt {p cs a b : List Char} (h : Chars.cutAt p cs = some (a, b)) :
    b.length ≤ cs.length := by
  rw [Chars.eq_append_of_cutAt h]
  simp only [List.length_append]
  omega

theorem length_of_takeDeclaration {cs rest : List Char} {t : Token}
    (h : takeDeclaration cs = .ok (t, rest)) : rest.length ≤ cs.length := by
  unfold takeDeclaration at h
  split at h
  · split at h
    · next hcut =>
      cases h
      have := length_of_cutAt hcut
      simp only [List.length_cons]
      omega
    · cases h
  · split at h
    · next hcut =>
      cases h
      have := length_of_cutAt hcut
      simp only [List.length_cons]
      omega
    · cases h
  · split at h
    · next hcut =>
      split at h
      · cases h; exact Nat.le_of_lt (length_of_takeDoctype hcut)
      · cases h
    · cases h

/-- Takes off an instruction or the declaration of the document, whose first two characters are off
already. -/
def takeInstruction (cs : List Char) : Except ReadError (Token × List Char) :=
  if cs.head? == some '>' then .error .badMarkup
  else
    match Chars.cutAt "?>".toList cs with
    | some (_, rest) => .ok (.ignored, rest)
    | none => .error .badMarkup

theorem length_of_takeInstruction {cs rest : List Char} {t : Token}
    (h : takeInstruction cs = .ok (t, rest)) : rest.length ≤ cs.length := by
  unfold takeInstruction at h
  split at h
  · cases h
  · split at h
    · next hcut => cases h; exact length_of_cutAt hcut
    · cases h

/-! ## The first piece -/

/-- Takes off the markup that follows an opening bracket. -/
def takeMarkup : List Char → Except ReadError (Token × List Char)
  | [] => .error .badMarkup
  | '!' :: cs => takeDeclaration cs
  | '?' :: cs => takeInstruction cs
  | '/' :: cs =>
    match takeTag none cs with
    | some (body, rest) => .ok (readClosing body, rest)
    | none => .error .badMarkup
  | cs =>
    match takeTag none cs with
    | some (body, rest) => (readOpening body).map (·, rest)
    | none => .error .badMarkup

theorem length_of_takeMarkup {cs rest : List Char} {t : Token}
    (h : takeMarkup cs = .ok (t, rest)) : rest.length ≤ cs.length := by
  unfold takeMarkup at h
  split at h
  · cases h
  · have := length_of_takeDeclaration h; simp only [List.length_cons]; omega
  · have := length_of_takeInstruction h; simp only [List.length_cons]; omega
  · split at h
    · next htag =>
      cases h
      have := length_of_takeTag htag
      simp only [List.length_cons]
      omega
    · cases h
  · split at h
    · next body rest' htag =>
      have := length_of_takeTag htag
      cases hr : readOpening body with
      | error e => rw [hr] at h; cases h
      | ok t' => rw [hr] at h; cases h; omega
    · cases h

/-- Reads a run of text, whose first character is no blank; the blanks at its end do not count. -/
def readText (cs : List Char) : Except ReadError Token :=
  match decode (dropSpacesEnd cs) with
  | some s => .ok (.text (String.ofList s))
  | none => .error .badReference

/-- Takes the first piece off a document, unless nothing but blanks is left. -/
def Token.next (cs : List Char) : Except ReadError (Option (Token × List Char)) :=
  match dropSpaces cs with
  | [] => .ok none
  | '<' :: cs => (takeMarkup cs).map some
  | cs => (readText (cs.takeWhile (· != '<'))).map fun t => some (t, cs.dropWhile (· != '<'))

/-- **Every piece has a character**: less is left after it. -/
theorem Token.length_next {cs rest : List Char} {t : Token}
    (h : Token.next cs = .ok (some (t, rest))) : rest.length < cs.length := by
  have hle := length_dropSpaces cs
  rw [Token.next] at h
  generalize dropSpaces cs = ds at h hle
  split at h
  · cases h
  · next cs' =>
    cases hm : takeMarkup cs' with
    | error e => rw [hm] at h; cases h
    | ok p =>
      obtain ⟨t', rest'⟩ := p
      rw [hm] at h
      cases h
      have := length_of_takeMarkup hm
      simp only [List.length_cons] at hle
      omega
  · next hnil hlt =>
    cases hm : readText (ds.takeWhile (· != '<')) with
    | error e => rw [hm] at h; cases h
    | ok t' =>
      rw [hm] at h
      cases h
      cases ds with
      | nil => exact absurd rfl hnil
      | cons d ds' =>
        have hd : d ≠ '<' := fun h' => hlt ds' (by rw [h'])
        have := (List.dropWhile_sublist (· != '<') (l := ds')).length_le
        rw [List.length_cons] at hle
        simp only [List.dropWhile_cons, bne_iff_ne, ne_eq, hd, not_false_eq_true, if_true]
        omega

end FirewallConfig.Xml
