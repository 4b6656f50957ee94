import FirewallConfig.Proofs.Text.Cut
import FirewallConfig.Proofs.Xml.Lines
import FirewallConfig.Xml.Token
import Mathlib.Data.List.Induction
import Mathlib.Data.List.TakeWhile

/-!
# Proofs/Xml/Token — the first piece of what is written

What a document is written with is taken off in one piece each: a tag whatever its attributes hold
(`next_opening`, `next_empty`, `next_closing`), a text without the blanks at its ends
(`next_escapeChars`), and the declaration.  Indentation before a piece does not count.
-/

namespace FirewallConfig.Xml

/-! ## References -/

/-- **Reading the references of a spelling gives the text.** -/
theorem decode_escapeChars (cs : List Char) : decode (escapeChars cs) = some cs := by
  rw [decode]
  induction cs with
  | nil => rfl
  | cons c cs ih =>
    rw [escapeChars_cons]
    unfold escapeChar
    split
    case h_6 hamp _ _ _ _ =>
      rw [List.singleton_append, decodeFrom]
      simp only [if_neg hamp, ih, Option.map_some]
    all_goals
      simp only [List.cons_append, List.nil_append, decodeFrom, if_pos, Char.reduceEq, if_false,
        List.reverse_cons, List.reverse_nil, referenced, ih, Option.bind_some, Option.map_some]

/-! ## Names -/

theorem not_isSpace_of_isNameChar {c : Char} (hc : isNameChar c = true) : isSpace c = false := by
  rw [Bool.eq_false_iff]
  intro hspace
  simp only [isSpace, Bool.or_eq_true, beq_iff_eq] at hspace
  rcases hspace with ((rfl | rfl) | rfl) | rfl <;> exact absurd hc (by decide)

namespace IsName

variable {s : String} (h : IsName s)

include h

/-- A name holds no blank. -/
theorem not_isSpace : ∀ c ∈ s.toList, isSpace c = false := fun c hc =>
  not_isSpace_of_isNameChar (List.all_eq_true.1 h.2 c hc)

/-- A name is part of a key. -/
theorem isKeyChar : ∀ c ∈ s.toList, isKeyChar c = true := fun c hc => by
  have hne : c ≠ '=' := fun heq => h.not_mem (by decide) (heq ▸ hc)
  rw [Xml.isKeyChar, h.not_isSpace c hc, bne_iff_ne.2 hne]
  rfl

end IsName

/-! ## Attributes -/

/-- The characters of an attribute, with the blank before it. -/
def attributeChars (e : String × String) : List Char :=
  ' ' :: e.1.toList ++ '=' :: '"' :: escapeChars e.2.toList ++ ['"']

theorem toList_tagText (tag : String) (attributes : Attributes) :
    (tagText tag attributes).toList
      = tag.toList ++ attributes.entries.flatMap attributeChars := by
  rw [tagText, String.toList_append]
  congr 1
  induction attributes.entries with
  | nil => rfl
  | cons e es ih =>
    rw [List.map_cons, String.join_cons, String.toList_append, ih, List.flatMap_cons]
    simp [attributeChars]

/-- **A written attribute is taken off as it was.** -/
theorem takeAttribute_attributeChars {e : String × String} (he : IsName e.1) (rest : List Char) :
    takeAttribute (dropSpaces (attributeChars e ++ rest))
      = some (e.1.toList, escapeChars e.2.toList, rest) := by
  obtain ⟨key, value⟩ := e
  obtain ⟨c, cs, hlist, -⟩ := he.exists_cons
  have hkey := he.isKeyChar
  have hspace := he.not_isSpace
  rw [hlist] at hkey hspace
  have hcut : Chars.cut '"' (escapeChars value.toList ++ '"' :: rest)
      = some (escapeChars value.toList, rest) :=
    Chars.cut_append_cons (not_mem_escapeChars (by decide) _) rest
  have hstart : dropSpaces (attributeChars (key, value) ++ rest)
      = c :: (cs ++ '=' :: '"' :: (escapeChars value.toList ++ '"' :: rest)) := by
    have hblank : isSpace ' ' = true := by decide
    simp [attributeChars, dropSpaces, hlist, hblank, hspace c List.mem_cons_self]
  have hcs : ∀ d ∈ cs, isKeyChar d = true := fun d hd => hkey d (List.mem_cons_of_mem _ hd)
  rw [hstart, takeAttribute, List.dropWhile_append_of_pos hcs, List.takeWhile_append_of_pos hcs]
  simp [dropSpaces, isKeyChar, isSpace, takeQuoted, hcut, hlist]

/-- An attribute of a new key is taken in. -/
theorem readAttributes_of_takeAttribute {seen : List (String × String)}
    {cs key value rest decoded : List Char}
    (htake : takeAttribute (dropSpaces cs) = some (key, value, rest))
    (hnew : seen.any (·.1 == String.ofList key) = false) (hvalue : decode value = some decoded) :
    readAttributes seen cs
      = readAttributes (seen ++ [(String.ofList key, String.ofList decoded)]) rest := by
  rw [readAttributes]
  split
  · next hnil =>
    rw [hnil] at htake
    cases htake
  · next d ds hcons =>
    rw [hcons] at htake
    split
    · next hnone =>
      rw [hnone] at htake
      cases htake
    · next hsome =>
      cases htake.symm.trans hsome
      simp only [hnew, Bool.false_eq_true, if_false, hvalue]

/-- **Written attributes are read as they were**, no key coming twice. -/
theorem readAttributes_flatMap {es seen : List (String × String)} (hname : ∀ e ∈ es, IsName e.1)
    (hkeys : (es.map (·.1)).Nodup) (hseen : ∀ e ∈ es, e.1 ∉ seen.map (·.1)) :
    readAttributes seen (es.flatMap attributeChars) = .ok (seen ++ es) := by
  induction es generalizing seen with
  | nil =>
    rw [List.flatMap_nil, readAttributes]
    simp [dropSpaces]
  | cons e es ih =>
    rw [List.map_cons, List.nodup_cons] at hkeys
    have htake := takeAttribute_attributeChars (hname e List.mem_cons_self)
      (es.flatMap attributeChars)
    have hnew : seen.any (·.1 == String.ofList e.1.toList) = false := by
      rw [String.ofList_toList, List.any_eq_false]
      intro d hd heq
      exact hseen e List.mem_cons_self (List.mem_map.2 ⟨d, hd, beq_iff_eq.1 heq⟩)
    have hrest : readAttributes (seen ++ [e]) (es.flatMap attributeChars) = .ok (seen ++ [e] ++ es) :=
      ih (fun d hd => hname d (List.mem_cons_of_mem _ hd)) hkeys.2 fun d hd hmem => by
        rw [List.map_append, List.mem_append] at hmem
        rcases hmem with hmem | hmem
        · exact hseen d (List.mem_cons_of_mem _ hd) hmem
        · rw [List.map_singleton, List.mem_singleton] at hmem
          exact hkeys.1 (List.mem_map.2 ⟨d, hd, hmem⟩)
    rw [List.append_assoc, List.singleton_append] at hrest
    rw [List.flatMap_cons, readAttributes_of_takeAttribute htake hnew (decode_escapeChars _),
      String.ofList_toList, String.ofList_toList]
    exact hrest

/-- Putting in the largest key puts it at the end. -/
theorem putSorted_of_forall_lt {key value : String} {entries : List (String × String)}
    (h : ∀ e ∈ entries, e.1 < key) : putSorted key value entries = entries ++ [(key, value)] := by
  induction entries with
  | nil => rfl
  | cons d rest ih =>
    obtain ⟨k, v⟩ := d
    have hlt : k < key := h (k, v) List.mem_cons_self
    have hnot : ¬ key < k := String.lt_asymm hlt
    have hne : key ≠ k := by
      rintro rfl
      exact String.lt_irrefl _ hlt
    rw [putSorted, if_neg hnot, if_neg hne, ih fun e he => h e (List.mem_cons_of_mem _ he)]
    rfl

/-- **Attributes are made again of their entries.** -/
theorem Attributes.ofList_entries (a : Attributes) : ofList a.entries = a := by
  have hfold : ∀ (es : List (String × String)) (b : Attributes),
      (b.entries ++ es).Pairwise (·.1 < ·.1) →
        (es.foldl (fun a e => a.put e.1 e.2) b).entries = b.entries ++ es := by
    intro es
    induction es with
    | nil => intro b _; simp
    | cons e es ih =>
      intro b hb
      have hput : (b.put e.1 e.2).entries = b.entries ++ [e] :=
        putSorted_of_forall_lt fun d hd => (List.pairwise_append.1 hb).2.2 d hd e List.mem_cons_self
      rw [List.foldl_cons, ih (b.put e.1 e.2) (by rwa [hput, List.append_assoc]), hput,
        List.append_assoc]
      rfl
  exact Attributes.ext (hfold a.entries {} a.sorted)

theorem nodup_keys (a : Attributes) : (a.entries.map (·.1)).Nodup := by
  rw [List.Nodup, List.pairwise_map]
  refine a.sorted.imp fun hlt heq => ?_
  rw [heq] at hlt
  exact String.lt_irrefl _ hlt

/-! ## Tags -/

section Tags

variable {tag : String} {attributes : Attributes} (htag : IsName tag)
  (hkeys : ∀ e ∈ attributes.entries, IsName e.1)

/-- The characters hold no bracket that ends a tag, quotes in them being closed. -/
def Passes (cs : List Char) : Prop :=
  ∀ ds, takeTag none (cs ++ ds) = (takeTag none ds).map fun x => (cs ++ x.1, x.2)

theorem Passes.nil : Passes [] := fun ds => by simp

theorem Passes.append {cs ds : List Char} (hcs : Passes cs) (hds : Passes ds) :
    Passes (cs ++ ds) := fun es => by
  rw [List.append_assoc, hcs, hds, Option.map_map]
  simp [Function.comp_def]

theorem passes_of_forall {cs : List Char} (h : ∀ c ∈ cs, c ∉ ['>', '"', '\'']) : Passes cs := by
  induction cs with
  | nil => exact Passes.nil
  | cons c cs ih =>
    intro ds
    have hc := h c List.mem_cons_self
    simp only [List.mem_cons, List.not_mem_nil, or_false, not_or] at hc
    have hcs := ih (fun d hd => h d (List.mem_cons_of_mem _ hd)) ds
    rw [List.cons_append, takeTag]
    simp [hc, hcs, Function.comp_def]

/-- A text in quotes passes if it does not hold the quote. -/
theorem passes_quoted {cs : List Char} (h : '"' ∉ cs) : Passes ('"' :: cs ++ ['"']) := by
  have hquoted : ∀ ds, takeTag (some '"') (cs ++ '"' :: ds)
      = (takeTag none ds).map fun x => (cs ++ '"' :: x.1, x.2) := by
    induction cs with
    | nil => intro ds; rw [List.nil_append, takeTag]; simp
    | cons c cs ih =>
      intro ds
      rw [List.mem_cons, not_or] at h
      have hcs := ih h.2 ds
      rw [List.cons_append, takeTag]
      simp [Ne.symm h.1, hcs, Function.comp_def]
  intro ds
  have hds := hquoted ds
  rw [List.append_assoc, List.cons_append, takeTag, List.singleton_append]
  simp [hds, Function.comp_def]

theorem IsName.passes {s : String} (h : IsName s) : Passes s.toList :=
  passes_of_forall fun c hc hmem => by
    simp only [List.mem_cons, List.not_mem_nil, or_false] at hmem
    rcases hmem with rfl | rfl | rfl <;> exact h.not_mem (by decide) hc

include htag hkeys in
theorem passes_tagText : Passes (tagText tag attributes).toList := by
  rw [toList_tagText]
  refine htag.passes.append ?_
  generalize attributes.entries = es at hkeys
  induction es with
  | nil => exact Passes.nil
  | cons e es ih =>
    have hequals : Passes [' '] ∧ Passes ['='] :=
      ⟨passes_of_forall (List.forall_mem_singleton.2 (by decide)),
        passes_of_forall (List.forall_mem_singleton.2 (by decide))⟩
    have hvalue := passes_quoted (not_mem_escapeChars (d := '"') (by decide) e.2.toList)
    have hattribute := ((hequals.1.append (hkeys e List.mem_cons_self).passes).append
      hequals.2).append hvalue
    have heq : attributeChars e = [' '] ++ e.1.toList ++ ['=']
        ++ ('"' :: escapeChars e.2.toList ++ ['"']) := by simp [attributeChars]
    rw [List.flatMap_cons, heq]
    exact hattribute.append (ih fun d hd => hkeys d (List.mem_cons_of_mem _ hd))

include htag hkeys in
/-- **A written tag is read as it was.** -/
theorem readTag_tagText :
    readTag (tagText tag attributes).toList = .ok (tag, attributes) := by
  have hname : ∀ c ∈ tag.toList, (!isSpace c) = true := fun c hc => by
    rw [htag.not_isSpace c hc]
    rfl
  have hrest : (attributes.entries.flatMap attributeChars).takeWhile (!isSpace ·) = []
      ∧ (attributes.entries.flatMap attributeChars).dropWhile (!isSpace ·)
        = attributes.entries.flatMap attributeChars := by
    cases attributes.entries with
    | nil => exact ⟨rfl, rfl⟩
    | cons e es => simp [attributeChars, isSpace]
  rw [readTag, toList_tagText, List.dropWhile_append_of_pos hname,
    List.takeWhile_append_of_pos hname, hrest.1, hrest.2,
    readAttributes_flatMap hkeys (nodup_keys attributes) (by simp)]
  simp [Except.map, Attributes.ofList_entries]

include htag in
/-- A written tag does not end in a slash. -/
theorem withoutSuffix_tagText :
    Chars.withoutSuffix ['/'] (tagText tag attributes).toList = none := by
  have hlast : ∀ {cs : List Char} {c : Char}, c ≠ '/' → ∀ rest, cs ++ [c] ≠ rest ++ ['/'] :=
    fun hc rest heq => hc (List.cons.inj (List.append_inj' heq rfl).2).1
  refine Option.eq_none_iff_forall_ne_some.2 fun rest hrest => ?_
  have heq := Chars.withoutSuffix_eq_some_iff.1 hrest
  rw [toList_tagText] at heq
  rcases List.eq_nil_or_concat attributes.entries with hnil | ⟨es, e, hes⟩
  · rw [hnil, List.flatMap_nil, List.append_nil] at heq
    exact htag.not_mem (c := '/') (by decide) (by simp [heq])
  · rw [hes, List.concat_eq_append, List.flatMap_append, List.flatMap_singleton, attributeChars,
      ← List.append_assoc, ← List.append_assoc] at heq
    exact hlast (by decide) rest heq

/-- Markup that begins like a name is a tag that opens an element. -/
theorem takeMarkup_of_isNameStart {c : Char} (hc : isNameStart c = true) (cs : List Char) :
    takeMarkup (c :: cs) = match takeTag none (c :: cs) with
      | some (body, rest) => (readOpening body).map (·, rest)
      | none => .error .badMarkup := by
  unfold takeMarkup
  split
  · next h => cases h
  · next h => cases h; exact absurd hc (by decide)
  · next h => cases h; exact absurd hc (by decide)
  · next h => cases h; exact absurd hc (by decide)
  · rfl

theorem dropSpaces_lineStart (begins : Bool) (level : Nat) (cs : List Char) :
    dropSpaces ((lineStart begins level).toList ++ cs) = dropSpaces cs := by
  cases begins with
  | false => rfl
  | true =>
    have hlist : (lineStart true level).toList = '\n' :: List.replicate (2 * level) ' ' := by
      rw [lineStart, if_pos rfl, String.toList_append, Text.toList_blanks]
      rfl
    rw [hlist]
    refine List.dropWhile_append_of_pos fun c hc => ?_
    rcases List.mem_cons.1 hc with rfl | hc
    · decide
    · rw [List.eq_of_mem_replicate hc]
      decide

/-- **Indentation does not count.** -/
theorem next_lineStart (begins : Bool) (level : Nat) (cs : List Char) :
    Token.next ((lineStart begins level).toList ++ cs) = Token.next cs := by
  rw [Token.next, dropSpaces_lineStart, Token.next]

theorem next_bracket (cs : List Char) : Token.next ('<' :: cs) = (takeMarkup cs).map some := by
  have hdrop : dropSpaces ('<' :: cs) = '<' :: cs := List.dropWhile_cons_of_neg (by decide)
  rw [Token.next, hdrop]
  rfl

include htag in
theorem exists_tagText_cons :
    ∃ c cs, (tagText tag attributes).toList = c :: cs ∧ isNameStart c = true := by
  obtain ⟨c, cs, hlist, hc⟩ := htag.exists_cons
  rw [toList_tagText, hlist]
  exact ⟨c, _, rfl, hc⟩

include htag hkeys in
/-- **A tag that opens an element is taken off.** -/
theorem next_opening (rest : List Char) :
    Token.next ('<' :: ((tagText tag attributes).toList ++ '>' :: rest))
      = .ok (some (.opening tag attributes, rest)) := by
  have htake : takeTag none ((tagText tag attributes).toList ++ '>' :: rest)
      = some ((tagText tag attributes).toList, rest) := by
    rw [passes_tagText htag hkeys, takeTag]
    simp
  obtain ⟨c, cs, hlist, hc⟩ := @exists_tagText_cons tag attributes htag
  have hopening : readOpening (tagText tag attributes).toList = .ok (.opening tag attributes) := by
    rw [readOpening, withoutSuffix_tagText htag]
    simp only [readTag_tagText htag hkeys, Except.map]
  rw [hlist] at htake hopening
  rw [next_bracket, hlist, List.cons_append, takeMarkup_of_isNameStart hc, ← List.cons_append,
    htake]
  simp only [hopening, Except.map]

include htag hkeys in
/-- **A tag that opens an element and closes it is taken off.** -/
theorem next_empty (rest : List Char) :
    Token.next ('<' :: ((tagText tag attributes).toList ++ '/' :: '>' :: rest))
      = .ok (some (.empty tag attributes, rest)) := by
  have hslash : Passes ((tagText tag attributes).toList ++ ['/']) :=
    (passes_tagText htag hkeys).append
      (passes_of_forall (List.forall_mem_singleton.2 (by decide)))
  have htake : takeTag none ((tagText tag attributes).toList ++ '/' :: '>' :: rest)
      = some ((tagText tag attributes).toList ++ ['/'], rest) := by
    have := hslash ('>' :: rest)
    rw [List.append_assoc] at this
    rw [← List.singleton_append (x := '/'), this, takeTag]
    simp
  obtain ⟨c, cs, hlist, hc⟩ := @exists_tagText_cons tag attributes htag
  have hempty : readOpening ((tagText tag attributes).toList ++ ['/'])
      = .ok (.empty tag attributes) := by
    rw [readOpening, Chars.withoutSuffix_eq_some_iff.2 rfl]
    simp only [readTag_tagText htag hkeys, Except.map]
  rw [hlist] at htake hempty
  rw [next_bracket, hlist, List.cons_append, takeMarkup_of_isNameStart hc, ← List.cons_append,
    htake]
  simp only [hempty, Except.map]

include htag in
/-- **A closing tag is taken off.** -/
theorem next_closing (rest : List Char) :
    Token.next ('<' :: '/' :: (tag.toList ++ '>' :: rest)) = .ok (some (.closing tag, rest)) := by
  have htake : takeTag none (tag.toList ++ '>' :: rest) = some (tag.toList, rest) := by
    rw [htag.passes, takeTag]
    simp
  obtain ⟨c, cs, hlist, -⟩ := htag.exists_cons
  have hspace := htag.not_isSpace
  have hclosing : readClosing tag.toList = .closing tag := by
    have hend : dropSpacesEnd tag.toList = tag.toList := by
      have hdrop : tag.toList.reverse.dropWhile isSpace = tag.toList.reverse := by
        rw [List.dropWhile_eq_self_iff]
        intro hl
        rw [hspace _ (List.mem_reverse.1 (List.getElem_mem hl))]
        decide
      rw [dropSpacesEnd, hdrop, List.reverse_reverse]
    have hsome : tag.toList.all isSpace = false := by
      rw [hlist, List.all_cons, hspace c (by rw [hlist]; exact List.mem_cons_self)]
      rfl
    rw [readClosing, hsome, if_neg (by decide), hend, String.ofList_toList]
  rw [next_bracket, takeMarkup, htake]
  simp only [hclosing, Except.map]

end Tags

/-! ## Texts -/

/-- A text that is read as it was written: reading cuts the blanks of markup off its ends, and
drops a text of nothing but blanks. -/
structure IsText (s : String) : Prop where
  notBlank : Text.isAllBlank s = false
  first : ∀ c, s.toList.head? = some c → isSpace c = false
  last : ∀ c, s.toList.getLast? = some c → isSpace c = false

instance (s : String) : Decidable (IsText s) :=
  decidable_of_iff (Text.isAllBlank s = false ∧ s.toList.head?.all (!isSpace ·) = true
      ∧ s.toList.getLast?.all (!isSpace ·) = true) <| by
    rw [Option.all_eq_true_iff_get, Option.all_eq_true_iff_get]
    constructor
    · rintro ⟨h, hfirst, hlast⟩
      exact ⟨h, fun c hc => by simpa [hc] using hfirst, fun c hc => by simpa [hc] using hlast⟩
    · rintro ⟨h, hfirst, hlast⟩
      exact ⟨h, fun hc => by simpa using hfirst _ (Option.some_get hc).symm,
        fun hc => by simpa using hlast _ (Option.some_get hc).symm⟩

/-- A blank of markup is spelled as it is, and no other character with blanks at its ends. -/
theorem escapeChar_eq_or (c : Char) :
    (isSpace c = true ∧ escapeChar c = [c]) ∨
      isSpace c = false ∧ ∃ d ds e es, escapeChar c = d :: ds ∧ escapeChar c = es ++ [e]
        ∧ isSpace d = false ∧ isSpace e = false := by
  unfold escapeChar
  split
  · exact .inr ⟨by decide, '&', _, ';', ['&', 'a', 'm', 'p'], rfl, rfl, by decide, by decide⟩
  · exact .inr ⟨by decide, '&', _, ';', ['&', 'l', 't'], rfl, rfl, by decide, by decide⟩
  · exact .inr ⟨by decide, '&', _, ';', ['&', 'g', 't'], rfl, rfl, by decide, by decide⟩
  · exact .inr ⟨by decide, '&', _, ';', ['&', 'a', 'p', 'o', 's'], rfl, rfl, by decide, by decide⟩
  · exact .inr ⟨by decide, '&', _, ';', ['&', 'q', 'u', 'o', 't'], rfl, rfl, by decide, by decide⟩
  · cases hc : isSpace c with
    | true => exact .inl ⟨rfl, rfl⟩
    | false => exact .inr ⟨rfl, c, [], c, [], rfl, rfl, hc, hc⟩

/-- The blanks in front of a text stand in front of its spelling. -/
theorem dropSpaces_escapeChars (cs : List Char) :
    dropSpaces (escapeChars cs) = escapeChars (dropSpaces cs) := by
  induction cs with
  | nil => rfl
  | cons c cs ih =>
    rw [escapeChars_cons]
    rcases escapeChar_eq_or c with ⟨hc, hspell⟩ | ⟨hc, d, ds, -, -, hspell, -, hd, -⟩
    · rw [hspell, List.singleton_append, dropSpaces, List.dropWhile_cons_of_pos hc, dropSpaces,
        List.dropWhile_cons_of_pos hc]
      exact ih
    · have hkept : dropSpaces (c :: cs) = c :: cs :=
        List.dropWhile_cons_of_neg (by rw [hc]; decide)
      rw [hkept, escapeChars_cons, hspell, List.cons_append]
      exact List.dropWhile_cons_of_neg (by rw [hd]; decide)

theorem dropSpacesEnd_append_of_isSpace {c : Char} (hc : isSpace c = true) (cs : List Char) :
    dropSpacesEnd (cs ++ [c]) = dropSpacesEnd cs := by
  rw [dropSpacesEnd, List.reverse_append, List.reverse_singleton, List.singleton_append,
    List.dropWhile_cons_of_pos hc, dropSpacesEnd]

theorem dropSpacesEnd_append_of_not_isSpace {c : Char} (hc : isSpace c = false) (cs : List Char) :
    dropSpacesEnd (cs ++ [c]) = cs ++ [c] := by
  rw [dropSpacesEnd, List.reverse_append, List.reverse_singleton, List.singleton_append,
    List.dropWhile_cons_of_neg (by rw [hc]; decide), List.reverse_cons, List.reverse_reverse]

/-- The blanks at the end of a text stand at the end of its spelling. -/
theorem dropSpacesEnd_escapeChars (cs : List Char) :
    dropSpacesEnd (escapeChars cs) = escapeChars (dropSpacesEnd cs) := by
  induction cs using List.reverseRecOn with
  | nil => rfl
  | append_singleton cs c ih =>
    have happend : escapeChars (cs ++ [c]) = escapeChars cs ++ escapeChar c := by
      rw [escapeChars, List.flatMap_append, List.flatMap_singleton]
      rfl
    rcases escapeChar_eq_or c with ⟨hc, hspell⟩ | ⟨hc, -, -, e, es, -, hspell, -, he⟩
    · rw [happend, hspell, dropSpacesEnd_append_of_isSpace hc, ih,
        dropSpacesEnd_append_of_isSpace hc]
    · rw [dropSpacesEnd_append_of_not_isSpace hc, happend, hspell, ← List.append_assoc,
        dropSpacesEnd_append_of_not_isSpace he]

/-- **A text is taken off up to the tag that follows it**, without the blanks at its ends; where
there is nothing else in it, the tag is next. -/
theorem next_escapeChars (cs rest : List Char) :
    Token.next (escapeChars cs ++ '<' :: rest)
      = if dropSpaces cs = [] then Token.next ('<' :: rest)
        else .ok (some (.text (String.ofList (dropSpacesEnd (dropSpaces cs))), '<' :: rest)) := by
  have hdrop : dropSpaces (escapeChars cs ++ '<' :: rest)
      = escapeChars (dropSpaces cs) ++ '<' :: rest := by
    rw [← dropSpaces_escapeChars, dropSpaces, List.dropWhile_append,
      List.dropWhile_cons_of_neg (by decide)]
    split
    · next h => rw [dropSpaces, List.isEmpty_iff.1 h]; rfl
    · rfl
  split
  · next hnil =>
    have hbracket : dropSpaces ('<' :: rest) = '<' :: rest :=
      List.dropWhile_cons_of_neg (by decide)
    rw [Token.next, hdrop, hnil, Token.next, hbracket]
    rfl
  · next hne =>
    have hplain : ∀ c ∈ escapeChars (dropSpaces cs), (c != '<') = true := fun c hc => by
      rw [bne_iff_ne]
      rintro rfl
      exact not_mem_escapeChars (by decide) _ hc
    obtain ⟨c, ds, hcons⟩ : ∃ c ds, escapeChars (dropSpaces cs) = c :: ds := by
      refine List.exists_cons_of_ne_nil fun hnil => hne ?_
      have hdecode := decode_escapeChars (dropSpaces cs)
      rw [hnil] at hdecode
      exact (Option.some.inj hdecode).symm
    have hread : readText (escapeChars (dropSpaces cs))
        = .ok (.text (String.ofList (dropSpacesEnd (dropSpaces cs)))) := by
      rw [readText, dropSpacesEnd_escapeChars, decode_escapeChars]
    rw [Token.next, hdrop]
    split
    · next hnil => rw [hcons] at hnil; cases hnil
    · next es heq =>
      rw [hcons, List.cons_append] at heq
      have hc := hplain c (by rw [hcons]; exact List.mem_cons_self)
      exact absurd (List.cons.inj heq).1 (bne_iff_ne.1 hc)
    · rw [List.takeWhile_append_of_pos hplain, List.dropWhile_append_of_pos hplain,
        List.takeWhile_cons_of_neg (by decide), List.dropWhile_cons_of_neg (by decide),
        List.append_nil, hread]
      rfl

/-- A text without blanks at its ends stays as it is. -/
theorem IsText.dropSpaces_eq {s : String} (h : IsText s) :
    dropSpaces s.toList = s.toList ∧ dropSpacesEnd s.toList = s.toList := by
  constructor
  · cases hlist : s.toList with
    | nil => rfl
    | cons c cs =>
      have hc : isSpace c = false := h.first c (by rw [hlist]; rfl)
      exact List.dropWhile_cons_of_neg (by rw [hc]; decide)
  · rcases List.eq_nil_or_concat s.toList with hnil | ⟨cs, c, hlist⟩
    · rw [hnil]
      rfl
    · rw [List.concat_eq_append] at hlist
      have hc : isSpace c = false := h.last c (by rw [hlist]; simp)
      rw [hlist, dropSpacesEnd_append_of_not_isSpace hc]

/-! ## The rest of a document -/

/-- **The declaration is taken off and means nothing.** -/
theorem next_declaration (rest : List Char) :
    Token.next (declaration.toList ++ rest) = .ok (some (.ignored, rest)) := by
  have hlist : declaration.toList
      = '<' :: '?' :: ("xml version=\"1.0\" encoding=\"UTF-8\"".toList ++ "?>".toList) := by decide
  have hcut : ∀ cs : List Char, '?' ∉ cs →
      Chars.cutAt "?>".toList (cs ++ ("?>".toList ++ rest)) = some (cs, rest) := by
    intro cs hcs
    induction cs with
    | nil => exact Chars.cutAt_append _ rest
    | cons c cs ih =>
      rw [List.mem_cons, not_or] at hcs
      have hnot : Chars.withoutPrefix "?>".toList (c :: (cs ++ ("?>".toList ++ rest))) = none :=
        Chars.withoutPrefix_eq_none_of_ne fun r heq => hcs.1 (List.cons.inj heq).1.symm
      rw [List.cons_append, Chars.cutAt, hnot]
      simp only [ih hcs.2, Option.map_some]
  rw [hlist, List.cons_append, List.cons_append, next_bracket, takeMarkup, takeInstruction,
    List.append_assoc, hcut _ (by decide)]
  rfl

end FirewallConfig.Xml
