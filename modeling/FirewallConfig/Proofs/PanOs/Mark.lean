import FirewallConfig.PanOs.Reader
import FirewallConfig.PanOs.Writer.Element
import FirewallConfig.Proofs.Text.Cut
import FirewallConfig.Proofs.Xml.Lines

/-!
# Proofs/PanOs/Mark — what a written line shows

The elements that the writer makes have one attribute at most, the name of an entry, and so their
lines are of six kinds: a `Mark` is one of them.  Every function that the reader looks at a line with
is worked out on marks here.  What a text holds never counts: in its spelling there is no bracket and
no quote, so a tag is found only where a tag was written.
-/

namespace FirewallConfig

namespace PanOs

open Xml (Node IsName)

theorem toList_openTag (tag : String) : (openTag tag).toList = '<' :: (tag.toList ++ ['>']) := by
  simp [openTag]

theorem toList_closeTag (tag : String) :
    (closeTag tag).toList = '<' :: '/' :: (tag.toList ++ ['>']) := by
  simp [closeTag]

/-! ## Marks -/

/-- A line of a written element. -/
inductive Mark where
  | opening (tag : String)
  | closing (tag : String)
  | empty (tag : String)
  | leaf (tag text : String)
  | entry (name : String)
  | emptyEntry (name : String)

namespace Mark

/-- The line. -/
def line : Mark → String
  | opening tag => openTag tag
  | closing tag => closeTag tag
  | empty tag => emptyTag tag
  | leaf tag text => openTag tag ++ Xml.escape text ++ closeTag tag
  | entry name => "<entry name=\"" ++ Xml.escape name ++ "\">"
  | emptyEntry name => "<entry name=\"" ++ Xml.escape name ++ "\"/>"

/-- The tags are names, and `entry` is only the tag of what has a name. -/
def Valid : Mark → Prop
  | opening tag | leaf tag _ => IsName tag ∧ tag ≠ "entry"
  | closing tag | empty tag => IsName tag
  | entry _ | emptyEntry _ => True

/-! ### The characters of a mark -/

section Characters

variable (tag text name : String)

theorem toList_opening : (opening tag).line.toList = '<' :: (tag.toList ++ ['>']) :=
  toList_openTag tag

theorem toList_closing : (closing tag).line.toList = '<' :: '/' :: (tag.toList ++ ['>']) :=
  toList_closeTag tag

theorem toList_empty : (empty tag).line.toList = '<' :: (tag.toList ++ ['/', '>']) := by
  simp [line, emptyTag]

theorem toList_leaf : (leaf tag text).line.toList
    = '<' :: (tag.toList ++ '>' :: (Xml.escapeChars text.toList
      ++ '<' :: '/' :: (tag.toList ++ ['>']))) := by
  simp [line, openTag, closeTag]

theorem toList_entry : (entry name).line.toList
    = '<' :: ("entry".toList ++ ' ' :: ("name=\"".toList ++ (Xml.escapeChars name.toList
      ++ ['"', '>']))) := by
  simp [line]

theorem toList_emptyEntry : (emptyEntry name).line.toList
    = '<' :: ("entry".toList ++ ' ' :: ("name=\"".toList ++ (Xml.escapeChars name.toList
      ++ ['"', '/', '>']))) := by
  simp [line]

end Characters

end Mark

/-! ## The lines of the shapes of elements -/

theorem tagText_none (tag : String) : Xml.tagText tag {} = tag := by simp [Xml.tagText]

theorem tagText_name (name : String) :
    Xml.tagText "entry" (({} : Xml.Attributes).put "name" name)
      = "entry name=\"" ++ Xml.escape name ++ "\"" := by
  apply String.toList_inj.1
  simp [Xml.tagText, Xml.Attributes.put, Xml.putSorted]

theorem lines_leaf (tag text : String) :
    (Node.leaf tag text).lines = [(Mark.leaf tag text).line] := by
  rw [Node.leaf, Node.lines, tagText_none, List.cons.injEq]
  refine ⟨?_, rfl⟩
  apply String.toList_inj.1
  simp [Mark.line, openTag, closeTag]

theorem lines_branch (tag : String) (children : List Node) :
    (Node.branch tag children).lines
      = if children.isEmpty then [(Mark.empty tag).line]
        else (Mark.opening tag).line :: Xml.linesOfAll children ++ [(Mark.closing tag).line] := by
  rw [Node.branch, Node.lines, tagText_none]
  rfl

theorem lines_entry (name : String) (children : List Node) :
    (entry name children).lines
      = if children.isEmpty then [(Mark.emptyEntry name).line]
        else (Mark.entry name).line :: Xml.linesOfAll children
          ++ [(Mark.closing "entry").line] := by
  have hempty : (Mark.emptyEntry name).line
      = "<" ++ ("entry name=\"" ++ Xml.escape name ++ "\"") ++ "/>" := by
    apply String.toList_inj.1
    simp [Mark.line]
  have hopen : (Mark.entry name).line
      = "<" ++ ("entry name=\"" ++ Xml.escape name ++ "\"") ++ ">" := by
    apply String.toList_inj.1
    simp [Mark.line]
  rw [hempty, hopen, ← tagText_name, entry, Node.withAttribute, Node.branch, Node.lines]
  rfl

/-! ## What the reader makes of a mark -/

section Names

variable {t tag : String}

theorem not_mem_bracket (ht : IsName t) : '>' ∉ t.toList := ht.not_mem (by decide)

theorem isName_entry : IsName "entry" := by decide

/-- A tag with its bracket is found at the beginning of no other tag with its bracket. -/
theorem eq_of_tag_append (ht : IsName t) (htag : IsName tag) {xs ys : List Char}
    (h : t.toList ++ '>' :: xs = tag.toList ++ '>' :: ys) : t = tag ∧ xs = ys := by
  obtain ⟨h, hxs⟩ := Chars.append_cons_inj (not_mem_bracket ht) (not_mem_bracket htag) h
  exact ⟨String.toList_inj.1 h, hxs⟩

end Names

namespace Mark

/-- No blank stands at an end of a mark. -/
theorem trim_line (m : Mark) : Text.trim m.line = m.line := by
  have h : ∃ cs, m.line.toList = '<' :: cs ++ ['>'] := by
    cases m with
    | opening tag => exact ⟨tag.toList, by rw [toList_opening]; simp⟩
    | closing tag => exact ⟨'/' :: tag.toList, by rw [toList_closing]; simp⟩
    | empty tag => exact ⟨tag.toList ++ ['/'], by rw [toList_empty]; simp⟩
    | leaf tag text =>
      exact ⟨tag.toList ++ '>' :: (Xml.escapeChars text.toList ++ '<' :: '/' :: tag.toList),
        by rw [toList_leaf]; simp⟩
    | entry name =>
      exact ⟨"entry name=\"".toList ++ Xml.escapeChars name.toList ++ ['"'],
        by rw [toList_entry]; simp⟩
    | emptyEntry name =>
      exact ⟨"entry name=\"".toList ++ Xml.escapeChars name.toList ++ ['"', '/'],
        by rw [toList_emptyEntry]; simp⟩
  obtain ⟨cs, hcs⟩ := h
  apply String.toList_inj.1
  rw [Text.toList_trim, hcs]
  exact (Chars.solid_cons_append (by decide) (by decide) cs).trim_eq

/-- The mark opens an element of a tag, or is one with text. -/
def opensTag (t : String) : Mark → Bool
  | opening tag | leaf tag _ => tag == t
  | _ => false

/-- **A line begins with an opening tag** exactly when it was written with it. -/
theorem opensWith_line {t : String} (ht : IsName t) {m : Mark} (hm : m.Valid) :
    opensWith t m.line = m.opensTag t := by
  obtain ⟨c, cs, hcs, hc⟩ := ht.exists_cons
  have hslash : c ≠ '/' := by
    rintro rfl
    exact absurd hc (by decide)
  rw [opensWith, Bool.eq_iff_iff, Text.beginsWith_iff, toList_openTag]
  cases m with
  | opening tag =>
    rw [toList_opening]
    simp only [List.cons_append, List.append_assoc, List.cons.injEq, true_and, List.nil_append]
    constructor
    · rintro ⟨rest, h⟩
      exact beq_iff_eq.2 (eq_of_tag_append hm.1 ht h).1
    · intro h
      exact ⟨[], by rw [beq_iff_eq.1 h]⟩
  | closing tag =>
    rw [toList_closing, hcs]
    simp [opensTag, hslash.symm]
  | empty tag =>
    rw [toList_empty]
    simp only [List.cons_append, List.append_assoc, List.cons.injEq, true_and, List.nil_append]
    refine ⟨fun ⟨rest, h⟩ => ?_, fun h => absurd h (by simp [opensTag])⟩
    exact absurd h (Chars.append_cons_ne (by decide) (not_mem_bracket hm)
      (ht.not_mem (by decide)) _ _)
  | leaf tag text =>
    rw [toList_leaf]
    simp only [List.cons_append, List.append_assoc, List.cons.injEq, true_and, List.nil_append]
    constructor
    · rintro ⟨rest, h⟩
      exact beq_iff_eq.2 (eq_of_tag_append hm.1 ht h).1
    · intro h
      exact ⟨_, by rw [beq_iff_eq.1 h]⟩
  | entry name | emptyEntry name =>
    first | rw [toList_entry] | rw [toList_emptyEntry]
    simp only [List.cons_append, List.append_assoc, List.cons.injEq, true_and, List.nil_append]
    refine ⟨fun ⟨rest, h⟩ => ?_, fun h => absurd h (by simp [opensTag])⟩
    exact absurd h (Chars.append_cons_ne (by decide) (by decide) (ht.not_mem (by decide)) _ _)

theorem opensWith_opening {tag : String} (htag : IsName tag) (hentry : tag ≠ "entry") :
    opensWith tag (opening tag).line = true :=
  (opensWith_line htag (m := opening tag) ⟨htag, hentry⟩).trans (beq_self_eq_true tag)

/-- The text of a mark that has one and the tag that is asked for. -/
def leafText? (t : String) : Mark → Option String
  | leaf tag text => if tag = t then some text else none
  | _ => none

/-- **The text of an element is read back**, from the element of that tag only. -/
theorem leafText_line {t : String} (ht : IsName t) {m : Mark} (hm : m.Valid) :
    leafText t m.line = m.leafText? t := by
  have hnone : m.opensTag t = false → leafText t m.line = none := by
    intro h
    have hopens := opensWith_line ht hm
    rw [h, opensWith, Text.beginsWith, Option.isSome_eq_false_iff, Option.isNone_iff_eq_none]
      at hopens
    rw [leafText, hopens]
    rfl
  cases m with
  | opening tag =>
    by_cases h : tag = t
    · subst h
      have hrest : Text.withoutPrefix (openTag tag) (opening tag).line = some "" := by
        have := Text.withoutPrefix_append (openTag tag) ""
        rwa [String.append_empty] at this
      have hend : Text.withoutSuffix (closeTag tag) "" = none := by
        rw [Text.withoutSuffix, Option.map_eq_none_iff, toList_closeTag]
        refine Option.eq_none_iff_forall_ne_some.2 fun rest h => ?_
        have := congrArg List.length (Chars.withoutSuffix_eq_some_iff.1 h)
        simp at this
      rw [leafText, hrest, Option.bind_some, hend]
      rfl
    · exact hnone (by simpa [opensTag] using h)
  | leaf tag text =>
    by_cases h : tag = t
    · subst h
      rw [leafText, line, String.append_assoc, Text.withoutPrefix_append, Option.bind_some,
        Text.withoutSuffix_append, Option.map_some, Xml.unescape_escape, leafText?, if_pos rfl]
    · rw [hnone (by simpa [opensTag] using h), leafText?, if_neg h]
  | closing _ | empty _ | entry _ | emptyEntry _ => exact hnone rfl

/-- The name of the entry that a mark opens. -/
def entryName? : Mark → Option String
  | entry name | emptyEntry name => some name
  | _ => none

theorem entryHead_toList : entryHead.toList = '<' :: ("entry".toList ++ [' ']) := by decide

theorem withoutPrefix_entryHead_of_tag {tag : String} (htag : IsName tag) {c : Char} (hc : c ≠ ' ')
    (hentry : c ∉ "entry".toList) (xs : List Char) :
    Chars.withoutPrefix entryHead.toList ('<' :: (tag.toList ++ c :: xs)) = none := by
  refine Chars.withoutPrefix_eq_none_of_ne fun rest h => ?_
  rw [entryHead_toList, List.cons_append, List.append_assoc, List.cons.injEq] at h
  exact Chars.append_cons_ne hc (htag.not_mem (by decide)) hentry _ _ h.2

/-- The name of an entry goes up to the quote behind it, whatever follows. -/
theorem entryName_of_quoted {s value : String} (htrim : Text.trim s = s)
    (hquote : '"' ∉ value.toList) (tail : String)
    (h : s = entryHead ++ ("name=\"" ++ (value ++ String.singleton '"' ++ tail))) :
    entryName s = some (Xml.unescape value) := by
  rw [entryName, htrim, h, Text.withoutPrefix_append, Option.bind_some, Text.cutAt_append,
    Option.bind_some]
  simp only [Text.cut_append hquote, Option.map_some]

theorem entryName_of_eq {s name : String} (htrim : Text.trim s = s) (tail : String)
    (h : s = entryHead ++ ("name=\"" ++ (Xml.escape name ++ String.singleton '"' ++ tail))) :
    entryName s = some name := by
  have hquote : '"' ∉ (Xml.escape name).toList := by
    rw [Xml.toList_escape]
    exact Xml.not_mem_escapeChars (by decide) _
  rw [entryName_of_quoted htrim hquote tail h, Xml.unescape_escape]

/-- **The name of an entry is read back**, from its mark only. -/
theorem entryName_line {m : Mark} (hm : m.Valid) : entryName m.line = m.entryName? := by
  have hnone : Chars.withoutPrefix entryHead.toList m.line.toList = none →
      entryName m.line = none := by
    intro h
    rw [entryName, trim_line, Text.withoutPrefix, h]
    rfl
  cases m with
  | opening tag =>
    refine hnone ?_
    rw [toList_opening]
    exact withoutPrefix_entryHead_of_tag hm.1 (by decide) (by decide) _
  | closing tag =>
    refine hnone ?_
    rw [toList_closing]
    exact Chars.withoutPrefix_eq_none_of_ne fun rest h => absurd h (by simp [entryHead])
  | empty tag =>
    refine hnone ?_
    rw [toList_empty]
    exact withoutPrefix_entryHead_of_tag hm (by decide) (by decide) _
  | leaf tag text =>
    refine hnone ?_
    rw [toList_leaf]
    exact withoutPrefix_entryHead_of_tag hm.1 (by decide) (by decide) _
  | entry name =>
    refine entryName_of_eq (trim_line _) ">" ?_
    apply String.toList_inj.1
    simp [toList_entry, entryHead]
  | emptyEntry name =>
    refine entryName_of_eq (trim_line _) "/>" ?_
    apply String.toList_inj.1
    simp [toList_emptyEntry, entryHead]

/-! ### Depth -/

/-- The mark is an entry that is complete in one tag. -/
def isEmptyEntry : Mark → Bool
  | emptyEntry _ => true
  | _ => false

/-- How many entries a mark opens and leaves open. -/
def opened : Mark → Nat
  | entry _ => 1
  | _ => 0

/-- How many entries a mark closes. -/
def closed : Mark → Nat
  | closing tag => if tag = "entry" then 1 else 0
  | _ => 0

theorem isSelfClosed_entry (name : String) : isSelfClosed (entry name).line = false := by
  rw [isSelfClosed, Bool.eq_false_iff, Ne, Text.endsIn_iff, toList_entry]
  rintro ⟨rest, h⟩
  have := congrArg List.reverse h
  simp at this

theorem isSelfClosed_emptyEntry (name : String) :
    isSelfClosed (emptyEntry name).line = true := by
  rw [isSelfClosed, Text.endsIn_iff, toList_emptyEntry]
  exact ⟨'<' :: ("entry".toList ++ ' ' :: ("name=\"".toList
    ++ (Xml.escapeChars name.toList ++ ['"']))), by simp⟩

theorem not_mem_escape_lt (s : String) : '<' ∉ Xml.escapeChars s.toList :=
  Xml.not_mem_escapeChars (by decide) _

/-- No piece that goes on with a letter or a slash begins where a tag does not go on so. -/
theorem withoutPrefix_slash {tag : String} (htag : IsName tag) (p xs : List Char) :
    Chars.withoutPrefix ('/' :: p) (tag.toList ++ xs) = none := by
  obtain ⟨c, cs, hcs, hc⟩ := htag.exists_cons
  have hslash : ¬ '/' = c := by
    rintro rfl
    exact absurd hc (by decide)
  rw [hcs, List.cons_append, Chars.withoutPrefix, if_neg hslash]

theorem withoutPrefix_entry {tag : String} (htag : IsName tag) {c : Char} (hc : c ≠ ' ')
    (hentry : c ∉ "entry".toList) (xs : List Char) :
    Chars.withoutPrefix ("entry".toList ++ [' ']) (tag.toList ++ c :: xs) = none := by
  refine Chars.withoutPrefix_eq_none_of_ne fun rest h => ?_
  rw [List.append_assoc] at h
  exact Chars.append_cons_ne hc (htag.not_mem (by decide)) hentry _ _ h

/-- Where the head of an entry is found in a mark: at its beginning, and in what follows the text of
a leaf. -/
theorem occurrences_entryHead {as : List Char} (ha : '<' ∉ as) (bs : List Char) :
    Chars.occurrences entryHead.toList ('<' :: (as ++ bs))
      = (if (Chars.withoutPrefix ("entry".toList ++ [' ']) (as ++ bs)).isSome then 1 else 0)
        + Chars.occurrences entryHead.toList bs := by
  rw [entryHead_toList]
  exact Chars.occurrences_cons_append ha _ _

theorem occurrences_closeTag {as : List Char} (ha : '<' ∉ as) (bs : List Char) :
    Chars.occurrences (closeTag "entry").toList ('<' :: (as ++ bs))
      = (if (Chars.withoutPrefix ('/' :: ("entry".toList ++ ['>'])) (as ++ bs)).isSome then 1 else 0)
        + Chars.occurrences (closeTag "entry").toList bs := by
  rw [toList_closeTag]
  exact Chars.occurrences_cons_append ha _ _

theorem not_mem_lt {tag : String} (htag : IsName tag) {cs : List Char} (hcs : '<' ∉ cs) :
    '<' ∉ tag.toList ++ cs := by
  rw [List.mem_append, not_or]
  exact ⟨htag.not_mem (by decide), hcs⟩

/-- A mark of no entry has the head of no entry in it. -/
theorem occurrences_entryHead_tag {tag : String} (htag : IsName tag) {c : Char} (hc : c ≠ ' ')
    (hentry : c ∉ "entry".toList) (cs : List Char) (hcs : '<' ∉ c :: cs) (bs : List Char) :
    Chars.occurrences entryHead.toList ('<' :: (tag.toList ++ c :: cs ++ bs))
      = Chars.occurrences entryHead.toList bs := by
  rw [occurrences_entryHead (not_mem_lt htag hcs), List.append_assoc, List.cons_append,
    withoutPrefix_entry htag hc hentry]
  exact Nat.zero_add _

theorem occurrences_closeTag_tag {tag : String} (htag : IsName tag) (cs : List Char)
    (hcs : '<' ∉ cs) (bs : List Char) :
    Chars.occurrences (closeTag "entry").toList ('<' :: (tag.toList ++ cs ++ bs))
      = Chars.occurrences (closeTag "entry").toList bs := by
  rw [occurrences_closeTag (not_mem_lt htag hcs), List.append_assoc, withoutPrefix_slash htag]
  exact Nat.zero_add _

theorem occurrences_entryHead_closing {tag : String} (htag : IsName tag) :
    Chars.occurrences entryHead.toList (closing tag).line.toList = 0 := by
  have hlt : '<' ∉ '/' :: (tag.toList ++ ['>']) := by
    rw [List.mem_cons, not_or]
    exact ⟨by decide, not_mem_lt htag (by decide)⟩
  have := occurrences_entryHead hlt []
  rw [List.append_nil] at this
  rw [toList_closing, this]
  simp [Chars.withoutPrefix, Chars.occurrences]

theorem occurrences_closeTag_closing {tag : String} (htag : IsName tag) :
    Chars.occurrences (closeTag "entry").toList (closing tag).line.toList
      = if tag = "entry" then 1 else 0 := by
  have hlt : '<' ∉ '/' :: (tag.toList ++ ['>']) := by
    rw [List.mem_cons, not_or]
    exact ⟨by decide, not_mem_lt htag (by decide)⟩
  have := occurrences_closeTag hlt []
  rw [List.append_nil] at this
  rw [toList_closing, this, Chars.withoutPrefix, if_pos rfl]
  split
  · next h =>
    obtain ⟨rest, hrest⟩ := Option.isSome_iff_exists.1 h
    have heq := Chars.withoutPrefix_eq_some_iff.1 hrest
    rw [List.append_assoc] at heq
    rw [if_pos (eq_of_tag_append htag (by decide) heq).1]
    rfl
  · next h =>
    rw [if_neg]
    · rfl
    · rintro rfl
      exact h (by decide)

/-- The tag of an entry has the head of one entry in it, and closes none. -/
theorem occurrences_entryTag {cs : List Char} (hcs : '<' ∉ cs) (bs : List Char) :
    Chars.occurrences entryHead.toList
        ('<' :: ("entry".toList ++ ' ' :: ("name=\"".toList ++ cs) ++ bs))
        = 1 + Chars.occurrences entryHead.toList bs
      ∧ Chars.occurrences (closeTag "entry").toList
        ('<' :: ("entry".toList ++ ' ' :: ("name=\"".toList ++ cs) ++ bs))
        = Chars.occurrences (closeTag "entry").toList bs := by
  have hlt : '<' ∉ ' ' :: ("name=\"".toList ++ cs) := by
    simp only [List.mem_cons, List.mem_append, not_or]
    exact ⟨by decide, by decide, hcs⟩
  have hfound (ds : List Char) :
      Chars.withoutPrefix ("entry".toList ++ [' ']) ("entry".toList ++ ' ' :: ds) = some ds :=
    Chars.withoutPrefix_eq_some_iff.2 (by rw [List.append_assoc, List.singleton_append])
  rw [occurrences_entryHead (not_mem_lt isName_entry hlt), occurrences_closeTag_tag isName_entry _ hlt,
    List.append_assoc, List.cons_append, hfound]
  exact ⟨rfl, rfl⟩

/-- The line of an entry has the head of one entry in it, and closes none. -/
theorem occurrences_entry (name : String) {tail : List Char} (htail : '<' ∉ tail) :
    Chars.occurrences entryHead.toList ('<' :: ("entry".toList ++ ' ' :: ("name=\"".toList
        ++ (Xml.escapeChars name.toList ++ tail)))) = 1
      ∧ Chars.occurrences (closeTag "entry").toList ('<' :: ("entry".toList ++ ' ' ::
        ("name=\"".toList ++ (Xml.escapeChars name.toList ++ tail)))) = 0 := by
  have hlt : '<' ∉ Xml.escapeChars name.toList ++ tail := by
    rw [List.mem_append, not_or]
    exact ⟨not_mem_escape_lt name, htail⟩
  have htag := occurrences_entryTag hlt []
  rwa [List.append_nil] at htag

/-- **What a mark opens is counted**, and no text in it. -/
theorem opens_line {m : Mark} (hm : m.Valid) : opens m.line = m.opened := by
  have hzero : Chars.occurrences entryHead.toList m.line.toList = 0 → opens m.line = 0 := by
    intro h
    rw [opens, Text.occurrences, h, Nat.zero_sub]
  cases m with
  | opening tag =>
    refine hzero ?_
    rw [toList_opening]
    simpa [Chars.occurrences] using
      occurrences_entryHead_tag hm.1 (c := '>') (by decide) (by decide) [] (by decide) []
  | closing tag => exact hzero (occurrences_entryHead_closing hm)
  | empty tag =>
    refine hzero ?_
    rw [toList_empty]
    simpa [Chars.occurrences] using
      occurrences_entryHead_tag hm (c := '/') (by decide) (by decide) ['>'] (by decide) []
  | leaf tag text =>
    refine hzero ?_
    have hlt : '<' ∉ '>' :: Xml.escapeChars text.toList := by
      rw [List.mem_cons, not_or]
      exact ⟨by decide, not_mem_escape_lt text⟩
    have := occurrences_entryHead_tag hm.1 (by decide) (by decide) _ hlt (closing tag).line.toList
    rw [occurrences_entryHead_closing hm.1, toList_closing] at this
    rw [toList_leaf, ← this]
    simp
  | entry name =>
    rw [opens, Text.occurrences, toList_entry, (occurrences_entry name (by decide)).1,
      isSelfClosed_entry]
    rfl
  | emptyEntry name =>
    have hbegins : Text.beginsWith entryHead (emptyEntry name).line = true :=
      Text.beginsWith_iff.2 ⟨_, by rw [toList_emptyEntry]; rfl⟩
    rw [opens, Text.occurrences, toList_emptyEntry, (occurrences_entry name (by decide)).1,
      isSelfClosed_emptyEntry, hbegins]
    rfl

/-- **What a mark closes is counted**, and no text in it. -/
theorem closes_line {m : Mark} (hm : m.Valid) : closes m.line = m.closed := by
  rw [closes, Text.occurrences]
  cases m with
  | opening tag =>
    have := occurrences_closeTag_tag hm.1 ['>'] (by decide) []
    rw [toList_opening, ← List.append_nil (_ ++ _), this]
    rfl
  | closing tag => exact occurrences_closeTag_closing hm
  | empty tag =>
    have := occurrences_closeTag_tag hm ['/', '>'] (by decide) []
    rw [toList_empty, ← List.append_nil (_ ++ _), this]
    rfl
  | leaf tag text =>
    have hlt : '<' ∉ '>' :: Xml.escapeChars text.toList := by
      rw [List.mem_cons, not_or]
      exact ⟨by decide, not_mem_escape_lt text⟩
    have := occurrences_closeTag_tag hm.1 _ hlt (closing tag).line.toList
    rw [occurrences_closeTag_closing hm.1, if_neg hm.2, toList_closing] at this
    have hclosed : (leaf tag text).closed = 0 := rfl
    rw [toList_leaf, hclosed, ← this]
    simp
  | entry name =>
    rw [toList_entry]
    exact (occurrences_entry name (by decide)).2
  | emptyEntry name =>
    rw [toList_emptyEntry]
    exact (occurrences_entry name (by decide)).2

/-- How many entries are open after a mark. -/
theorem depthAfter_line {m : Mark} (hm : m.Valid) (depth : Nat) :
    depthAfter depth m.line = depth + m.opened - m.closed := by
  rw [depthAfter, opens_line hm, closes_line hm]

/-! ### Areas -/

/-- The mark is the opening tag of a tag. -/
def isOpening (t : String) : Mark → Bool
  | opening tag => tag == t
  | _ => false

/-- The mark is the closing tag of a tag. -/
def isClosing (t : String) : Mark → Bool
  | closing tag => tag == t
  | _ => false

theorem line_eq_openTag {t : String} (ht : IsName t) {m : Mark} (hm : m.Valid) :
    (m.line == openTag t) = m.isOpening t := by
  have hopens : m.line = openTag t → m.opensTag t = true := by
    intro h
    rw [← opensWith_line ht hm, h, opensWith, Text.beginsWith_iff]
    exact ⟨[], (List.append_nil _).symm⟩
  cases m with
  | opening tag =>
    rw [Bool.eq_iff_iff, beq_iff_eq]
    exact ⟨hopens, fun h => congrArg openTag (beq_iff_eq.1 h)⟩
  | leaf tag text =>
    refine beq_eq_false_iff_ne.2 fun h => ?_
    have htag : tag = t := beq_iff_eq.1 (hopens h)
    have hlength := congrArg (fun s => s.toList.length) h
    simp [toList_leaf, toList_openTag, htag] at hlength
  | closing _ | empty _ | entry _ | emptyEntry _ =>
    exact beq_eq_false_iff_ne.2 fun h => absurd (hopens h) (by simp [opensTag])

theorem tag_append_ne_slash {tag : String} (htag : IsName tag) (xs ys : List Char) :
    tag.toList ++ xs ≠ '/' :: ys := by
  intro h
  have hfound : Chars.withoutPrefix ('/' :: ys) (tag.toList ++ xs) = some [] :=
    Chars.withoutPrefix_eq_some_iff.2 (by rw [h, List.append_nil])
  rw [withoutPrefix_slash htag] at hfound
  cases hfound

/-- The mark is an element of a tag with nothing in it. -/
def isEmpty (t : String) : Mark → Bool
  | empty tag => tag == t
  | _ => false

theorem line_eq_emptyTag {t : String} (ht : IsName t) {m : Mark} (hm : m.Valid) :
    (m.line == emptyTag t) = m.isEmpty t := by
  have hlist : (emptyTag t).toList = '<' :: (t.toList ++ '/' :: ['>']) := toList_empty t
  -- what follows the tag is no slash
  have hnext {tag : String} (htag : IsName tag) {c : Char} (hc : c ≠ '/') (hname : c ∉ t.toList)
      {xs : List Char} (h : m.line.toList = '<' :: (tag.toList ++ c :: xs)) :
      (m.line == emptyTag t) = false := by
    rw [beq_eq_false_iff_ne]
    intro heq
    rw [heq, hlist, List.cons.injEq] at h
    exact Chars.append_cons_ne hc (htag.not_mem (by decide)) hname _ _ h.2.symm
  cases m with
  | opening tag => exact hnext hm.1 (by decide) (not_mem_bracket ht) (toList_opening tag)
  | closing tag =>
    refine beq_eq_false_iff_ne.2 fun heq => ?_
    have h := congrArg String.toList heq
    rw [toList_closing, hlist, List.cons.injEq] at h
    exact tag_append_ne_slash ht _ _ h.2.symm
  | empty tag =>
    rw [isEmpty, Bool.eq_iff_iff, beq_iff_eq, beq_iff_eq]
    refine ⟨fun h => ?_, congrArg emptyTag⟩
    have h := congrArg String.toList h
    rw [toList_empty, hlist, List.cons.injEq] at h
    exact String.toList_inj.1
      (Chars.append_cons_inj (IsName.not_mem hm (by decide)) (ht.not_mem (by decide)) h.2).1
  | leaf tag text => exact hnext hm.1 (by decide) (not_mem_bracket ht) (toList_leaf tag text)
  | entry name =>
    exact hnext isName_entry (by decide) (ht.not_mem (by decide)) (toList_entry name)
  | emptyEntry name =>
    exact hnext isName_entry (by decide) (ht.not_mem (by decide)) (toList_emptyEntry name)

theorem line_eq_closeTag {t : String} (ht : IsName t) {m : Mark} (hm : m.Valid) :
    (m.line == closeTag t) = m.isClosing t := by
  have hslash {tag : String} (htag : IsName tag) {xs : List Char}
      (h : m.line.toList = '<' :: (tag.toList ++ xs)) : (m.line == closeTag t) = false := by
    rw [beq_eq_false_iff_ne]
    intro heq
    rw [heq, toList_closeTag, List.cons.injEq] at h
    exact tag_append_ne_slash htag _ _ h.2.symm
  cases m with
  | opening tag => exact hslash hm.1 (toList_opening tag)
  | closing tag =>
    rw [isClosing, Bool.eq_iff_iff, beq_iff_eq, beq_iff_eq]
    refine ⟨fun h => ?_, congrArg closeTag⟩
    have h := congrArg String.toList h
    rw [toList_closing, toList_closeTag, List.cons.injEq, List.cons.injEq] at h
    exact (eq_of_tag_append hm ht h.2.2).1
  | empty tag => exact hslash hm (toList_empty tag)
  | leaf tag text => exact hslash hm.1 (toList_leaf tag text)
  | entry name => exact hslash isName_entry (toList_entry name)
  | emptyEntry name => exact hslash isName_entry (toList_emptyEntry name)

/-- The tag of every area is a name, and none is that of an entry. -/
theorem isName_tag (a : Area) : IsName a.tag ∧ a.tag ≠ "entry" := by
  cases a <;> decide

theorem opened?_line {m : Mark} (hm : m.Valid) :
    Area.opened? m.line = Area.all.find? fun a => m.isOpening a.tag := by
  rw [Area.opened?]
  congr 1
  funext a
  exact line_eq_openTag (isName_tag a).1 hm

theorem isClosedBy_line (a : Area) {m : Mark} (hm : m.Valid) :
    a.isClosedBy m.line = m.isClosing a.tag :=
  line_eq_closeTag (isName_tag a).1 hm

/-- The line of an entry that is left open closes none. -/
theorem holds_closeTag_entry (name : String) :
    Text.holds (closeTag "entry") (entry name).line = false := by
  have hlt : '<' ∉ "entry".toList ++ ' ' :: ("name=\"".toList
      ++ (Xml.escapeChars name.toList ++ ['"', '>'])) := by
    simp only [List.mem_cons, List.mem_append, not_or]
    exact ⟨by decide, by decide, by decide, not_mem_escape_lt name, by decide⟩
  rw [Text.holds, Text.cutAt, Option.isSome_map, toList_closeTag, toList_entry, Chars.cutAt,
    Chars.cutAt_eq_none_of_not_mem hlt]
  rfl

/-- The opening tag of a list holds no member. -/
theorem holds_openTag_opening {t tag : String} (ht : IsName t) (htag : IsName tag)
    (hne : tag ≠ t) : Text.holds (openTag t) (opening tag).line = false := by
  have hlt : '<' ∉ tag.toList ++ ['>'] := not_mem_lt htag (by decide)
  have hbegin : Chars.withoutPrefix ('<' :: (t.toList ++ ['>'])) ('<' :: (tag.toList ++ ['>']))
      = none := by
    refine Chars.withoutPrefix_eq_none_of_ne fun rest h => ?_
    rw [List.cons_append, List.append_assoc, List.cons.injEq] at h
    exact hne (eq_of_tag_append htag ht h.2).1
  rw [Text.holds, Text.cutAt, Option.isSome_map, toList_openTag, toList_opening, Chars.cutAt, hbegin,
    Chars.cutAt_eq_none_of_not_mem hlt]
  rfl

end Mark

end PanOs

end FirewallConfig
