import FirewallConfig.Proofs.PanOs.Mark
import FirewallConfig.Proofs.Xml.InTurn

/-!
# Proofs/PanOs/Spelling — what a line with a spelled text shows

A text is spelled with entities where it is written, as the content of an element or as the name of
an entry.  The reader gets it back from either line, whatever it holds, and the text never counts
where tags are counted: a tag begins at a bracket, and the spelling has none.
-/

namespace FirewallConfig

namespace Chars

/-- A piece that a character ends at the latest is looked for up to that character. -/
theorem isSome_withoutPrefix_append_cons {p : List Char} {e : Char} (he : e ∉ p.dropLast)
    (as xs : List Char) :
    (withoutPrefix p (as ++ e :: xs)).isSome = (withoutPrefix p (as ++ [e])).isSome := by
  induction p generalizing as with
  | nil => rfl
  | cons x p ih =>
    cases as with
    | nil =>
      rw [List.nil_append, List.nil_append, withoutPrefix, withoutPrefix]
      split
      · next hx =>
        cases p with
        | nil => rfl
        | cons y p => exact absurd (hx ▸ List.mem_cons_self) he
      · rfl
    | cons a as =>
      rw [List.cons_append, List.cons_append, withoutPrefix, withoutPrefix]
      split
      · cases p with
        | nil => rfl
        | cons y p => exact ih (fun h => he (List.mem_cons_of_mem _ h)) as
      · rfl

/-- **What stands between two tags does not count**, if no tag begins in it. -/
theorem occurrences_append_cons_append {c e : Char} {p bs : List Char} (hce : c ≠ e)
    (he : e ∉ (c :: p).dropLast) (hbs : c ∉ bs) (as cs : List Char) :
    occurrences (c :: p) (as ++ e :: (bs ++ c :: cs))
      = occurrences (c :: p) (as ++ [e]) + occurrences (c :: p) (c :: cs) := by
  induction as with
  | nil =>
    have hc : c ∉ [e] := by simpa using hce
    have hbehind : c ∉ e :: bs := by simp [hce, hbs]
    have hlast : occurrences (c :: p) [e] = 0 := occurrences_append_of_not_mem hc p []
    rw [List.nil_append, List.nil_append, hlast, Nat.zero_add]
    exact occurrences_append_of_not_mem hbehind p (c :: cs)
  | cons a as ih =>
    have hfirst := isSome_withoutPrefix_append_cons he (a :: as) (bs ++ c :: cs)
    rw [List.cons_append, List.cons_append] at hfirst
    rw [List.cons_append, List.cons_append, occurrences, occurrences, hfirst, ih, Nat.add_assoc]

end Chars

namespace Text

/-- A short end is looked for in what stands last. -/
theorem endsIn_append {p t : String} (h : p.toList.length ≤ t.toList.length) (s : String) :
    endsIn p (s ++ t) = endsIn p t := by
  have hends (u : String) : endsIn p u = true ↔ p.toList <:+ u.toList := by
    rw [endsIn_iff]
    exact exists_congr fun _ => eq_comm
  rw [Bool.eq_iff_iff, hends, hends, String.toList_append]
  exact ⟨fun hp => List.suffix_of_suffix_length_le hp (List.suffix_append _ _) h,
    fun hp => hp.trans (List.suffix_append _ _)⟩

end Text

namespace PanOs

/-- The text of an element does not count where tags are counted. -/
theorem occurrences_leaf {p : List Char} (hp : '>' ∉ ('<' :: p).dropLast) (tag s : String) :
    Chars.occurrences ('<' :: p) (Mark.leaf tag s).line.toList
      = Chars.occurrences ('<' :: p) (Mark.opening tag).line.toList
        + Chars.occurrences ('<' :: p) (Mark.closing tag).line.toList := by
  have hcount := Chars.occurrences_append_cons_append (by decide) hp (Mark.not_mem_escape_lt s)
    ('<' :: tag.toList) ('/' :: (tag.toList ++ ['>']))
  rw [Mark.toList_leaf, Mark.toList_opening, Mark.toList_closing]
  exact hcount

/-- What a line with text opens does not depend on the text. -/
theorem opens_leaf (tag s : String) :
    opens (Mark.leaf tag s).line = opens (Mark.leaf tag "").line := by
  have hcount : Text.occurrences entryHead (Mark.leaf tag s).line
      = Text.occurrences entryHead (Mark.leaf tag "").line := by
    have hleaf := occurrences_leaf (p := "entry ".toList) (by decide) tag
    exact (hleaf s).trans (hleaf "").symm
  have hbegins : Text.beginsWith entryHead (Mark.leaf tag s).line
      = Text.beginsWith entryHead (Mark.leaf tag "").line := by
    have hhead := Chars.isSome_withoutPrefix_append_cons (p := entryHead.toList) (e := '>')
      (by decide) ('<' :: tag.toList)
    rw [Text.beginsWith, Text.beginsWith, Text.withoutPrefix, Text.withoutPrefix, Option.isSome_map,
      Option.isSome_map, Mark.toList_leaf, Mark.toList_leaf]
    exact (hhead _).trans (hhead _).symm
  have hends : isSelfClosed (Mark.leaf tag s).line = isSelfClosed (Mark.leaf tag "").line := by
    have hlength : "/>".toList.length ≤ (closeTag tag).toList.length := by
      rw [toList_closeTag]
      simp
    exact (Text.endsIn_append hlength _).trans (Text.endsIn_append hlength _).symm
  rw [opens, opens, hcount, hbegins, hends]

/-- What a line with text closes does not depend on the text. -/
theorem closes_leaf (tag s : String) :
    closes (Mark.leaf tag s).line = closes (Mark.leaf tag "").line := by
  have hleaf := occurrences_leaf (p := "/entry>".toList) (by decide) tag
  exact (hleaf s).trans (hleaf "").symm

/-- The text between the tags of an element is read back, whatever the tag. -/
theorem leafText_leaf (tag s : String) : leafText tag (Mark.leaf tag s).line = some s := by
  rw [leafText, Mark.line, String.append_assoc, Text.withoutPrefix_append, Option.bind_some,
    Text.withoutSuffix_append, Option.map_some, Xml.unescape_escape]

/-- **A text is read back from the line that it is spelled in**, whatever it holds: the entities of
its spelling may be read in turn or in one pass, it is the text of the element or the name of the
entry that was written, and no tag is counted in it. -/
theorem spelling_read_back (s tag : String) :
    (Xml.unescapeInTurn (Xml.escape s) = s ∧ Xml.unescape (Xml.escape s) = s)
      ∧ leafText tag (openTag tag ++ Xml.escape s ++ closeTag tag) = some s
      ∧ (entryName ("<entry name=\"" ++ Xml.escape s ++ "\">") = some s
          ∧ entryName ("<entry name=\"" ++ Xml.escape s ++ "\"/>") = some s)
      ∧ (opens (openTag tag ++ Xml.escape s ++ closeTag tag) = opens (openTag tag ++ closeTag tag)
          ∧ closes (openTag tag ++ Xml.escape s ++ closeTag tag)
            = closes (openTag tag ++ closeTag tag))
      ∧ (opens ("<entry name=\"" ++ Xml.escape s ++ "\">") = 1
          ∧ closes ("<entry name=\"" ++ Xml.escape s ++ "\">") = 0)
      ∧ (opens ("<entry name=\"" ++ Xml.escape s ++ "\"/>") = 0
          ∧ closes ("<entry name=\"" ++ Xml.escape s ++ "\"/>") = 0) := by
  have hentry : (Mark.entry s).line = "<entry name=\"" ++ Xml.escape s ++ "\">" := rfl
  have hempty : (Mark.emptyEntry s).line = "<entry name=\"" ++ Xml.escape s ++ "\"/>" := rfl
  have hleaf : (Mark.leaf tag s).line = openTag tag ++ Xml.escape s ++ closeTag tag := rfl
  have hblank : (Mark.leaf tag "").line = openTag tag ++ closeTag tag :=
    congrArg (· ++ closeTag tag) String.append_empty
  rw [← hentry, ← hempty, ← hleaf, ← hblank]
  refine ⟨⟨?_, Xml.unescape_escape s⟩, leafText_leaf tag s,
    ⟨Mark.entryName_line trivial, Mark.entryName_line trivial⟩, ⟨opens_leaf tag s, closes_leaf tag s⟩,
    ⟨Mark.opens_line trivial, Mark.closes_line trivial⟩,
    ⟨Mark.opens_line trivial, Mark.closes_line trivial⟩⟩
  rw [Xml.unescapeInTurn_eq, Xml.unescape_escape]

end PanOs

end FirewallConfig
