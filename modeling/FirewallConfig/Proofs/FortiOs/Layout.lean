import FirewallConfig.Proofs.FortiOs.Line
import FirewallConfig.Proofs.Text.Lines
import Mathlib.Data.List.Infix

/-!
# Proofs/FortiOs/Layout — sections are read back from any layout

A forest of sections is written one directive a line, every operand in quotes.  How far a line is
indented does not count, and lines that are blank or begin with `#` may stand anywhere.  The last
lines of a text only end what is open, and so does the end of the text: wherever they are broken
off, the same sections are read (`readForest_layout`).
-/

namespace FirewallConfig.FortiOs

/-! ## How a directive is written -/

namespace Directive

/-- The word that a directive begins with. -/
def keyword : Directive → String
  | .config _ => "config"
  | .edit _ => "edit"
  | .set _ => "set"
  | .next => "next"
  | .finish => "end"
  | .other => ""

/-- The words behind the keyword. -/
def operands : Directive → List String
  | .config path => [path]
  | .edit name => [name]
  | .set s => s.key :: s.values
  | .next | .finish | .other => []

/-- The directive as it is written, every operand in quotes. -/
def text (d : Directive) : String := Text.unwords (d.keyword :: d.operands.map quoted)

/-- No operand holds a line feed. -/
def IsPlain (d : Directive) : Prop := ∀ w ∈ d.operands, Text.OneLine w

instance (d : Directive) : Decidable d.IsPlain :=
  inferInstanceAs (Decidable (∀ w ∈ d.operands, Text.OneLine w))

theorem IsPlain.oneLine_text {d : Directive} (h : d.IsPlain) : Text.OneLine d.text := by
  refine Text.oneLine_unwords (List.forall_mem_cons.2 ⟨?_, ?_⟩)
  · rw [keyword.eq_def]
    split <;> decide
  · exact List.forall_mem_map.2 fun w hw => Value.oneLine_spelling (v := .quoted w) (h w hw)

end Directive

/-- **A directive that is written is read back.** -/
theorem directive_text (d : Directive) : directive d.text = d := by
  have hindent (ws : List String) : Text.unwords ws = indent 0 ws := by
    rw [indent, String.pushn_eq_repeat_push]
    exact String.empty_append.symm
  rw [Directive.text, hindent]
  cases d with
  | config path =>
    have hpath : (Value.quoted path).IsPath := by
      have hread : readValues [.quoted path] = [path] := readValues_quoted [path]
      rw [Value.IsPath, hread]
      exact ⟨List.cons_ne_nil _ _, String.intercalate_singleton⟩
    exact directive_config hpath 0
  | edit name =>
    have hname : (Value.quoted name).IsWord := trivial
    exact directive_edit hname 0
  | set s =>
    have hline : indent 0 ("set" :: (s.key :: s.values).map quoted)
        = Setting.line 0 ⟨.quoted s.key, s.values.map .quoted⟩ := by
      rw [Setting.line, List.map_map]
      rfl
    have hread := directive_line (s := ⟨.quoted s.key, s.values.map .quoted⟩) trivial 0
    refine (congrArg directive hline).trans (hread.trans ?_)
    rw [Setting.readBack, readValues_quoted]
    rfl
  | next => exact directive_next 0
  | finish => exact directive_end 0
  | other => exact directive_empty

/-! ## Lines with blanks around what they say -/

/-- The text is made of blanks, and no line ends in it. -/
def IsSpace (s : String) : Prop := Text.isAllBlank s = true ∧ Text.OneLine s

instance (s : String) : Decidable (IsSpace s) :=
  inferInstanceAs (Decidable (Text.isAllBlank s = true ∧ Text.OneLine s))

theorem IsSpace.of_isPrefix {s t : String} (ht : IsSpace t) (hs : s.toList <+: t.toList) :
    IsSpace s :=
  ⟨List.all_eq_true.2 fun c hc => List.all_eq_true.1 ht.1 c (hs.subset hc),
    ht.2.of_subset hs.subset⟩

/-- The line holds the text, with blanks around it. -/
def Pads (line text : String) : Prop :=
  ∃ before after : String, IsSpace before ∧ IsSpace after ∧ line = before ++ text ++ after

/-- The line is blank, or a remark: it says nothing. -/
def IsIdle (line : String) : Prop :=
  ∃ text, Pads line text ∧ Text.OneLine text ∧ (text = "" ∨ Text.beginsWith "#" text = true)

theorem Pads.oneLine {line text : String} (h : Pads line text) (htext : Text.OneLine text) :
    Text.OneLine line := by
  obtain ⟨before, after, hbefore, hafter, rfl⟩ := h
  exact Text.oneLine_append.2 ⟨Text.oneLine_append.2 ⟨hbefore.2, htext⟩, hafter.2⟩

/-- Blanks around a text do not count. -/
theorem Pads.directive_eq {line text : String} (h : Pads line text) :
    directive line = directive text := by
  obtain ⟨before, after, hbefore, hafter, rfl⟩ := h
  have htrim : Text.trim (before ++ text ++ after) = Text.trim text := by
    apply String.toList_inj.1
    rw [Text.toList_trim, Text.toList_trim, String.toList_append, String.toList_append,
      Chars.trim_append_of_forall_blank (List.all_eq_true.1 hafter.1),
      Chars.trim_append_of_blank (List.all_eq_true.1 hbefore.1)]
  rw [directive, htrim, directive]

/-- What is left of a line, wherever it is broken off, holds a beginning of its text. -/
theorem Pads.of_isPrefix {line text l : String} (h : Pads line text)
    (hl : l.toList <+: line.toList) :
    ∃ left, left.toList <+: text.toList ∧ Pads l left := by
  obtain ⟨before, after, hbefore, hafter, rfl⟩ := h
  have hempty : IsSpace "" := by decide
  rw [String.toList_append, String.toList_append] at hl
  rcases Chars.prefix_append_cases hl with hl | ⟨rest, hrest, hl⟩
  · rcases Chars.prefix_append_cases hl with hl | ⟨rest, hrest, hl⟩
    · exact ⟨"", List.nil_prefix, l, "", hbefore.of_isPrefix hl, hempty, by simp⟩
    · refine ⟨String.ofList rest, by simpa using hl, before, "", hbefore, hempty, ?_⟩
      exact String.toList_inj.1 (by simpa using hrest)
  · refine ⟨text, List.prefix_rfl, before, String.ofList rest, hbefore, ?_, ?_⟩
    · exact hafter.of_isPrefix (by simpa using hl)
    · exact String.toList_inj.1 (by simpa using hrest)

theorem IsIdle.directive_eq {line : String} (h : IsIdle line) : directive line = .other := by
  obtain ⟨text, hpads, -, rfl | hremark⟩ := h
  · exact hpads.directive_eq.trans directive_empty
  · exact hpads.directive_eq.trans (directive_remark (Text.beginsWith_iff.1 hremark))

theorem IsIdle.of_isPrefix {line l : String} (h : IsIdle line) (hl : l.toList <+: line.toList) :
    IsIdle l := by
  obtain ⟨text, hpads, hone, htext⟩ := h
  obtain ⟨left, hleft, hpads⟩ := hpads.of_isPrefix hl
  refine ⟨left, hpads, hone.of_subset hleft.subset, ?_⟩
  rcases htext with rfl | hremark
  · exact .inl (by simpa using hleft)
  · obtain ⟨rest, hrest⟩ := Text.beginsWith_iff.1 hremark
    rw [hrest] at hleft
    rcases List.prefix_cons_iff.1 hleft with hnil | ⟨rest', hrest', -⟩
    · exact .inl (by simpa using hnil)
    · exact .inr (Text.beginsWith_iff.2 ⟨rest', hrest'⟩)

/-! ## Layouts -/

/-- The lines say the directives, one a line and in order, and between them they say nothing. -/
inductive LaidOut : List Directive → List String → Prop
  | nil : LaidOut [] []
  | idle {ds : List Directive} {line : String} {lines : List String} (hline : IsIdle line)
      (hlines : LaidOut ds lines) : LaidOut ds (line :: lines)
  | say {d : Directive} {ds : List Directive} {line : String} {lines : List String}
      (hline : Pads line d.text) (hlines : LaidOut ds lines) : LaidOut (d :: ds) (line :: lines)

namespace LaidOut

variable {ds : List Directive} {lines : List String}

theorem oneLine (h : LaidOut ds lines) (hds : ∀ d ∈ ds, d.IsPlain) :
    ∀ l ∈ lines, Text.OneLine l := by
  induction h with
  | nil => exact List.forall_mem_nil _
  | idle hline _ ih =>
    obtain ⟨text, hpads, hone, -⟩ := hline
    exact List.forall_mem_cons.2 ⟨hpads.oneLine hone, ih hds⟩
  | say hline _ ih =>
    obtain ⟨hd, hds⟩ := List.forall_mem_cons.1 hds
    exact List.forall_mem_cons.2 ⟨hline.oneLine hd.oneLine_text, ih hds⟩

/-- **The lines of a layout do what its directives do.** -/
theorem foldl_apply (h : LaidOut ds lines) (r : Reading) :
    (lines.map directive).foldl Reading.apply r = ds.foldl Reading.apply r := by
  induction h generalizing r with
  | nil => rfl
  | idle hline _ ih =>
    rw [List.map_cons, List.foldl_cons, hline.directive_eq]
    exact ih r
  | @say d _ _ _ hline _ ih =>
    rw [List.map_cons, List.foldl_cons, hline.directive_eq, directive_text, List.foldl_cons]
    exact ih (r.apply d)

/-- The lines of a layout of sections hold them. -/
theorem lays {forest : List (Section String)}
    (hforest : ∀ d ∈ directivesOfSections forest, d.IsPlain)
    (h : LaidOut (directivesOfSections forest) lines) : Lays lines forest where
  oneLine := h.oneLine hforest
  adds := fun r => (h.foldl_apply r).trans (foldl_apply_directivesOfSections forest r)

end LaidOut

/-! ## The end of a text -/

/-- The directive ends an entry or a section, or it is none. -/
inductive Directive.Ends : Directive → Prop
  | next : Ends .next
  | finish : Ends .finish
  | other : Ends .other

instance (d : Directive) : Decidable d.Ends :=
  match d with
  | .next => isTrue .next
  | .finish => isTrue .finish
  | .other => isTrue .other
  | .config _ => isFalse nofun
  | .edit _ => isFalse nofun
  | .set _ => isFalse nofun

theorem Frame.close_closeEntry (f : Frame) : f.closeEntry.close = f.close := by
  obtain ⟨top, entry⟩ := f
  cases entry <;> rfl

namespace Reading

/-- **The end of a text ends what is open**: a directive that ends something adds nothing. -/
theorem finish_apply {d : Directive} (hd : d.Ends) (r : Reading) :
    (r.apply d).finish = r.finish := by
  obtain ⟨stack, forest⟩ := r
  cases hd with
  | next =>
    cases stack with
    | nil => rfl
    | cons top below => exact congrArg (closeAll forest · below) top.close_closeEntry
  | finish =>
    match stack with
    | [] => rfl
    | [_] => rfl
    | _ :: _ :: _ => rfl
  | other => rfl

theorem finish_run {lines : List String} (h : ∀ l ∈ lines, (directive l).Ends) (r : Reading) :
    (r.run lines).finish = r.finish := by
  induction lines generalizing r with
  | nil => rfl
  | cons l lines ih =>
    obtain ⟨hl, hlines⟩ := List.forall_mem_cons.1 h
    exact (ih hlines (r.step l)).trans (finish_apply hl r)

end Reading

/-- Lines that only end what is open add nothing at the end of a text. -/
theorem readForest_append {s : String} (hs : Text.EndsLine s) {t : String}
    (h : ∀ l ∈ Text.lines t, (directive l).Ends) : readForest (s ++ t) = readForest s := by
  rw [readForest, Text.lines_append hs, Reading.run, List.foldl_append]
  exact Reading.finish_run h _

/-- The line ends an entry or a section, or it says nothing. -/
inductive IsCloser (line : String) : Prop
  | next (h : Pads line "next")
  | finish (h : Pads line "end")
  | idle (h : IsIdle line)

/-- **What is left of such a line ends something as well, or says nothing**, wherever it is broken
off. -/
theorem IsCloser.ends_of_isPrefix {line l : String} (h : IsCloser line)
    (hl : l.toList <+: line.toList) : (directive l).Ends := by
  have hword {text : String} (word : List Char) (hpads : Pads line text)
      (htext : text.toList = word)
      (hends : ∀ cs ∈ word.inits, (directive (String.ofList cs)).Ends) : (directive l).Ends := by
    obtain ⟨left, hleft, hpads⟩ := hpads.of_isPrefix hl
    rw [hpads.directive_eq, ← String.ofList_toList (s := left)]
    exact hends _ ((List.mem_inits _ _).2 (htext ▸ hleft))
  cases h with
  | next h => exact hword ['n', 'e', 'x', 't'] h rfl (by decide)
  | finish h => exact hword ['e', 'n', 'd'] h rfl (by decide)
  | idle h =>
    rw [(h.of_isPrefix hl).directive_eq]
    exact .other

/-- **Sections are read back from any layout**, also where the text is broken off among the last
lines, which only end what is open. -/
theorem readForest_layout {forest : List (Section String)}
    (hforest : ∀ d ∈ directivesOfSections forest, d.IsPlain) {lines : List String}
    (h : LaidOut (directivesOfSections forest) lines) :
    readForest (Text.unlines lines) = forest
      ∧ ∀ (kept closing : List String) (rest : String), lines = kept ++ closing →
          (∀ l ∈ closing, IsCloser l) → rest.toList <+: (Text.unlines closing).toList →
          readForest (Text.unlines kept ++ rest) = forest := by
  have hwhole : readForest (Text.unlines lines) = forest := readForest_unlines (h.lays hforest)
  refine ⟨hwhole, ?_⟩
  rintro kept closing rest rfl hclosing hrest
  have hone : ∀ l ∈ closing, Text.OneLine l := fun l hl =>
    h.oneLine hforest l (List.mem_append_right kept hl)
  have hends {t : String} (ht : t.toList <+: (Text.unlines closing).toList) :
      readForest (Text.unlines kept ++ t) = readForest (Text.unlines kept) := by
    refine readForest_append (Text.endsLine_unlines kept) fun l hl => ?_
    obtain ⟨m, hm, hprefix⟩ := Text.exists_prefix_of_mem_lines hone ht hl
    exact (hclosing m hm).ends_of_isPrefix hprefix
  calc
    readForest (Text.unlines kept ++ rest)
      = readForest (Text.unlines kept) := hends hrest
    _ = readForest (Text.unlines kept ++ Text.unlines closing) := (hends List.prefix_rfl).symm
    _ = readForest (Text.unlines (kept ++ closing)) := by rw [Text.unlines_append]
    _ = forest := hwhole

/-- Sections in sections and in an entry, whose words are directives, remarks, quotes, or empty. -/
def nestedForest : List (Section String) :=
  [{ path := "end"
     settings := [⟨"a \"b\"", ["", "x\\y", "# z"]⟩]
     entries :=
       [{ name := "next"
          settings := [⟨"", []⟩]
          children := [{ path := "hosts", entries := [{ name := "1" }] }] }]
     children := [{ path := "config vdom" }] }]

/-- The lines that open what the forest holds, with blanks and remarks. -/
def nestedKept : List String :=
  ["config \"end\"", "# remark", "\tset \"a \\\"b\\\"\" \"\" \"x\\\\y\" \"# z\"",
   "  config \"config vdom\"", "  end", "", " edit \"next\"", "set \"\" ", "config \"hosts\"",
   "   edit \"1\""]

/-- The lines at its end. -/
def nestedClosing : List String := ["   next", " end", " # done", "next", "end"]

theorem laidOut_nestedForest :
    LaidOut (directivesOfSections nestedForest) (nestedKept ++ nestedClosing) := by
  have hremark (before text : String) (hbefore : IsSpace before) (hone : Text.OneLine text)
      (h : text = "" ∨ Text.beginsWith "#" text = true) : IsIdle (before ++ text ++ "") :=
    ⟨text, ⟨before, "", hbefore, by decide, rfl⟩, hone, h⟩
  refine .say ⟨"", "", by decide, by decide, by decide⟩ ?_
  refine .idle (hremark "" "# remark" (by decide) (by decide) (by decide)) ?_
  refine .say ⟨"\t", "", by decide, by decide, by decide⟩ ?_
  refine .say ⟨"  ", "", by decide, by decide, by decide⟩ ?_
  refine .say ⟨"  ", "", by decide, by decide, by decide⟩ ?_
  refine .idle (hremark "" "" (by decide) (by decide) (by decide)) ?_
  refine .say ⟨" ", "", by decide, by decide, by decide⟩ ?_
  refine .say ⟨"", " ", by decide, by decide, by decide⟩ ?_
  refine .say ⟨"", "", by decide, by decide, by decide⟩ ?_
  refine .say ⟨"   ", "", by decide, by decide, by decide⟩ ?_
  refine .say ⟨"   ", "", by decide, by decide, by decide⟩ ?_
  refine .say ⟨" ", "", by decide, by decide, by decide⟩ ?_
  refine .idle (hremark " " "# done" (by decide) (by decide) (by decide)) ?_
  refine .say ⟨"", "", by decide, by decide, by decide⟩ ?_
  exact .say ⟨"", "", by decide, by decide, by decide⟩ .nil

/-- The text may end in the middle of the word `end`. -/
theorem readForest_layout_nestedForest :
    (∀ d ∈ directivesOfSections nestedForest, d.IsPlain)
      ∧ LaidOut (directivesOfSections nestedForest) (nestedKept ++ nestedClosing)
      ∧ readForest (Text.unlines (nestedKept ++ nestedClosing)) = nestedForest
      ∧ readForest (Text.unlines nestedKept ++ "   next\n en") = nestedForest := by
  have hplain : ∀ d ∈ directivesOfSections nestedForest, d.IsPlain := by decide
  obtain ⟨hwhole, hcut⟩ := readForest_layout hplain laidOut_nestedForest
  have hclosing : ∀ l ∈ nestedClosing, IsCloser l := by
    simp only [nestedClosing, List.forall_mem_cons]
    refine ⟨.next ⟨"   ", "", by decide, by decide, by decide⟩,
      .finish ⟨" ", "", by decide, by decide, by decide⟩,
      .idle ⟨"# done", ⟨" ", "", by decide, by decide, by decide⟩, by decide, by decide⟩,
      .next ⟨"", "", by decide, by decide, by decide⟩,
      .finish ⟨"", "", by decide, by decide, by decide⟩, List.forall_mem_nil _⟩
  exact ⟨hplain, laidOut_nestedForest, hwhole,
    hcut nestedKept nestedClosing "   next\n en" rfl hclosing (by decide)⟩

end FirewallConfig.FortiOs
