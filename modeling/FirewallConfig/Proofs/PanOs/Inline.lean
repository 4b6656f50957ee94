import FirewallConfig.Proofs.Config.Interfaces
import FirewallConfig.Proofs.PanOs.Collect

/-!
# Proofs/PanOs/Inline — entries that stand on one line with the element around them

The name of an address or of a gateway is that of an entry in an element, and it is read alike whether
the entry stands on the line of the element or on one of its own (`nameBehind_inlined`).  But where it
stands on the line of the element, it counts as an entry that is not closed (`depthAfter_inlined`): the
entry around it goes on to the line that closes one entry more, and if there is none, all that follows
is lost (`run_inlined`).
-/

namespace FirewallConfig.PanOs

open Xml (IsName)

/-! ## The two forms -/

/-- The tag of an entry that is complete in it. -/
def entryTag (value : String) : String := entryHead ++ "name=\"" ++ value ++ "\"/>"

/-- An element with an entry in it, on three lines. -/
def spelledOut (tag value : String) : List String := [openTag tag, entryTag value, closeTag tag]

/-- An element with an entry in it, on one line. -/
def inlined (tag value : String) : String := openTag tag ++ (entryTag value ++ closeTag tag)

/-- A line between brackets has no blanks at its ends. -/
theorem trim_of_brackets {s : String} (cs : List Char) (h : s.toList = '<' :: (cs ++ ['>'])) :
    Text.trim s = s := by
  apply String.toList_inj.1
  rw [Text.toList_trim, h]
  exact (Chars.solid_cons_append (by decide) (by decide) cs).trim_eq

theorem toList_entryTag (value : String) : (entryTag value).toList
    = '<' :: ("entry".toList ++ ' ' :: ("name=\"".toList ++ (value.toList ++ ['"', '/', '>']))) := by
  simp [entryTag, entryHead]

theorem toList_inlined (tag value : String) : (inlined tag value).toList
    = '<' :: (tag.toList ++ '>' :: [] ++ '<' :: ("entry".toList
      ++ ' ' :: ("name=\"".toList ++ (value.toList ++ ['"', '/', '>']))
      ++ (closeTag tag).toList)) := by
  simp [inlined, toList_entryTag, toList_openTag]

section Forms

variable {tag value : String}

theorem trim_entryTag (value : String) : Text.trim (entryTag value) = entryTag value :=
  trim_of_brackets ("entry name=\"".toList ++ value.toList ++ ['"', '/']) (by
    simp [entryTag, entryHead])

theorem trim_entryTag_append (tag value : String) :
    Text.trim (entryTag value ++ closeTag tag) = entryTag value ++ closeTag tag :=
  trim_of_brackets ("entry name=\"".toList ++ value.toList ++ ['"', '/', '>', '<', '/']
    ++ tag.toList) (by simp [entryTag, entryHead, closeTag])

theorem trim_inlined (tag value : String) : Text.trim (inlined tag value) = inlined tag value :=
  trim_of_brackets (tag.toList ++ '>' :: "<entry name=\"".toList ++ value.toList
    ++ ['"', '/', '>', '<', '/'] ++ tag.toList) (by
      simp [inlined, openTag, entryTag, entryHead, closeTag])

/-! ## Names -/

theorem entryName_inlined (htag : IsName tag) (value : String) :
    entryName (inlined tag value) = none := by
  rw [entryName, trim_inlined, Text.withoutPrefix, toList_inlined, List.append_assoc,
    List.cons_append, Mark.withoutPrefix_entryHead_of_tag htag (by decide) (by decide)]
  rfl

variable (hquote : '"' ∉ value.toList)
include hquote

theorem entryName_entryTag : entryName (entryTag value) = some (Xml.unescape value) :=
  Mark.entryName_of_quoted (trim_entryTag value) hquote "/>" (by
    apply String.toList_inj.1
    simp [entryTag])

theorem entryName_entryTag_append (tag : String) :
    entryName (entryTag value ++ closeTag tag) = some (Xml.unescape value) :=
  Mark.entryName_of_quoted (trim_entryTag_append tag value) hquote ("/>" ++ closeTag tag) (by
    apply String.toList_inj.1
    simp [entryTag])

/-- **The name of an entry is read alike on a line of its own and on that of the element around it.** -/
theorem nameBehind_inlined (htag : IsName tag) (hentry : tag ≠ "entry")
    (before after after' : List String) :
    nameBehind tag (before ++ inlined tag value :: after)
      = nameBehind tag (before ++ (spelledOut tag value ++ after')) := by
  have hcut : Text.withoutPrefix (openTag tag) (inlined tag value)
      = some (entryTag value ++ closeTag tag) := Text.withoutPrefix_append _ _
  have hrest : Text.withoutPrefix (openTag tag) (openTag tag) = some "" := by
    have happend := Text.withoutPrefix_append (openTag tag) ""
    rwa [String.append_empty] at happend
  have hopens : opensWith tag (openTag tag) = true := by
    rw [opensWith, Text.beginsWith, hrest, Option.isSome_some]
  have hinlined : opensWith tag (inlined tag value) = true := by
    rw [opensWith, Text.beginsWith, hcut, Option.isSome_some]
  have hempty : entryName "" = none := rfl
  induction before with
  | nil =>
    rw [List.nil_append, List.nil_append, nameBehind_cons_of_opensWith hinlined, hcut,
      Option.bind_some, entryName_entryTag_append hquote, Option.some_or, spelledOut, List.cons_append,
      nameBehind_cons_of_opensWith hopens, hrest, Option.bind_some, hempty, Option.none_or,
      List.cons_append, List.head?_cons, Option.bind_some, entryName_entryTag hquote]
  | cons l before ih =>
    cases hl : opensWith tag l with
    | true =>
      have hnext : (before ++ inlined tag value :: after).head?.bind entryName
          = (before ++ (spelledOut tag value ++ after')).head?.bind entryName := by
        cases before with
        | nil =>
          have hopening : entryName (openTag tag) = none :=
            Mark.entryName_line (m := .opening tag) ⟨htag, hentry⟩
          rw [List.nil_append, List.nil_append, spelledOut, List.cons_append, List.head?_cons,
            List.head?_cons, Option.bind_some, Option.bind_some, entryName_inlined htag, hopening]
        | cons m before => rfl
      rw [List.cons_append, List.cons_append, nameBehind_cons_of_opensWith hl,
        nameBehind_cons_of_opensWith hl, hnext]
    | false =>
      rw [List.cons_append, List.cons_append, nameBehind_cons_of_not_opensWith hl,
        nameBehind_cons_of_not_opensWith hl, ih]

end Forms

/-! ## Depths -/

section Depths

variable {tag value : String} (htag : IsName tag) (hentry : tag ≠ "entry")
  (hlt : '<' ∉ value.toList)

include hlt

/-- The tag of an entry on a line of its own leaves the depth as it is. -/
theorem depthAfter_entryTag (depth : Nat) : depthAfter depth (entryTag value) = depth := by
  have hself : isSelfClosed (entryTag value) = true := by
    rw [isSelfClosed, Text.endsIn_iff, toList_entryTag]
    exact ⟨"<entry name=\"".toList ++ value.toList ++ ['"'], by simp⟩
  have hbegins : Text.beginsWith entryHead (entryTag value) = true :=
    Text.beginsWith_iff.2 ⟨_, by rw [toList_entryTag]; rfl⟩
  have hchars : '<' ∉ value.toList ++ ['"', '/', '>'] := by
    rw [List.mem_append, not_or]
    exact ⟨hlt, by decide⟩
  obtain ⟨hopens, hcloses⟩ := Mark.occurrences_entryTag hchars []
  rw [List.append_nil, ← toList_entryTag] at hopens hcloses
  rw [depthAfter, opens, closes, Text.occurrences, Text.occurrences, hopens, hcloses, hself, hbegins]
  rfl

include htag hentry

/-- **On the line of the element around it, the entry is counted as one that is open.** -/
theorem depthAfter_inlined (depth : Nat) : depthAfter depth (inlined tag value) = depth + 1 := by
  have hbegins : Text.beginsWith entryHead (inlined tag value) = false := by
    rw [Text.beginsWith, Text.withoutPrefix, toList_inlined, List.append_assoc, List.cons_append,
      Mark.withoutPrefix_entryHead_of_tag htag (by decide) (by decide)]
    rfl
  have hchars : '<' ∉ value.toList ++ ['"', '/', '>'] := by
    rw [List.mem_append, not_or]
    exact ⟨hlt, by decide⟩
  obtain ⟨hopens, hcloses⟩ := Mark.occurrences_entryTag hchars (closeTag tag).toList
  have hopened : Text.occurrences entryHead (inlined tag value) = 1 := by
    rw [Text.occurrences, toList_inlined,
      Mark.occurrences_entryHead_tag htag (by decide) (by decide) [] (by decide), hopens]
    exact congrArg (1 + ·) (Mark.occurrences_entryHead_closing htag)
  have hclosed : closes (inlined tag value) = 0 := by
    rw [closes, Text.occurrences, toList_inlined,
      Mark.occurrences_closeTag_tag htag ['>'] (by decide), hcloses]
    exact (Mark.occurrences_closeTag_closing htag).trans (if_neg hentry)
  rw [depthAfter, opens, hopened, hclosed, hbegins, Bool.and_false]
  rfl

/-- On three lines, it leaves the entries around it as they are. -/
theorem closesLast_spelledOut_append {depth : Nat} {own : List String} (hdepth : depth ≠ 0)
    (h : ClosesLast depth own) : ClosesLast depth (spelledOut tag value ++ own) := by
  have hopening : depthAfter depth (openTag tag) = depth :=
    Mark.depthAfter_line (m := .opening tag) ⟨htag, hentry⟩ depth
  have hnoEntry : (Mark.closing tag).closed = 0 := if_neg hentry
  have hclosing : depthAfter depth (closeTag tag) = depth :=
    (Mark.depthAfter_line (m := .closing tag) htag depth).trans (by rw [hnoEntry]; rfl)
  simp only [spelledOut, List.cons_append, List.nil_append, ClosesLast, hopening,
    depthAfter_entryTag hlt, hclosing]
  exact ⟨hdepth, hdepth, hdepth, h⟩

theorem Reading.step_inlined {r : Reading} {before : List String} {depth : Nat}
    (hopen : r.entry = some (before, depth)) : r.step (inlined tag value)
      = { r with entry := some (inlined tag value :: before, depth + 1) } := by
  rw [step_of_entry hopen (trim_inlined tag value), depthAfter_inlined htag hentry hlt,
    if_neg (Nat.succ_ne_zero depth)]

end Depths

/-! ## The scan -/

theorem mem_map_name_addEntry {c : Config} {name : String} (b : Block) (n : String) (a : Area)
    (h : name ∈ c.interfaces.map (·.name)) :
    name ∈ (addEntry c b n a).interfaces.map (·.name) := by
  cases a with
  | interfaces =>
    rw [addEntry, foldl_putInterface_eq]
    exact mem_map_foldl_putBy_of_mem Interface.name _
      (mem_map_putBy_of_mem Interface.name _ (.inr h))
  | addresses =>
    rw [addEntry, foldl_putAddressObject_eq]
    exact h
  | _ => exact h

/-- **An interface that is read stays.** -/
theorem mem_map_name_run {r : Reading} {name : String}
    (h : name ∈ r.config.interfaces.map (·.name)) (ls : List String) :
    name ∈ (r.run ls).config.interfaces.map (·.name) := by
  refine Reading.config_run (P := fun c => name ∈ c.interfaces.map (·.name))
    (fun c b n a hc => mem_map_name_addEntry b n a hc) (fun c line hc => ?_) h ls
  rw [Reading.settingLine]
  split <;> exact hc

/-- The interface of an entry is read. -/
theorem mem_map_name_takeEntry {r : Reading} {ls : List String} {name : String}
    (harea : r.area = some .interfaces) (hname : (Block.ofLines ls).name = some name) :
    name ∈ (r.takeEntry ls).config.interfaces.map (·.name) := by
  rw [Reading.takeEntry, harea, hname]
  dsimp only
  rw [addEntry, foldl_putInterface_eq]
  exact mem_map_foldl_putBy_of_mem Interface.name _ (mem_map_putBy_of_mem Interface.name _ (.inl rfl))

/-- **With an entry on the line of the element around it**, its name is read as it is on a line of its
own, but the entry around them does not end where it ends: it goes on to the line that closes one entry
more, and takes in all lines up to there.  Where there is no such line, all that follows is lost. -/
theorem run_inlined {text text' tag value : String} {before own after kept : List String} {depth : Nat}
    (htag : IsName tag) (hentryTag : tag ≠ "entry") (hquote : '"' ∉ value.toList)
    (hlt : '<' ∉ value.toList)
    (htext : (Text.lines text).map Text.trim = before ++ (spelledOut tag value ++ (own ++ after)))
    (htext' : (Text.lines text').map Text.trim = before ++ inlined tag value :: (own ++ after))
    (hentry : (Reading.run {} before).entry = some (kept, depth)) (hclosed : ClosesLast depth own)
    (hcloses : ∀ l ∈ own, closes l ≤ 1) :
    (∀ more, (Block.ofLines (kept.reverse ++ inlined tag value :: (own ++ more))).entryAfter tag
        = (Block.ofLines (kept.reverse ++ (spelledOut tag value ++ own))).entryAfter tag)
      ∧ Reading.run {} (Text.lines text)
        = ((Reading.run {} before).takeEntry (kept.reverse ++ (spelledOut tag value ++ own))).run after
      ∧ (∀ more rest, after = more ++ rest → ClosesLast 1 more →
        Reading.run {} (Text.lines text')
          = ((Reading.run {} before).takeEntry
            (kept.reverse ++ inlined tag value :: (own ++ more))).run rest)
      ∧ ((∀ more rest, after = more ++ rest → ¬ ClosesLast 1 more) →
        (Reading.run {} (Text.lines text')).config = (Reading.run {} before).config
          ∧ ∀ name, (Reading.run {} before).area = some .interfaces →
            (Block.ofLines (kept.reverse ++ (spelledOut tag value ++ own))).name = some name →
            name ∉ (Reading.run {} before).config.interfaces.map (·.name) →
            name ∈ (read text).interfaces.map (·.name)
              ∧ name ∉ (read text').interfaces.map (·.name)) := by
  have hdepth : depth ≠ 0 := Reading.depth_ne_zero_run before _ hentry
  have hspelled : Reading.run {} (Text.lines text)
      = ((Reading.run {} before).takeEntry (kept.reverse ++ (spelledOut tag value ++ own))).run after := by
    rw [← List.append_assoc (spelledOut tag value)] at htext
    rw [Reading.run_lines_of_map_trim_eq htext, Reading.run_append,
      Reading.run_of_closesLast hentry
        (fun l hl => trim_of_map_trim_lines_eq htext l (List.mem_append_left after hl)) hdepth
        (closesLast_spelledOut_append htag hentryTag hlt hdepth hclosed)]
  have hrun : Reading.run {} (Text.lines text')
      = Reading.run { Reading.run {} before with
          entry := some (inlined tag value :: kept, depth + 1) } (own ++ after) := by
    rw [Reading.run_lines_of_map_trim_eq htext', Reading.run_cons,
      Reading.step_inlined htag hentryTag hlt hentry]
  obtain ⟨-, htrim⟩ := List.forall_mem_cons.1 (trim_of_map_trim_lines_eq htext')
  refine ⟨fun more => ?_, hspelled, fun more rest hafter hmore => ?_, fun hnone => ?_⟩
  · rw [entryAfter_ofLines_eq, entryAfter_ofLines_eq]
    exact nameBehind_inlined hquote htag hentryTag _ _ _
  · have hblock := (closesLast_succ_append_iff hclosed hcloses).2 hmore
    rw [hafter, ← List.append_assoc] at hrun htrim
    rw [hrun, Reading.run_append, Reading.run_of_closesLast rfl
      (fun l hl => htrim l (List.mem_append_left _ hl)) (Nat.succ_ne_zero depth) hblock,
      Reading.takeEntry_entry, List.reverse_cons, List.append_assoc, List.singleton_append]
  · have hconfig : (Reading.run {} (Text.lines text')).config = (Reading.run {} before).config := by
      rw [hrun, Reading.config_run_of_not_closesLast rfl htrim fun block rest hlines hblock => ?_]
      obtain ⟨more, rfl, hafter⟩ := exists_append_of_closesLast_succ hclosed hcloses hlines hblock
      exact hnone more rest hafter ((closesLast_succ_append_iff hclosed hcloses).1 hblock)
    refine ⟨hconfig, fun name harea hname hnew => ?_⟩
    rw [map_name_interfaces_read, map_name_interfaces_read, hconfig, hspelled]
    exact ⟨mem_map_name_run (mem_map_name_takeEntry harea hname) after, hnew⟩

/-- What stands before the address of an interface. -/
def linesBeforeAddress : List String := ["<ethernet>", "<entry name=\"ethernet1/1\">"]

/-- What stands behind the entry of the interface. -/
def nextInterfaceLines : List String := ["<entry name=\"ethernet1/2\">", "</entry>"]

/-- The text of two interfaces, with the address of the first one on some lines. -/
def twoInterfacesText (address : List String) : String :=
  Text.unlines (linesBeforeAddress ++ (address ++ (["</entry>"] ++ nextInterfaceLines)))

/-- **On one line, the address makes the interface get lost.** -/
theorem run_inlined_twoInterfacesText :
    (Reading.run {} linesBeforeAddress).entry = some (["<entry name=\"ethernet1/1\">"], 1)
      ∧ ClosesLast 1 ["</entry>"] ∧ (∀ l ∈ ["</entry>"], closes l ≤ 1)
      ∧ "ethernet1/1"
        ∉ (read (twoInterfacesText [inlined "ip" "10.0.0.1/24"])).interfaces.map (·.name) := by
  have hspelled : (Text.lines (twoInterfacesText (spelledOut "ip" "10.0.0.1/24"))).map Text.trim
      = linesBeforeAddress ++ (spelledOut "ip" "10.0.0.1/24"
        ++ (["</entry>"] ++ nextInterfaceLines)) := by
    rw [twoInterfacesText, Text.map_trim_lines_unlines (by decide +kernel)]
    decide +kernel
  have hinlined : (Text.lines (twoInterfacesText [inlined "ip" "10.0.0.1/24"])).map Text.trim
      = linesBeforeAddress ++ inlined "ip" "10.0.0.1/24"
        :: (["</entry>"] ++ nextInterfaceLines) := by
    rw [twoInterfacesText, Text.map_trim_lines_unlines (by decide +kernel)]
    decide +kernel
  have hentry : (Reading.run {} linesBeforeAddress).entry
      = some (["<entry name=\"ethernet1/1\">"], 1) := by decide +kernel
  have hclosed : ClosesLast 1 ["</entry>"] := by decide
  have hcloses : ∀ l ∈ ["</entry>"], closes l ≤ 1 := by decide
  have hopen : ∀ more ∈ nextInterfaceLines.inits, ¬ ClosesLast 1 more := by decide +kernel
  have hnone : ∀ more rest, nextInterfaceLines = more ++ rest → ¬ ClosesLast 1 more :=
    fun more rest hsplit => hopen more ((List.mem_inits _ _).2 ⟨rest, hsplit.symm⟩)
  obtain ⟨-, -, -, hlost⟩ := run_inlined (by decide) (by decide) (by decide) (by decide) hspelled
    hinlined hentry hclosed hcloses
  exact ⟨hentry, hclosed, hcloses,
    ((hlost hnone).2 "ethernet1/1" (by decide +kernel) (by decide +kernel) (by decide +kernel)).2⟩

/-- **With its address on one line, an interface is lost, and the next one with it.** -/
theorem not_kept_twoInterfacesText :
    (read (twoInterfacesText (spelledOut "ip" "10.0.0.1/24"))).interfaces
        = [{ name := "ethernet1/1", ip := some "10.0.0.1", mask := some "255.255.255.0" },
           { name := "ethernet1/2" }]
      ∧ (read (twoInterfacesText [inlined "ip" "10.0.0.1/24"])).interfaces = [] := by
  rw [twoInterfacesText, twoInterfacesText, read_unlines (by decide +kernel),
    read_unlines (by decide +kernel)]
  decide +kernel

end FirewallConfig.PanOs
