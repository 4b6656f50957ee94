import FirewallConfig.Proofs.Xml.Token
import FirewallConfig.Xml.Reader

/-!
# Proofs/Xml/Document — a written document is read back

Reading what an element was written as takes in that element, wherever it stands and at whatever
level (`Reading.run_write_settled`): what was open before it stays open, and nothing of the
indentation is taken for text.  Any texts are allowed; they come back without the blanks at their
ends.  The main statement is `read_document`, for elements that hold text and children side by side
as well, and whose texts are read as they were written.
-/

namespace FirewallConfig.Xml

/-- The tags and keys of an element are names and its texts are read as they were written; and so it
is of everything in it. -/
inductive Node.Readable : Node → Prop where
  | mk {tag : String} {attributes : Attributes} {children : List Node} {text : Option String}
      (htag : IsName tag) (hkeys : ∀ e ∈ attributes.entries, IsName e.1)
      (htext : ∀ s, text = some s → IsText s) (hchildren : ∀ n ∈ children, n.Readable) :
      Readable { tag, attributes, children, text }

/-- The tags and keys of an element are names; and so it is of everything in it. -/
inductive Node.Named : Node → Prop where
  | mk {tag : String} {attributes : Attributes} {children : List Node} {text : Option String}
      (htag : IsName tag) (hkeys : ∀ e ∈ attributes.entries, IsName e.1)
      (hchildren : ∀ n ∈ children, n.Named) : Named { tag, attributes, children, text }

/-! ## What is read of a text -/

/-- A text as it is read: without the blanks of markup at its ends, if anything but blanks is
left. -/
def settledText (s : String) : Option String :=
  let core := String.ofList (dropSpacesEnd (dropSpaces s.toList))
  if Text.isAllBlank core then none else some core

theorem settledText_of_isText {s : String} (hs : IsText s) : settledText s = some s := by
  obtain ⟨hstart, hend⟩ := hs.dropSpaces_eq
  have hcore : String.ofList (dropSpacesEnd (dropSpaces s.toList)) = s := by
    rw [hstart, hend, String.ofList_toList]
  simp only [settledText, hcore, hs.notBlank, Bool.false_eq_true, if_false]

mutual

/-- An element as it is read, with its texts and those of everything in it as they are read. -/
def Node.settled : Node → Node
  | ⟨tag, attributes, children, text⟩ =>
    ⟨tag, attributes, settledAll children, text.bind settledText⟩

/-- Elements side by side, as they are read. -/
def settledAll : List Node → List Node
  | [] => []
  | n :: ns => n.settled :: settledAll ns

end

theorem settledAll_eq_self {ns : List Node} (h : ∀ n ∈ ns, n.settled = n) : settledAll ns = ns := by
  induction ns with
  | nil => rfl
  | cons n ns ih =>
    rw [settledAll, h n List.mem_cons_self, ih fun m hm => h m (List.mem_cons_of_mem _ hm)]

namespace Node.Readable

/-- What is read as it was written has names. -/
theorem named {n : Node} (hn : n.Readable) : n.Named := by
  induction hn with
  | mk htag hkeys _ _ ih => exact .mk htag hkeys ih

/-- What is read as it was written stays as it is. -/
theorem settled_eq {n : Node} (hn : n.Readable) : n.settled = n := by
  induction hn with
  | @mk tag attributes children text _ _ htext _ ih =>
    have hbind : text.bind settledText = text := by
      cases text with
      | none => rfl
      | some s => rw [Option.bind_some, settledText_of_isText (htext s rfl)]
    rw [Node.settled, settledAll_eq_self ih, hbind]

end Node.Readable

/-! ## What is written, piece by piece -/

/-- The characters of an element that is one tag. -/
theorem toList_write_of_isEmpty (begins : Bool) (level : Nat) (tag : String)
    (attributes : Attributes) :
    (Node.write begins level { tag, attributes }).toList
      = (lineStart begins level).toList
        ++ '<' :: ((tagText tag attributes).toList ++ ['/', '>']) := by
  rw [Node.write]
  simp

/-- The characters of an element that holds something: its opening tag, its text, its children, and
its closing tag. -/
theorem toList_write (begins : Bool) (level : Nat) {n : Node} (hn : n.isEmpty = false) :
    (n.write begins level).toList
      = (lineStart begins level).toList ++ '<' :: ((tagText n.tag n.attributes).toList
        ++ '>' :: (escapeChars (n.text.getD "").toList
          ++ ((writeChildren n.text.isNone (level + 1) n.children).toList
            ++ ((lineStart (n.text.isNone || !n.children.isEmpty) level).toList
              ++ '<' :: '/' :: (n.tag.toList ++ ['>']))))) := by
  obtain ⟨tag, attributes, children, text⟩ := n
  have hempty : ¬ (children.isEmpty && text.isNone) = true := Bool.eq_false_iff.1 hn
  rw [Node.write, if_neg hempty]
  simp [List.append_assoc]

/-- What follows a text begins with a tag: neither a child nor the closing tag begins a line
there. -/
theorem exists_bracket_cons (level : Nat) (ns : List Node) (rest : List Char) :
    ∃ cs, (writeChildren false (level + 1) ns).toList
      ++ ((lineStart (false || !ns.isEmpty) level).toList ++ '<' :: rest) = '<' :: cs := by
  cases ns with
  | nil => exact ⟨rest, by simp [writeChildren, lineStart]⟩
  | cons n ns =>
    have hn : ∃ cs, (n.write false (level + 1)).toList = '<' :: cs := by
      by_cases hempty : n.isEmpty = false
      · rw [toList_write false (level + 1) hempty]
        exact ⟨_, rfl⟩
      · obtain ⟨tag, attributes, children, text⟩ := n
        simp only [Node.isEmpty, Bool.not_eq_false, Bool.and_eq_true, List.isEmpty_iff,
          Option.isNone_iff_eq_none] at hempty
        obtain ⟨rfl, rfl⟩ := hempty
        rw [toList_write_of_isEmpty]
        exact ⟨_, rfl⟩
    obtain ⟨cs, hcs⟩ := hn
    rw [writeChildren, String.toList_append, hcs]
    exact ⟨_, rfl⟩

namespace Reading

/-! ## Taking in a piece -/

theorem run_of_next {r r' : Reading} {t : Token} {cs rest : List Char}
    (hnext : Token.next cs = .ok (some (t, rest))) (hstep : r.step t = .ok r') :
    r.run cs = r'.run rest := by
  rw [run]
  split
  · next h => rw [hnext] at h; cases h
  · next h => rw [hnext] at h; cases h
  · next h =>
    rw [hnext] at h
    cases h
    simp only [hstep]

theorem run_of_step_eq_error {r : Reading} {t : Token} {cs rest : List Char} {e : ReadError}
    (hnext : Token.next cs = .ok (some (t, rest))) (hstep : r.step t = .error e) :
    r.run cs = .error e := by
  rw [run]
  split
  · next h => rw [hnext] at h; cases h
  · next h => rw [hnext] at h; cases h
  · next h =>
    rw [hnext] at h
    cases h
    simp only [hstep]

theorem run_of_next_eq_none {r : Reading} {cs : List Char} (hnext : Token.next cs = .ok none) :
    r.run cs = .ok r := by
  rw [run]
  split
  · next h => rw [hnext] at h; cases h
  · rfl
  · next h => rw [hnext] at h; cases h

/-- Indentation is not taken in. -/
theorem run_lineStart (r : Reading) (begins : Bool) (level : Nat) (cs : List Char) :
    r.run ((lineStart begins level).toList ++ cs) = r.run cs := by
  rw [run, run, next_lineStart]

/-! ## Taking in an element -/

/-- **The text of an element is taken in** as it is read, and what follows it is left. -/
theorem run_text (text : Option String) (top : Node) (htop : top.text = none) (below : List Node)
    (root : Option Node) (rest : List Char) (hrest : ∀ s, text = some s → ∃ cs, rest = '<' :: cs) :
    run ⟨top :: below, root⟩ (escapeChars (text.getD "").toList ++ rest)
      = run ⟨{ top with text := text.bind settledText } :: below, root⟩ rest := by
  obtain ⟨tag, attributes, children, text'⟩ := top
  cases htop
  cases text with
  | none => rfl
  | some s =>
    obtain ⟨cs, rfl⟩ := hrest s rfl
    have hnext := next_escapeChars s.toList cs
    rw [Option.getD_some, Option.bind_some, settledText]
    split at hnext
    · next hnil =>
      have hblank : Text.isAllBlank (String.ofList (dropSpacesEnd (dropSpaces s.toList))) = true := by
        rw [hnil]
        decide
      rw [if_pos hblank, run, run, hnext]
    · refine run_of_next hnext ?_
      rw [step]
      split
      · rfl
      · simp [addText]

/-- **The children of an element are taken in**, if each of them is. -/
theorem run_writeChildren {ns : List Node}
    (h : ∀ n ∈ ns, ∀ (begins : Bool) (level : Nat) (r r' : Reading) (rest : List Char),
      r.attach n.settled = .ok r' → r.run ((n.write begins level).toList ++ rest) = r'.run rest)
    (begins : Bool) (level : Nat) (top : Node) (below : List Node) (root : Option Node)
    (rest : List Char) :
    run ⟨top :: below, root⟩ ((writeChildren begins level ns).toList ++ rest)
      = run ⟨{ top with children := top.children ++ settledAll ns } :: below, root⟩ rest := by
  induction ns generalizing begins top with
  | nil =>
    cases top
    simp [writeChildren, settledAll]
  | cons n ns ih =>
    have hattach : attach ⟨top :: below, root⟩ n.settled
        = .ok ⟨top.push n.settled :: below, root⟩ := rfl
    rw [writeChildren, String.toList_append, List.append_assoc,
      h n List.mem_cons_self begins level _ _ _ hattach,
      ih (fun m hm => h m (List.mem_cons_of_mem _ hm)), Node.push, settledAll]
    simp only [List.append_assoc, List.singleton_append]

/-- **What an element was written as is taken in as that element**, its texts as they are read. -/
theorem run_write_settled {n : Node} (hn : n.Named) (begins : Bool) (level : Nat) (r r' : Reading)
    (rest : List Char) (hattach : r.attach n.settled = .ok r') :
    r.run ((n.write begins level).toList ++ rest) = r'.run rest := by
  induction hn generalizing begins level r r' rest with
  | @mk tag attributes children text htag hkeys _ ih =>
    rw [Node.settled] at hattach
    by_cases hempty : (Node.mk tag attributes children text).isEmpty = false
    · -- the opening tag puts an element on the stack, its text and its children fill it, and the
      -- closing tag takes it off again
      have hopen : step r (.opening tag attributes)
          = .ok ⟨{ tag, attributes } :: r.stack, r.root⟩ := rfl
      have hclose : step ⟨⟨tag, attributes, settledAll children, text.bind settledText⟩ :: r.stack,
          r.root⟩ (.closing tag) = .ok r' := by
        simp [step, close, hattach]
      rw [toList_write begins level hempty]
      simp only [List.append_assoc, List.cons_append, List.nil_append]
      rw [run_lineStart, run_of_next (next_opening htag hkeys _) hopen, run_text text _ rfl]
      · rw [run_writeChildren ih, run_lineStart, List.nil_append]
        exact run_of_next (next_closing htag rest) hclose
      · rintro s rfl
        exact exists_bracket_cons level children _
    · simp only [Node.isEmpty, Bool.not_eq_false, Bool.and_eq_true, List.isEmpty_iff,
        Option.isNone_iff_eq_none] at hempty
      obtain ⟨rfl, rfl⟩ := hempty
      rw [toList_write_of_isEmpty, List.append_assoc, run_lineStart, List.cons_append,
        List.append_assoc]
      exact run_of_next (next_empty htag hkeys rest) hattach

/-- What an element was written as is taken in as that element, if its texts are read as they were
written. -/
theorem run_write {n : Node} (hn : n.Readable) (begins : Bool) (level : Nat) (r r' : Reading)
    (rest : List Char) (hattach : r.attach n = .ok r') :
    r.run ((n.write begins level).toList ++ rest) = r'.run rest :=
  run_write_settled hn.named begins level r r' rest (hn.settled_eq.symm ▸ hattach)

end Reading

/-- **A written document is read back.**  Every element of names and of texts that are read as they
were written, with attributes of any values, with text and children side by side, and of any depth,
comes back from the document that was written of it. -/
theorem read_document (root : Node) (hroot : root.Readable) :
    read (document root none) = .ok root := by
  have hlist : (document root none).toList
      = declaration.toList ++ ((root.write true 0).toList ++ ['\n']) := by
    rw [document, String.toList_append, String.toList_append, String.toList_append,
      List.append_assoc, List.append_assoc]
    rfl
  have hmark : dropMark (declaration.toList ++ ((root.write true 0).toList ++ ['\n']))
      = declaration.toList ++ ((root.write true 0).toList ++ ['\n']) := by
    have hhead : declaration.toList = '<' :: declaration.toList.tail := by decide
    rw [hhead, List.cons_append, dropMark, if_neg (by decide)]
  have hattach : Reading.attach {} root = .ok { root := some root } := rfl
  have hend : Token.next ['\n'] = .ok none := rfl
  rw [read, hlist, hmark, Reading.run_of_next (next_declaration _) rfl,
    Reading.run_write hroot true 0 _ _ _ hattach, Reading.run_of_next_eq_none hend]
  rfl

/-- An element whose text stands before its children, with characters of markup and what looks like
an entity in its attributes and texts. -/
def mixedElement : Node where
  tag := "entry"
  attributes := { entries := [("key", " 'a' &lt; \"b\"\n"), ("name", "")], sorted := by decide }
  text := some "1 < 2\n  &amp; so on"
  children :=
    [{ tag := "empty" }, { tag := "member", text := some "\u00a0-->" },
      { tag := "list", children := [{ tag := "member", text := some "x" }] }]

/-- The text of an element is read back apart from the indentation around its children. -/
theorem read_document_mixedElement :
    mixedElement.Readable ∧ read (document mixedElement none) = .ok mixedElement := by
  have hleaf : ∀ s, IsText s → Node.Readable { tag := "member", text := some s } := fun s hs =>
    .mk (by decide) (List.forall_mem_nil _) (by rintro _ ⟨⟩; exact hs) (List.forall_mem_nil _)
  have hreadable : mixedElement.Readable := by
    refine .mk (by decide) (by decide) (by rintro _ ⟨⟩; decide) ?_
    simp only [List.forall_mem_cons]
    refine ⟨?_, hleaf _ (by decide), ?_, List.forall_mem_nil _⟩
    · exact .mk (by decide) (List.forall_mem_nil _) (by rintro _ ⟨⟩) (List.forall_mem_nil _)
    · exact .mk (by decide) (List.forall_mem_nil _) (by rintro _ ⟨⟩)
        (List.forall_mem_singleton.2 (hleaf _ (by decide)))
  exact ⟨hreadable, read_document mixedElement hreadable⟩

end FirewallConfig.Xml
