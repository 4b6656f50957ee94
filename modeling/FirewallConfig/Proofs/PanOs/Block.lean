import FirewallConfig.Proofs.PanOs.Scan

/-!
# Proofs/PanOs/Block — what is read from a written entry

An entry is `Flat` below where no further entry with anything in it stands: all of its lines are at
one depth, so that each of its leaves and lists is found where it was written.
-/

namespace FirewallConfig.PanOs

open Xml (Node IsName linesOfAll)

/-! ## Elements at one depth -/

/-- An element in which no entry with anything in it stands. -/
inductive Flat : Node → Prop where
  | leaf {tag : String} (text : String) (htag : IsName tag) (hentry : tag ≠ "entry") :
      Flat (.leaf tag text)
  | branch {tag : String} {children : List Node} (htag : IsName tag) (hentry : tag ≠ "entry")
      (hchildren : ∀ n ∈ children, Flat n) : Flat (.branch tag children)
  | entry (name : String) : Flat (entry name [])

/-- The line is that of a mark that opens and closes no entry. -/
def IsLevel (l : String) : Prop := ∃ m : Mark, m.Valid ∧ m.opened = 0 ∧ m.closed = 0 ∧ l = m.line

theorem isLevel_line {m : Mark} (hm : m.Valid) (hopened : m.opened = 0) (hclosed : m.closed = 0) :
    IsLevel m.line := ⟨m, hm, hopened, hclosed, rfl⟩

theorem IsLevel.depthAfter_eq {l : String} (h : IsLevel l) (depth : Nat) :
    depthAfter depth l = depth := by
  obtain ⟨m, hm, hopened, hclosed, rfl⟩ := h
  rw [Mark.depthAfter_line hm, hopened, hclosed, Nat.add_zero, Nat.sub_zero]

theorem mem_linesOfAll {l : String} {ns : List Node} (h : l ∈ linesOfAll ns) :
    ∃ n ∈ ns, l ∈ n.lines := by
  induction ns with
  | nil => cases h
  | cons n ns ih =>
    rw [Xml.linesOfAll_cons] at h
    rcases List.mem_append.1 h with h | h
    · exact ⟨n, List.mem_cons_self, h⟩
    · obtain ⟨m, hm, h⟩ := ih h
      exact ⟨m, List.mem_cons_of_mem _ hm, h⟩

theorem Flat.isLevel {n : Node} (h : Flat n) : ∀ l ∈ n.lines, IsLevel l := by
  induction h with
  | @leaf tag text htag hentry =>
    intro l hl
    rw [lines_leaf] at hl
    rw [List.mem_singleton.1 hl]
    exact isLevel_line (m := .leaf tag text) ⟨htag, hentry⟩ rfl rfl
  | @branch tag children htag hentry _ ih =>
    intro l hl
    rw [lines_branch] at hl
    split at hl
    · rw [List.mem_singleton.1 hl]
      exact isLevel_line (m := .empty tag) htag rfl rfl
    · rcases List.mem_append.1 hl with hl | hl
      · rcases List.mem_cons.1 hl with rfl | hl
        · exact isLevel_line (m := .opening tag) ⟨htag, hentry⟩ rfl rfl
        · obtain ⟨m, hm, hl⟩ := mem_linesOfAll hl
          exact ih m hm l hl
      · rw [List.mem_singleton.1 hl]
        exact isLevel_line (m := .closing tag) htag rfl (if_neg hentry)
  | entry name =>
    intro l hl
    rw [lines_entry, if_pos (by rfl)] at hl
    rw [List.mem_singleton.1 hl]
    exact isLevel_line (m := .emptyEntry name) trivial rfl rfl

/-! ## Depths -/

theorem deepLines_append_of_isLevel {ls : List String} (h : ∀ l ∈ ls, IsLevel l) (depth : Nat)
    (rest : List String) :
    deepLines depth (ls ++ rest) = ls.map (DeepLine.mk depth) ++ deepLines depth rest := by
  induction ls with
  | nil => rfl
  | cons l ls ih =>
    have hl := (h l List.mem_cons_self).depthAfter_eq depth
    rw [List.cons_append, deepLines, hl, Nat.max_self, ih fun m hm => h m (List.mem_cons_of_mem _ hm)]
    rfl

/-- **A flat entry is at one depth**, its first line and its last one included. -/
theorem lines_ofLines {name : String} {children : List Node} (hne : children ≠ [])
    (h : ∀ n ∈ children, Flat n) :
    (Block.ofLines (entry name children).lines).lines
      = ⟨1, (Mark.entry name).line⟩
        :: (linesOfAll children ++ [(Mark.closing "entry").line]).map (DeepLine.mk 1) := by
  have hlevel : ∀ l ∈ linesOfAll children, IsLevel l := by
    intro l hl
    obtain ⟨n, hn, hl⟩ := mem_linesOfAll hl
    exact (h n hn).isLevel l hl
  have hopening : depthAfter 0 (Mark.entry name).line = 1 :=
    Mark.depthAfter_line (m := .entry name) trivial 0
  have hclosing : depthAfter 1 (Mark.closing "entry").line = 0 :=
    Mark.depthAfter_line (m := .closing "entry") isName_entry 1
  show deepLines 0 (entry name children).lines = _
  rw [lines_entry, if_neg (by simpa using hne), List.cons_append, deepLines, hopening,
    deepLines_append_of_isLevel hlevel, deepLines, hclosing, deepLines, List.map_append]
  rfl

/-- An entry has the name that it was written with. -/
theorem name_ofLines (name : String) (children : List Node) :
    (Block.ofLines (entry name children).lines).name = some name := by
  show (entry name children).lines.head?.bind entryName = some name
  rw [lines_entry]
  split
  · rw [List.head?_cons, Option.bind_some, Mark.entryName_line (m := .emptyEntry name) trivial]
    rfl
  · rw [List.cons_append, List.head?_cons, Option.bind_some,
      Mark.entryName_line (m := .entry name) trivial]
    rfl

/-! ## Leaves -/

/-- The text of the first line that is an element of a tag. -/
def leafIn (tag : String) (ns : List Node) : Option String :=
  (linesOfAll ns).findSome? (leafText tag)

theorem map_text_mk (ls : List String) : (ls.map (DeepLine.mk 1)).map (·.text) = ls :=
  (List.map_map ..).trans (List.map_id ls)

theorem leaf_ofLines {name tag : String} {children : List Node} (htag : IsName tag)
    (h : ∀ n ∈ children, Flat n) :
    (Block.ofLines (entry name children).lines).leaf tag = leafIn tag children := by
  by_cases hne : children = []
  · rw [hne]
    rfl
  have hfilter (ls : List String) :
      ((ls.map (DeepLine.mk 1)).filter (·.depth == 1)).map (·.text) = ls := by
    rw [List.filter_eq_self.2 (List.forall_mem_map.2 fun _ _ => rfl), map_text_mk]
  have hclosing : leafText tag (Mark.closing "entry").line = none :=
    Mark.leafText_line (m := .closing "entry") htag isName_entry
  rw [Block.leaf, Block.own, lines_ofLines hne h, List.tail_cons, hfilter, List.findSome?_append,
    leafIn, List.findSome?_cons, hclosing]
  exact Option.or_none

@[simp] theorem leafIn_nil (tag : String) : leafIn tag [] = none := rfl

theorem leafIn_append (tag : String) (ns ms : List Node) :
    leafIn tag (ns ++ ms) = (leafIn tag ns).or (leafIn tag ms) := by
  rw [leafIn, Xml.linesOfAll_append, List.findSome?_append]
  rfl

theorem leafIn_cons (tag : String) (n : Node) (ns : List Node) :
    leafIn tag (n :: ns) = (leafIn tag [n]).or (leafIn tag ns) := leafIn_append tag [n] ns

theorem leafIn_leaf {t tag : String} (text : String) (ht : IsName t) (htag : IsName tag)
    (hentry : tag ≠ "entry") :
    leafIn t [.leaf tag text] = if tag = t then some text else none := by
  have := Mark.leafText_line ht (m := .leaf tag text) ⟨htag, hentry⟩
  rw [leafIn, Xml.linesOfAll_singleton, lines_leaf, List.findSome?_cons, this, Mark.leafText?]
  by_cases h : tag = t
  · rw [if_pos h]
  · rw [if_neg h]
    rfl

theorem leafIn_leaf? {t tag : String} (text : Option String) (ht : IsName t) (htag : IsName tag)
    (hentry : tag ≠ "entry") :
    leafIn t (leaf? tag text) = if tag = t then text else none := by
  cases text with
  | none => split <;> rfl
  | some s => exact leafIn_leaf s ht htag hentry

theorem leafIn_branch {t tag : String} {children : List Node} (ht : IsName t) (htag : IsName tag)
    (hentry : tag ≠ "entry") : leafIn t [.branch tag children] = leafIn t children := by
  have hempty := Mark.leafText_line ht (m := .empty tag) htag
  have hopening := Mark.leafText_line ht (m := .opening tag) ⟨htag, hentry⟩
  have hclosing := Mark.leafText_line ht (m := .closing tag) htag
  rw [leafIn, Xml.linesOfAll_singleton, lines_branch]
  split
  · next h =>
    rw [List.isEmpty_iff.1 h, List.findSome?_cons, hempty]
    rfl
  · rw [List.cons_append, List.findSome?_cons, hopening, List.findSome?_append,
      List.findSome?_cons, hclosing]
    exact Option.or_none

theorem leafIn_memberList {t tag : String} {members : List String} (ht : IsName t)
    (hmember : t ≠ "member") (htag : IsName tag) (hentry : tag ≠ "entry") :
    leafIn t [memberList tag members] = none := by
  rw [memberList, leafIn_branch ht htag hentry]
  induction members with
  | nil => rfl
  | cons s members ih =>
    rw [List.map_cons, leafIn_cons, ih, leafIn_leaf s ht (by decide) (by decide),
      if_neg (Ne.symm hmember)]
    rfl

/-! ## Lists -/

/-- No line of the elements begins with an opening tag. -/
def Skips (tag : String) (ns : List Node) : Prop := ∀ l ∈ linesOfAll ns, opensWith tag l = false

theorem skips_nil (tag : String) : Skips tag [] := List.forall_mem_nil _

theorem skips_cons {tag : String} {n : Node} {ns : List Node} :
    Skips tag (n :: ns) ↔ (∀ l ∈ n.lines, opensWith tag l = false) ∧ Skips tag ns := by
  rw [Skips, Xml.linesOfAll_cons, List.forall_mem_append]
  rfl

theorem skips_leaf {t tag : String} (text : String) (ht : IsName t) (htag : IsName tag)
    (hentry : tag ≠ "entry") (hne : tag ≠ t) : Skips t [.leaf tag text] := by
  intro l hl
  rw [Xml.linesOfAll_singleton, lines_leaf] at hl
  rw [List.mem_singleton.1 hl, Mark.opensWith_line ht (m := .leaf tag text) ⟨htag, hentry⟩]
  exact beq_eq_false_iff_ne.2 hne

theorem skips_memberList {t tag : String} (members : List String) (ht : IsName t)
    (hmember : t ≠ "member") (htag : IsName tag) (hentry : tag ≠ "entry") (hne : tag ≠ t) :
    Skips t [memberList tag members] := by
  have hmembers : Skips t (members.map (Node.leaf "member")) := by
    induction members with
    | nil => exact skips_nil t
    | cons s members ih =>
      rw [List.map_cons, skips_cons, ← Xml.linesOfAll_singleton]
      exact ⟨skips_leaf s ht (by decide) (by decide) (Ne.symm hmember), ih⟩
  intro l hl
  rw [Xml.linesOfAll_singleton, memberList, lines_branch] at hl
  split at hl
  · rw [List.mem_singleton.1 hl, Mark.opensWith_line ht (m := .empty tag) htag]
    rfl
  · rcases List.mem_append.1 hl with hl | hl
    · rcases List.mem_cons.1 hl with rfl | hl
      · rw [Mark.opensWith_line ht (m := .opening tag) ⟨htag, hentry⟩]
        exact beq_eq_false_iff_ne.2 hne
      · exact hmembers l hl
    · rw [List.mem_singleton.1 hl, Mark.opensWith_line ht (m := .closing tag) htag]
      rfl

/-- The members of a written list are read up to the line that closes it. -/
theorem leadingMembers_linesOfAll {tag : String} (htag : IsName tag) (members rest : List String) :
    leadingMembers (linesOfAll (members.map (Node.leaf "member"))
      ++ (Mark.closing tag).line :: rest) = members := by
  have hmember : IsName "member" := by decide
  induction members with
  | nil =>
    rw [List.map_nil, Xml.linesOfAll_nil, List.nil_append, leadingMembers,
      Mark.leafText_line hmember (m := .closing tag) htag]
    rfl
  | cons s members ih =>
    have hleaf : leafText "member" (Mark.leaf "member" s).line = some s :=
      Mark.leafText_line hmember (m := .leaf "member" s) ⟨hmember, by decide⟩
    rw [List.map_cons, Xml.linesOfAll_cons, lines_leaf, List.singleton_append, List.cons_append,
      leadingMembers, hleaf]
    exact congrArg _ ih

/-- **A list is read back from the entry that it was written in.** -/
theorem members_ofLines {name tag : String} (before after : List Node) {members : List String}
    (htag : IsName tag) (hentry : tag ≠ "entry") (hmember : tag ≠ "member")
    (h : ∀ n ∈ before ++ memberList tag members :: after, Flat n) (hbefore : Skips tag before)
    (hne : members ≠ []) :
    (Block.ofLines (entry name (before ++ memberList tag members :: after)).lines).members tag
      = members := by
  have hlist : linesOfAll (before ++ memberList tag members :: after)
        ++ [(Mark.closing "entry").line]
      = linesOfAll before ++ (Mark.opening tag).line
        :: (linesOfAll (members.map (Node.leaf "member")) ++ (Mark.closing tag).line
          :: (linesOfAll after ++ [(Mark.closing "entry").line])) := by
    rw [Xml.linesOfAll_append, Xml.linesOfAll_cons, memberList, lines_branch,
      if_neg (by simpa using hne)]
    simp only [List.append_assoc, List.cons_append, List.nil_append]
  have hopening := Mark.opensWith_opening htag hentry
  have hskip : ∀ l ∈ (linesOfAll before).map (DeepLine.mk 1),
      (!(l.depth == 1 && opensWith tag l.text)) = true := by
    intro l hl
    obtain ⟨s, hs, rfl⟩ := List.mem_map.1 hl
    rw [hbefore s hs]
    rfl
  rw [Block.members, lines_ofLines (by simp) h, List.tail_cons, hlist, List.map_append,
    List.dropWhile_append_of_pos hskip, List.map_cons, List.dropWhile_cons_of_neg (by simp [hopening])]
  simp only [Mark.holds_openTag_opening (by decide : IsName "member") htag hmember,
    Bool.false_eq_true, if_false, map_text_mk]
  exact leadingMembers_linesOfAll htag members _

/-! ## Entries of lists and leaves -/

/-- Lists of members, each with its tag. -/
def memberLists (lists : List (String × List String)) : List Node :=
  lists.map fun (tag, members) => memberList tag members

/-- The tags are names of lists, each used once. -/
def AreListTags (tags : List String) : Prop :=
  (∀ t ∈ tags, IsName t ∧ t ≠ "entry" ∧ t ≠ "member") ∧ tags.Nodup

instance (tags : List String) : Decidable (AreListTags tags) :=
  inferInstanceAs (Decidable (_ ∧ _))

theorem flat_memberList {tag : String} (htag : IsName tag) (hentry : tag ≠ "entry")
    (members : List String) : Flat (memberList tag members) := by
  refine .branch htag hentry fun n hn => ?_
  obtain ⟨s, -, rfl⟩ := List.mem_map.1 hn
  exact .leaf s (by decide) (by decide)

section MemberLists

variable {lists : List (String × List String)} (htags : AreListTags (lists.map Prod.fst))
include htags

theorem flat_memberLists : ∀ n ∈ memberLists lists, Flat n := by
  intro n hn
  obtain ⟨⟨tag, members⟩, hmem, rfl⟩ := List.mem_map.1 hn
  obtain ⟨hname, hentry, -⟩ := htags.1 tag (List.mem_map_of_mem hmem)
  exact flat_memberList hname hentry members

/-- **Each list is read back by its tag.** -/
theorem members_memberLists (name : String) {leaves : List Node} (hleaves : ∀ n ∈ leaves, Flat n)
    {tag : String} {members : List String} (hmem : (tag, members) ∈ lists)
    (hne : members ≠ []) :
    (Block.ofLines (entry name (memberLists lists ++ leaves)).lines).members tag = members := by
  have hflat : ∀ n ∈ memberLists lists ++ leaves, Flat n :=
    List.forall_mem_append.2 ⟨flat_memberLists htags, hleaves⟩
  obtain ⟨hname, hentry, hmember⟩ := htags.1 tag (List.mem_map_of_mem hmem)
  obtain ⟨before, after, rfl⟩ := List.append_of_mem hmem
  have hskips : Skips tag (memberLists before) := by
    have hnodup := htags.2
    rw [List.map_append, List.map_cons, List.nodup_append] at hnodup
    intro l hl
    obtain ⟨n, hn, hl⟩ := mem_linesOfAll hl
    obtain ⟨⟨t, ms⟩, ht, rfl⟩ := List.mem_map.1 hn
    have htname := htags.1 t (List.mem_map_of_mem (List.mem_append_left _ ht))
    have hne : t ≠ tag := hnodup.2.2 t (List.mem_map_of_mem ht) tag List.mem_cons_self
    refine skips_memberList ms hname hmember htname.1 htname.2.1 hne l ?_
    rwa [Xml.linesOfAll_singleton]
  have hlist : memberLists (before ++ (tag, members) :: after) ++ leaves
      = memberLists before ++ memberList tag members :: (memberLists after ++ leaves) := by
    simp only [memberLists, List.map_append, List.map_cons, List.append_assoc, List.cons_append]
  rw [hlist] at hflat ⊢
  exact members_ofLines _ _ hname hentry hmember hflat hskips hne

/-- The leaves are found behind the lists. -/
theorem leaf_memberLists (name : String) {leaves : List Node} (hleaves : ∀ n ∈ leaves, Flat n)
    {tag : String} (htag : IsName tag) (hmember : tag ≠ "member") :
    (Block.ofLines (entry name (memberLists lists ++ leaves)).lines).leaf tag
      = leafIn tag leaves := by
  have hflat : ∀ n ∈ memberLists lists ++ leaves, Flat n :=
    List.forall_mem_append.2 ⟨flat_memberLists htags, hleaves⟩
  have hnone : leafIn tag (memberLists lists) = none := by
    clear hflat
    induction lists with
    | nil => rfl
    | cons l lists ih =>
      obtain ⟨hall, hnodup⟩ := htags
      have hl := hall l.1 List.mem_cons_self
      have hrest : AreListTags (lists.map Prod.fst) :=
        ⟨fun t ht => hall t (List.mem_cons_of_mem _ ht), (List.nodup_cons.1 hnodup).2⟩
      have hcons : memberLists (l :: lists) = memberList l.1 l.2 :: memberLists lists := rfl
      rw [hcons, leafIn_cons, leafIn_memberList htag hmember hl.1 hl.2.1, ih hrest]
      rfl
  rw [leaf_ofLines htag hflat, leafIn_append, hnone, Option.none_or]

end MemberLists

end FirewallConfig.PanOs
