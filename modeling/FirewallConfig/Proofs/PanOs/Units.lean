import FirewallConfig.Proofs.PanOs.Collect

/-!
# Proofs/PanOs/Units — what an interface takes from the entries inside it

The entry of an interface may hold entries of its units, and each of them is an interface too.  The
comment of the interface is read from the lines that belong to the entry itself.  Its address is read
from behind the first tag of an address, whoever that belongs to: an interface takes the address of a
unit that stands before its own, and it always does where it has none
(`readInterface_withoutInner_iff`).
-/

namespace FirewallConfig.PanOs

/-! ## Lines of one element -/

/-- One element stands on the line: if it shows an entry, the line is the tag of one. -/
def IsElement (line : String) : Prop :=
  line = closeTag "entry" ∨ closes line = 0 ∧ (Text.occurrences entryHead line = 0
    ∨ Text.occurrences entryHead line = 1 ∧ Text.beginsWith entryHead line = true)

instance : DecidablePred IsElement := fun _ => inferInstanceAs (Decidable (_ ∨ _))

theorem beginsWith_of_entryName {line : String} (htrim : Text.trim line = line)
    (h : (entryName line).isSome = true) : Text.beginsWith entryHead line = true := by
  rw [entryName, htrim] at h
  exact Option.isSome_of_isSome_bind h

namespace IsElement

variable {line : String} (h : IsElement line)
include h

/-- A line closes one entry at most. -/
theorem depthAfter_ne_zero {depth : Nat} (hdepth : 1 < depth) : depthAfter depth line ≠ 0 := by
  have hcloses : closes line ≤ 1 := by
    rcases h with rfl | ⟨hnone, -⟩
    · decide
    · exact hnone.le.trans (Nat.zero_le 1)
  rw [depthAfter]
  omega

/-- A line that opens another element neither opens nor closes an entry. -/
theorem depthAfter_of_opensWith (hip : opensWith "ip" line = true) (depth : Nat) :
    depthAfter depth line = depth := by
  obtain ⟨rest, hrest⟩ := Text.beginsWith_iff.1 hip
  rcases h with rfl | ⟨hcloses, hnone | ⟨-, hentry⟩⟩
  · exact absurd hip (by decide)
  · rw [depthAfter, opens, hnone, hcloses, Nat.zero_sub, Nat.add_zero, Nat.sub_zero]
  · obtain ⟨rest', hrest'⟩ := Text.beginsWith_iff.1 hentry
    exact absurd (hrest.symm.trans hrest') (by simp [openTag, entryHead])

/-- An entry that begins on the line and leaves the depth as it is ends there, too. -/
theorem isSelfClosed (hname : Text.beginsWith entryHead line = true) {depth : Nat}
    (hdepth : depthAfter depth line ≤ depth) : PanOs.isSelfClosed line = true := by
  have hshown : Text.occurrences entryHead line ≠ 0 := by
    obtain ⟨rest, hrest⟩ := Text.beginsWith_iff.1 hname
    exact Chars.occurrences_ne_zero_of_withoutPrefix (Chars.withoutPrefix_eq_some_iff.2 hrest)
  rcases h with rfl | ⟨hcloses, hnone | ⟨hone, -⟩⟩
  · exact absurd hname (by decide)
  · exact absurd hnone hshown
  · by_contra hopen
    rw [depthAfter, opens, hone, hcloses, Bool.eq_false_iff.2 hopen] at hdepth
    exact absurd hdepth (Nat.not_succ_le_self depth)

end IsElement

/-! ## The lines of an entry and of the entries inside it -/

/-- The lines of an entry of a name, from the one that opens it to the one that closes it. -/
structure IsEntryOf (name header : String) (body : List String) : Prop where
  named : entryName header = some name
  opened : depthAfter 0 header = 1
  closed : ClosesLast 1 body
  elements : ∀ l ∈ header :: body, IsElement l

/-- The lines that belong to an entry itself, `depth` entries being open before them. -/
def ownLines (depth : Nat) (ls : List String) : List String :=
  ((deepLines depth ls).filter (·.depth == 1)).map (·.text)

/-- The lines of the entries inside an entry. -/
def innerLines (depth : Nat) (ls : List String) : List String :=
  ((deepLines depth ls).filter (1 < ·.depth)).map (·.text)

section Lines

variable {depth : Nat} {l : String} (ls : List String)

theorem ownLines_cons_of_eq (h : max depth (depthAfter depth l) = 1) :
    ownLines depth (l :: ls) = l :: ownLines (depthAfter depth l) ls := by
  rw [ownLines, deepLines, List.filter_cons_of_pos (by simp [h]), List.map_cons, ← ownLines]

theorem ownLines_cons_of_ne (h : max depth (depthAfter depth l) ≠ 1) :
    ownLines depth (l :: ls) = ownLines (depthAfter depth l) ls := by
  rw [ownLines, deepLines, List.filter_cons_of_neg (by simp [h]), ← ownLines]

theorem innerLines_cons_of_lt (h : 1 < max depth (depthAfter depth l)) :
    innerLines depth (l :: ls) = l :: innerLines (depthAfter depth l) ls := by
  rw [innerLines, deepLines, List.filter_cons_of_pos (by simpa using h), List.map_cons,
    ← innerLines]

theorem innerLines_cons_of_le (h : max depth (depthAfter depth l) ≤ 1) :
    innerLines depth (l :: ls) = innerLines (depthAfter depth l) ls := by
  rw [innerLines, deepLines, List.filter_cons_of_neg (by simpa using h), ← innerLines]

end Lines

theorem mem_of_mem_filter_deepLines {p : DeepLine → Bool} {depth : Nat} {l : String}
    {ls : List String} (h : l ∈ ((deepLines depth ls).filter p).map (·.text)) : l ∈ ls := by
  obtain ⟨m, hm, rfl⟩ := List.mem_map.1 h
  have htext : m.text ∈ (deepLines depth ls).map (·.text) :=
    List.mem_map_of_mem (List.mem_filter.1 hm).1
  rwa [map_text_deepLines] at htext

theorem mem_of_mem_innerLines {depth : Nat} {l : String} {ls : List String}
    (h : l ∈ innerLines depth ls) : l ∈ ls := mem_of_mem_filter_deepLines h

theorem mem_of_mem_ownLines {depth : Nat} {l : String} {ls : List String}
    (h : l ∈ ownLines depth ls) : l ∈ ls := mem_of_mem_filter_deepLines h

/-- **Without the entries inside it, an entry is an entry.** -/
theorem closesLast_ownLines {depth : Nat} {ls : List String} (hdepth : depth ≠ 0)
    (h : ClosesLast depth ls) (helements : ∀ l ∈ ls, IsElement l) :
    ClosesLast 1 (ownLines depth ls) := by
  induction ls generalizing depth with
  | nil => exact absurd h hdepth
  | cons l ls ih =>
    obtain ⟨hl, hls⟩ := List.forall_mem_cons.1 helements
    obtain ⟨-, hrest⟩ := h
    by_cases hown : max depth (depthAfter depth l) = 1
    · rw [ownLines_cons_of_eq ls hown]
      obtain rfl : depth = 1 := by omega
      refine ⟨Nat.one_ne_zero, ?_⟩
      obtain hlast | hsame : depthAfter 1 l = 0 ∨ depthAfter 1 l = 1 := by omega
      · rw [hlast] at hrest ⊢
        rw [hrest.eq_nil]
        rfl
      · rw [hsame] at hrest ⊢
        exact ih Nat.one_ne_zero hrest hls
    · rw [ownLines_cons_of_ne ls hown]
      have hopen : depthAfter depth l ≠ 0 := by
        by_cases hone : depth = 1
        · omega
        · exact hl.depthAfter_ne_zero (by omega)
      exact ih hopen hrest hls

/-- Without the entries inside it, an entry has no further ones. -/
theorem ownLines_ownLines {depth : Nat} {ls : List String} (h : ClosesLast depth ls) :
    ownLines 1 (ownLines depth ls) = ownLines depth ls := by
  induction ls generalizing depth with
  | nil => rfl
  | cons l ls ih =>
    obtain ⟨hdepth, hrest⟩ := h
    by_cases hown : max depth (depthAfter depth l) = 1
    · rw [ownLines_cons_of_eq ls hown]
      obtain rfl : depth = 1 := by omega
      rw [ownLines_cons_of_eq _ hown]
      obtain hlast | hsame : depthAfter 1 l = 0 ∨ depthAfter 1 l = 1 := by omega
      · rw [hlast] at hrest ⊢
        rw [hrest.eq_nil]
        rfl
      · rw [hsame] at hrest ⊢
        rw [ih hrest]
    · rw [ownLines_cons_of_ne ls hown]
      exact ih hrest

/-- **An entry on a line of an entry itself ends on that line.** -/
theorem isSelfClosed_of_mem_ownLines {depth : Nat} {ls : List String} (h : ClosesLast depth ls)
    (helements : ∀ l ∈ ls, IsElement l) {l : String} (hl : l ∈ ownLines depth ls)
    (hname : Text.beginsWith entryHead l = true) : isSelfClosed l = true := by
  induction ls generalizing depth with
  | nil => cases hl
  | cons m ls ih =>
    obtain ⟨hm, hls⟩ := List.forall_mem_cons.1 helements
    obtain ⟨hdepth, hrest⟩ := h
    have hlater (hl : l ∈ ownLines (depthAfter depth m) ls) : isSelfClosed l = true :=
      ih hrest hls hl
    by_cases hown : max depth (depthAfter depth m) = 1
    · rw [ownLines_cons_of_eq ls hown] at hl
      rcases List.mem_cons.1 hl with rfl | hl
      · have hsame : depthAfter depth l ≤ depth := by omega
        exact hm.isSelfClosed hname hsame
      · exact hlater hl
    · rw [ownLines_cons_of_ne ls hown] at hl
      exact hlater hl

/-! ## The first tag of an address -/

/-- The first address tag and the line behind it belong to the entry itself. -/
def FirstIsOwn (ls : List DeepLine) : Prop :=
  ∀ l next rest, (ls.dropWhile fun l => !opensWith "ip" l.text) = l :: next :: rest →
    l.depth = 1 ∧ next.depth = 1

/-- The first address tag belongs to an entry inside the entry. -/
def FirstIsInner (ls : List DeepLine) : Prop :=
  ∃ l, (ls.find? fun l => opensWith "ip" l.text) = some l ∧ 1 < l.depth

section First

variable {depth : Nat} {ls : List String} (h : ClosesLast depth ls)
  (helements : ∀ l ∈ ls, IsElement l)
include h helements

theorem nameBehind_ownLines (hfirst : FirstIsOwn (deepLines depth ls)) :
    nameBehind "ip" (ownLines depth ls) = nameBehind "ip" ls := by
  induction ls generalizing depth with
  | nil => rfl
  | cons l ls ih =>
    obtain ⟨hl, hls⟩ := List.forall_mem_cons.1 helements
    obtain ⟨hdepth, hrest⟩ := h
    cases hip : opensWith "ip" l with
    | true =>
      have hsame := hl.depthAfter_of_opensWith hip depth
      cases ls with
      | nil => exact absurd (hsame ▸ hrest) hdepth
      | cons m ls =>
        have hdrop : (deepLines depth (l :: m :: ls)).dropWhile (fun l => !opensWith "ip" l.text)
            = deepLines depth (l :: m :: ls) := by
          rw [deepLines, List.dropWhile_cons_of_neg (by simp [hip])]
        obtain ⟨hown, hnext⟩ := hfirst _ _ _ hdrop
        rw [ownLines_cons_of_eq _ hown, ownLines_cons_of_eq _ hnext,
          nameBehind_cons_of_opensWith hip, nameBehind_cons_of_opensWith hip]
        rfl
    | false =>
      have hlater : nameBehind "ip" (ownLines (depthAfter depth l) ls) = nameBehind "ip" ls := by
        refine ih hrest hls fun first next rest hdrop => hfirst first next rest ?_
        rw [deepLines, List.dropWhile_cons_of_pos (by simp [hip]), hdrop]
      rw [nameBehind_cons_of_not_opensWith hip]
      by_cases hown : max depth (depthAfter depth l) = 1
      · rw [ownLines_cons_of_eq ls hown, nameBehind_cons_of_not_opensWith hip, hlater]
      · rw [ownLines_cons_of_ne ls hown, hlater]

/-- **An address tag of an inner entry has the line behind it in the inner entry, too.** -/
theorem nameBehind_innerLines (hfirst : FirstIsInner (deepLines depth ls)) :
    nameBehind "ip" (innerLines depth ls) = nameBehind "ip" ls := by
  induction ls generalizing depth with
  | nil => rfl
  | cons l ls ih =>
    obtain ⟨hl, hls⟩ := List.forall_mem_cons.1 helements
    obtain ⟨hdepth, hrest⟩ := h
    obtain ⟨first, hfind, hinner⟩ := hfirst
    cases hip : opensWith "ip" l with
    | true =>
      have hsame := hl.depthAfter_of_opensWith hip depth
      rw [deepLines, List.find?_cons_of_pos (by exact hip), Option.some_inj] at hfind
      rw [← hfind] at hinner
      have hinner : 1 < max depth (depthAfter depth l) := hinner
      cases ls with
      | nil => exact absurd (hsame ▸ hrest) hdepth
      | cons m ls =>
        have hnext : 1 < max (depthAfter depth l) (depthAfter (depthAfter depth l) m) := by
          rw [hsame] at hinner ⊢
          omega
        rw [innerLines_cons_of_lt _ hinner, innerLines_cons_of_lt _ hnext,
          nameBehind_cons_of_opensWith hip, nameBehind_cons_of_opensWith hip]
        rfl
    | false =>
      rw [deepLines, List.find?_cons_of_neg (by simp [hip])] at hfind
      have hlater := ih hrest hls ⟨first, hfind, hinner⟩
      rw [nameBehind_cons_of_not_opensWith hip]
      by_cases hown : 1 < max depth (depthAfter depth l)
      · rw [innerLines_cons_of_lt ls hown, nameBehind_cons_of_not_opensWith hip, hlater]
      · rw [innerLines_cons_of_le ls (not_lt.1 hown), hlater]

omit helements in
theorem depth_ne_zero_of_mem_deepLines : ∀ l ∈ deepLines depth ls, l.depth ≠ 0 := by
  induction ls generalizing depth with
  | nil => exact List.forall_mem_nil _
  | cons l ls ih =>
    obtain ⟨hdepth, hrest⟩ := h
    have hdeep : max depth (depthAfter depth l) ≠ 0 := by omega
    exact List.forall_mem_cons.2 ⟨hdeep, ih hrest⟩

/-- Where the entry itself has no address tag, those of the inner entries are all there are. -/
theorem nameBehind_innerLines_of_forall (hown : ∀ l ∈ ownLines depth ls, opensWith "ip" l = false) :
    nameBehind "ip" (innerLines depth ls) = nameBehind "ip" ls := by
  have hdepths := depth_ne_zero_of_mem_deepLines h
  cases hfind : (deepLines depth ls).find? fun l => opensWith "ip" l.text with
  | some l =>
    refine nameBehind_innerLines h helements ⟨l, hfind, ?_⟩
    by_contra hdeep
    have hmem := List.mem_of_find?_eq_some hfind
    have hone : l.depth = 1 := by have := hdepths l hmem; omega
    have hnot := hown l.text (List.mem_map_of_mem (List.mem_filter.2 ⟨hmem, beq_iff_eq.2 hone⟩))
    rw [List.find?_some hfind] at hnot
    cases hnot
  | none =>
    have hnone {ms : List String} (hms : ∀ l ∈ ms, l ∈ ls) : nameBehind "ip" ms = none := by
      have hskip : ∀ l ∈ ms, opensWith "ip" l = false := fun l hl => by
        have hmem := hms l hl
        rw [← map_text_deepLines depth ls] at hmem
        obtain ⟨m, hm, rfl⟩ := List.mem_map.1 hmem
        exact Bool.eq_false_iff.2 (List.find?_eq_none.1 hfind m hm)
      exact nameBehind_eq_none hskip
    rw [hnone fun _ hl => mem_of_mem_innerLines hl, hnone fun _ hl => hl]

end First

/-! ## The entry of an interface -/

namespace IsEntryOf

variable {name header : String} {body : List String} (h : IsEntryOf name header body)
include h

/-- The line that opens an entry is its tag, and nothing else. -/
theorem header_eq : closes header = 0 ∧ isSelfClosed header = false := by
  have hopens := h.opened
  rw [depthAfter] at hopens
  rcases h.elements header List.mem_cons_self with rfl | ⟨hcloses, hnone | ⟨hone, hbegins⟩⟩
  · exact absurd hopens (by decide)
  · rw [opens, hnone] at hopens
    exact absurd hopens (by omega)
  · refine ⟨hcloses, Bool.eq_false_iff.2 fun hself => ?_⟩
    rw [opens, hone, hcloses, hself, hbegins] at hopens
    exact absurd hopens (by decide)

theorem elements_body : ∀ l ∈ body, IsElement l := (List.forall_mem_cons.1 h.elements).2

/-- **The entry without the entries inside it.** -/
theorem withoutInner : IsEntryOf name header (ownLines 1 body) where
  named := h.named
  opened := h.opened
  closed := closesLast_ownLines Nat.one_ne_zero h.closed h.elements_body
  elements := List.forall_mem_cons.2 ⟨h.elements header List.mem_cons_self,
    fun l hl => h.elements_body l (mem_of_mem_ownLines hl)⟩

theorem lines_eq : (Block.ofLines (header :: body)).lines = ⟨1, header⟩ :: deepLines 1 body := by
  show deepLines 0 (header :: body) = _
  rw [deepLines, h.opened]
  rfl

/-- The texts of an entry's own elements are those of its own lines. -/
theorem leaf_eq (tag : String) :
    (Block.ofLines (header :: body)).leaf tag = (ownLines 1 body).findSome? (leafText tag) := by
  rw [Block.leaf, Block.own, h.lines_eq, List.tail_cons, ownLines]

theorem leaf_withoutInner (tag : String) :
    (Block.ofLines (header :: ownLines 1 body)).leaf tag
      = (Block.ofLines (header :: body)).leaf tag := by
  rw [h.withoutInner.leaf_eq, h.leaf_eq, ownLines_ownLines h.closed]

variable (htrim : ∀ l ∈ header :: body, Text.trim l = l)
include htrim

/-- What stands behind the first address tag is looked for behind the line that opens the entry. -/
theorem nameBehind_header (ls : List String) : nameBehind "ip" (header :: ls) = nameBehind "ip" ls := by
  refine nameBehind_cons_of_not_opensWith (Bool.eq_false_iff.2 fun hip => ?_) ls
  have hentry := beginsWith_of_entryName (htrim header List.mem_cons_self)
    (Option.isSome_iff_exists.2 ⟨name, h.named⟩)
  obtain ⟨rest, hrest⟩ := Text.beginsWith_iff.1 hip
  obtain ⟨rest', hrest'⟩ := Text.beginsWith_iff.1 hentry
  exact absurd (hrest.symm.trans hrest') (by simp [openTag, entryHead])

/-- **The scan takes in the entry, all of it.** -/
theorem run_eq {r : Reading} {a : Area} (harea : r.area = some a) (hentry : r.entry = none) :
    r.run (header :: body)
      = { r with config := addEntry r.config (Block.ofLines (header :: body)) name a } := by
  obtain ⟨hheader, hbody⟩ := List.forall_mem_cons.1 htrim
  obtain ⟨hcloses, hself⟩ := h.header_eq
  have hholds : Text.holds (closeTag "entry") header = false := by
    rw [Text.holds, Text.cutAt, Option.isSome_map]
    exact Option.isSome_eq_false_iff.2
      (Option.isNone_iff_eq_none.2 (Chars.cutAt_eq_none_of_occurrences hcloses))
  have hname : (Block.ofLines (header :: body)).name = some name := by
    rw [Block.ofLines, List.head?_cons, Option.bind_some, h.named]
  rw [Reading.run_cons, Reading.step_of_entryName harea hentry hheader h.named hself hholds,
    Reading.run_of_closesLast rfl hbody Nat.one_ne_zero h.closed, Reading.takeEntry_entry,
    List.reverse_singleton, List.singleton_append, Reading.takeEntry, harea, hname]
  dsimp only
  rw [hentry]

/-- No unit is read where no entry is inside. -/
theorem readUnits_withoutInner : readUnits (Block.ofLines (header :: ownLines 1 body)) = [] := by
  have hnone : Block.childLines none (deepLines 1 (ownLines 1 body)) = [] := by
    refine childLines_eq_nil fun l hl hname => ?_
    have hmem : l.text ∈ ownLines 1 body := by
      rw [← map_text_deepLines 1 (ownLines 1 body)]
      exact List.mem_map_of_mem hl
    have htext := htrim l.text (List.mem_cons_of_mem _ (mem_of_mem_ownLines hmem))
    exact isSelfClosed_of_mem_ownLines h.closed h.elements_body hmem
      (beginsWith_of_entryName htext hname)
  rw [readUnits, Block.children, h.withoutInner.lines_eq, List.tail_cons, hnone]
  rfl

end IsEntryOf

/-- The network that an entry gives its interface. -/
def networkOf (b : Block) : Option Network := (b.entryAfter "ip").bind Network.read?

/-- Of interfaces with the same comment, the networks make the difference. -/
theorem readInterface_eq_iff {b b' : Block} (hcomment : b.leaf "comment" = b'.leaf "comment")
    (name : String) : readInterface b name = readInterface b' name ↔ networkOf b = networkOf b' := by
  have hnetwork {m n : Option Network} (haddress : m.map (·.address) = n.map (·.address))
      (hmask : m.map (·.mask) = n.map (·.mask)) : m = n := by
    cases m with
    | none => exact (Option.map_eq_none_iff.1 haddress.symm).symm
    | some m =>
      obtain ⟨n, rfl, haddress⟩ := Option.map_eq_some_iff.1 haddress.symm
      have hmask := Option.some.inj hmask
      cases m
      cases n
      cases haddress
      cases hmask
      rfl
  constructor
  · intro h
    exact hnetwork (congrArg Interface.ip h) (congrArg Interface.mask h)
  · intro h
    rw [networkOf, networkOf] at h
    rw [readInterface, readInterface, h, hcomment]

/-- **An interface is what it would be without the entries inside its own** just if it finds no address
in them before its own one.  What its entry says itself is its comment; its address is that of the
first address tag, and so it has the address of a unit where it has none. -/
theorem readInterface_withoutInner_iff {text : String} {before after : List String}
    {name header : String} {body : List String}
    (htext : (Text.lines text).map Text.trim = before ++ (header :: body) ++ after)
    (harea : (Reading.run {} before).area = some .interfaces)
    (hentry : (Reading.run {} before).entry = none) (h : IsEntryOf name header body) :
    ((Reading.run {} before).run (header :: body)).config
        = (readUnits (Block.ofLines (header :: body))).foldl Config.putInterface
          ((Reading.run {} before).config.putInterface
            (readInterface (Block.ofLines (header :: body)) name))
      ∧ ((Reading.run {} before).run (header :: ownLines 1 body)).config
        = (Reading.run {} before).config.putInterface
          (readInterface (Block.ofLines (header :: ownLines 1 body)) name)
      ∧ (readInterface (Block.ofLines (header :: ownLines 1 body)) name).nickname
        = (readInterface (Block.ofLines (header :: body)) name).nickname
      ∧ (readInterface (Block.ofLines (header :: ownLines 1 body)) name
          = readInterface (Block.ofLines (header :: body)) name
        ↔ FirstIsOwn (deepLines 1 body)
          ∨ networkOf (Block.ofLines (header :: ownLines 1 body))
            = networkOf (Block.ofLines (header :: body)))
      ∧ (FirstIsInner (deepLines 1 body) → networkOf (Block.ofLines (header :: body))
        = (nameBehind "ip" (innerLines 1 body)).bind Network.read?)
      ∧ ((∀ l ∈ ownLines 1 body, opensWith "ip" l = false) →
        (readInterface (Block.ofLines (header :: ownLines 1 body)) name).address? = none
          ∧ networkOf (Block.ofLines (header :: body))
            = (nameBehind "ip" (innerLines 1 body)).bind Network.read?) := by
  rw [List.append_assoc] at htext
  have htrim : ∀ l ∈ header :: body, Text.trim l = l :=
    fun l hl => trim_of_map_trim_lines_eq htext l (List.mem_append_left after hl)
  have htrimOwn : ∀ l ∈ header :: ownLines 1 body, Text.trim l = l :=
    List.forall_mem_cons.2 ⟨htrim header List.mem_cons_self,
      fun l hl => htrim l (List.mem_cons_of_mem _ (mem_of_mem_ownLines hl))⟩
  have hnetwork (ls : List String) : networkOf (Block.ofLines (header :: ls))
      = (nameBehind "ip" ls).bind Network.read? := by
    rw [networkOf, entryAfter_ofLines_eq, h.nameBehind_header htrim]
  have hcomment := h.leaf_withoutInner "comment"
  refine ⟨?_, ?_, hcomment, ?_, fun hfirst => ?_, fun hown => ⟨?_, ?_⟩⟩
  · rw [h.run_eq htrim harea hentry]
    rfl
  · rw [h.withoutInner.run_eq htrimOwn harea hentry, addEntry, h.readUnits_withoutInner htrim]
    rfl
  · rw [readInterface_eq_iff hcomment]
    refine ⟨.inr, fun hcases => hcases.elim (fun hfirst => ?_) id⟩
    rw [hnetwork, hnetwork, nameBehind_ownLines h.closed h.elements_body hfirst]
  · rw [hnetwork, nameBehind_innerLines h.closed h.elements_body hfirst]
  · have hnone : networkOf (Block.ofLines (header :: ownLines 1 body)) = none := by
      rw [hnetwork, nameBehind_eq_none hown]
      rfl
    rw [networkOf] at hnone
    rw [readInterface, hnone]
    rfl
  · rw [hnetwork,
      nameBehind_innerLines_of_forall h.closed h.elements_body hown]

/-- What opens the entry of an interface. -/
def trunkHeader : String := "<entry name=\"ethernet1/2\">"

/-- An entry that has an address tag or none, and the entry of a unit behind it. -/
def trunkBody (address : List String) : List String :=
  address ++ ["<units>", "<entry name=\"ethernet1/2.10\">", "<ip>",
    "<entry name=\"10.0.10.1/24\"/>", "</ip>", "</entry>", "</units>", "</entry>"]

/-- The text of an interface with some lines in its entry. -/
def trunkText (body : List String) : String :=
  Text.unlines (["<ethernet>"] ++ (trunkHeader :: body) ++ ["</ethernet>"])

/-- The lines of an address. -/
def addressLines : List String := ["<ip>", "<entry name=\"10.0.0.1/24\"/>", "</ip>"]

/-- An interface whose own address stands first is what it would be without its unit. -/
theorem readInterface_withoutInner_iff_trunkText :
    (Text.lines (trunkText (trunkBody addressLines))).map Text.trim
        = ["<ethernet>"] ++ (trunkHeader :: trunkBody addressLines) ++ ["</ethernet>"]
      ∧ (Reading.run {} ["<ethernet>"]).area = some .interfaces
      ∧ (Reading.run {} ["<ethernet>"]).entry = none
      ∧ IsEntryOf "ethernet1/2" trunkHeader (trunkBody addressLines)
      ∧ readInterface (Block.ofLines (trunkHeader :: ownLines 1 (trunkBody addressLines))) "ethernet1/2"
        = readInterface (Block.ofLines (trunkHeader :: trunkBody addressLines)) "ethernet1/2" := by
  have htext : (Text.lines (trunkText (trunkBody addressLines))).map Text.trim
      = ["<ethernet>"] ++ (trunkHeader :: trunkBody addressLines) ++ ["</ethernet>"] := by
    rw [trunkText, Text.map_trim_lines_unlines (by decide +kernel)]
    decide +kernel
  have harea : (Reading.run {} ["<ethernet>"]).area = some .interfaces := by decide +kernel
  have hentry : (Reading.run {} ["<ethernet>"]).entry = none := by decide +kernel
  have hblock : IsEntryOf "ethernet1/2" trunkHeader (trunkBody addressLines) :=
    ⟨by decide +kernel, by decide +kernel, by decide +kernel, by decide +kernel⟩
  obtain ⟨-, -, -, hiff, -, -⟩ := readInterface_withoutInner_iff htext harea hentry hblock
  refine ⟨htext, harea, hentry, hblock, hiff.2 (.inr ?_)⟩
  decide +kernel

/-- **An interface without an address has that of its unit**, and none without the unit. -/
theorem not_kept_trunkText :
    IsEntryOf "ethernet1/2" trunkHeader (trunkBody [])
      ∧ (∀ l ∈ ownLines 1 (trunkBody []), opensWith "ip" l = false)
      ∧ (read (trunkText (trunkBody []))).interface? "ethernet1/2"
        = some { name := "ethernet1/2", ip := some "10.0.10.1", mask := some "255.255.255.0" }
      ∧ (read (trunkText (ownLines 1 (trunkBody [])))).interface? "ethernet1/2"
        = some { name := "ethernet1/2" } := by
  rw [trunkText, trunkText, read_unlines (by decide +kernel), read_unlines (by decide +kernel)]
  refine ⟨⟨?_, ?_, ?_, ?_⟩, ?_, ?_, ?_⟩
  all_goals decide +kernel

end FirewallConfig.PanOs
