import FirewallConfig.Proofs.PanOs.Records
import FirewallConfig.Proofs.Text.Offsets

/-!
# Proofs/PanOs/Windows — an entry whose lines are taken by their places

The lines of an entry may be kept with a list of their depths beside them, so that a line and its
depth are found in the same place (`View`).  What is read of the entry is then cut out of it: a name
out of a line, the lines behind a line, and the lines of an entry inside it.  A name that ends in
`At` is that of a reader which takes its parts by their places and checks each place.  No check
fails, on any lines: what is found in a list is in it, and the loop over the entries inside an entry
goes on in every round.
-/

namespace FirewallConfig.PanOs

/-! ## The name of an entry -/

/-- The name of the entry that a line opens, by its places in the line. -/
def entryNameAt (line : String) : Checked (Option String) :=
  match Text.withoutPrefix entryHead (Text.trim line) with
  | none => .ok none
  | some attributes =>
    match Offset.findPiece "name=\"".toList attributes.toList with
    | none => .ok none
    | some place => do
      let first := place + Offset.bytes "name=\"".toList
      let value ← Offset.drop first attributes.toList
      match Offset.find (· == '"') value with
      | none => return none
      | some length => do
        let name ← Offset.slice first (first + length) attributes.toList
        return some (Xml.unescape (String.ofList name))

/-- The name of the entry that a line opens, if there is a line. -/
def nextNameAt : Option String → Checked (Option String)
  | some line => entryNameAt line
  | none => .ok none

/-- **A name is cut out of its line between characters.** -/
theorem entryNameAt_eq (line : String) : entryNameAt line = .ok (entryName line) := by
  rw [entryNameAt, entryName]
  cases Text.withoutPrefix entryHead (Text.trim line) with
  | none => rfl
  | some attributes =>
    simp only [Option.bind_some, Text.cutAt, Offset.findPiece_eq_map_cutAt]
    cases hname : Chars.cutAt "name=\"".toList attributes.toList with
    | none => rfl
    | some ab =>
      obtain ⟨before, value⟩ := ab
      have hattributes : attributes.toList = before ++ "name=\"".toList ++ value := by
        rw [Chars.eq_append_of_cutAt hname, List.append_assoc]
      simp only [Option.map_some, Option.bind_some, Text.cut, String.toList_ofList, hattributes,
        ← Offset.bytes_append, Offset.drop_append, Checked.ok_bind, Offset.find_eq_map_cut]
      cases hquote : Chars.cut '"' value with
      | none => rfl
      | some nt =>
        obtain ⟨name, tail⟩ := nt
        have hslice := Offset.slice_append (before ++ "name=\"".toList) name ('"' :: tail)
        rw [← Chars.eq_append_of_cut hquote] at hslice
        simp only [Option.map_some, hslice, Checked.ok_bind, Checked.pure_eq_ok]

theorem nextNameAt_eq (line : Option String) : nextNameAt line = .ok (line.bind entryName) := by
  cases line with
  | none => rfl
  | some line => exact entryNameAt_eq line

/-! ## Views -/

/-- The lines of an entry, and beside them the depth of each. -/
structure View where
  name : Option String
  lines : List String
  depths : List Nat
deriving DecidableEq, Repr

/-- The depths of some lines, `depth` entries being open before them. -/
def depthsFrom (depth : Nat) : List String → List Nat
  | [] => []
  | line :: lines =>
    let after := depthAfter depth line
    max depth after :: depthsFrom after lines

/-- The lines of a block, beside their depths. -/
def Block.view (b : Block) : View where
  name := b.name
  lines := b.lines.map (·.text)
  depths := b.lines.map (·.depth)

namespace View

/-- The entry that some lines make up. -/
def ofLinesAt (lines : List String) : Checked View := do
  return { name := ← nextNameAt lines.head?, lines, depths := depthsFrom 0 lines }

/-- The lines in and behind a place that belong to the entry itself, each with its place. -/
def ownFrom (depths : List Nat) (place : Nat) : List String → Checked (List (String × Nat))
  | [] => .ok []
  | line :: lines => do
    let depth ← Checked.get place depths
    let rest ← ownFrom depths (place + 1) lines
    return if depth == 1 then (line, place) :: rest else rest

/-- The lines that belong to the entry itself, each with its place. -/
def ownAt (v : View) : Checked (List (String × Nat)) := ownFrom v.depths 1 v.lines.tail

/-- The text of the entry's own element of a tag. -/
def leafAt (v : View) (tag : String) : Checked (Option String) := do
  return (← v.ownAt).findSome? fun (line, _) => leafText tag line

/-- The text of an element of a tag, at any depth. -/
def anyLeaf (v : View) (tag : String) : Option String := v.lines.findSome? (leafText tag)

/-- An element of a tag stands in the entry, at any depth. -/
def hasTag (v : View) (tag : String) : Bool :=
  v.lines.any fun line => opensWith tag line || line == emptyTag tag

/-- The members of the entry's own list of a tag. -/
def membersAt (v : View) (tag : String) : Checked (List String) := do
  match (← v.ownAt).find? fun (line, _) => opensWith tag line with
  | none => return []
  | some (line, place) =>
    if Text.holds (openTag "member") line then return inlineMembers line
    else return leadingMembers (← Checked.drop (place + 1) v.lines)

/-- The name of the entry that follows an opening tag, on the same line or on the next one. -/
def entryAfterAt (v : View) (tag : String) : Checked (Option String) :=
  match v.lines.findIdx? (opensWith tag) with
  | none => .ok none
  | some place => do
    match ← nextNameAt (Text.withoutPrefix (openTag tag) (← Checked.get place v.lines)) with
    | some name => return some name
    | none => nextNameAt v.lines[place + 1]?

/-- The members of a zone. -/
def zoneMembersAt (v : View) : Checked (List String) :=
  match v.lines.findIdx? (· == openTag "network") with
  | none => .ok []
  | some place =>
    match v.lines[place + 1]? with
    | none => .ok []
    | some mode =>
      if Text.holds (openTag "member") mode then .ok (inlineMembers mode)
      else if Block.zoneModes.any fun m => mode == openTag m then do
        return leadingMembers (← Checked.drop (place + 2) v.lines)
      else .ok []

/-- The place of the line that closes the entry of which `depth` are open before a place, or the
number of lines.  The number of rounds is limited. -/
def closingAt (lines : List String) : Nat → Nat → Nat → Checked Nat
  | 0, _, _ => .error .endless
  | rounds + 1, place, depth =>
    if place < lines.length then do
      let line ← Checked.get place lines
      if depthAfter depth line = 0 then return place
      else closingAt lines rounds (place + 1) (depthAfter depth line)
    else .ok place

/-- The entry that begins in a place, and the place where it ends. -/
def childAt (v : View) (place : Nat) : Checked (View × Nat) := do
  let stop ← closingAt v.lines (v.lines.length + 1) place 0
  let last ← Checked.sub v.lines.length 1
  return (← ofLinesAt (← Checked.slice place (min stop last + 1) v.lines), stop)

/-- The entries that stand directly in the entry, from a place on.  The number of rounds is
limited. -/
def childrenFrom (v : View) : Nat → Nat → Checked (List View)
  | 0, _ => .error .endless
  | rounds + 1, place =>
    if place < v.lines.length then do
      let line ← Checked.get place v.lines
      let depth ← Checked.get place v.depths
      if 1 ≤ depth && (← entryNameAt line).isSome && !isSelfClosed line then do
        let (child, stop) ← v.childAt place
        return child :: (← childrenFrom v rounds (stop + 1))
      else childrenFrom v rounds (place + 1)
    else .ok []

/-- The entries that stand directly in the entry. -/
def childrenAt (v : View) : Checked (List View) := v.childrenFrom (v.lines.length + 1) 1

end View

/-! ## What a view shows -/

theorem depthsFrom_eq (depth : Nat) (lines : List String) :
    depthsFrom depth lines = (deepLines depth lines).map (·.depth) := by
  induction lines generalizing depth with
  | nil => rfl
  | cons line lines ih => rw [depthsFrom, deepLines, List.map_cons, ih]

@[simp] theorem Block.name_view (b : Block) : b.view.name = b.name := rfl

namespace View

theorem ofLinesAt_eq (lines : List String) : ofLinesAt lines = .ok (Block.ofLines lines).view := by
  rw [ofLinesAt, nextNameAt_eq, Block.view, Block.ofLines, map_text_deepLines, ← depthsFrom_eq]
  rfl

/-- The lines of depth 1, each with its place, if the first line is in the given place. -/
def ownPlaces (place : Nat) : List DeepLine → List (String × Nat)
  | [] => []
  | l :: ls =>
    if l.depth == 1 then (l.text, place) :: ownPlaces (place + 1) ls else ownPlaces (place + 1) ls

/-- The depth of a line is in the place of the line. -/
theorem ownFrom_eq (before ls : List DeepLine) :
    ownFrom ((before ++ ls).map (·.depth)) before.length (ls.map (·.text))
      = .ok (ownPlaces before.length ls) := by
  induction ls generalizing before with
  | nil => rfl
  | cons l ls ih =>
    have hget : Checked.get before.length ((before ++ l :: ls).map (·.depth)) = .ok l.depth := by
      simpa using Checked.get_append_cons (before.map (·.depth)) l.depth (ls.map (·.depth))
    have hrest : ownFrom ((before ++ l :: ls).map (·.depth)) (before.length + 1) (ls.map (·.text))
        = .ok (ownPlaces (before.length + 1) ls) := by
      simpa using ih (before ++ [l])
    rw [List.map_cons, ownFrom, hget, Checked.ok_bind, hrest]
    rfl

theorem ownAt_view (b : Block) : b.view.ownAt = .ok (ownPlaces 1 b.lines.tail) := by
  rw [ownAt, Block.view]
  cases b.lines with
  | nil => rfl
  | cons l ls => exact ownFrom_eq [l] ls

theorem map_fst_ownPlaces (place : Nat) (ls : List DeepLine) :
    (ownPlaces place ls).map Prod.fst = (ls.filter (·.depth == 1)).map (·.text) := by
  induction ls generalizing place with
  | nil => rfl
  | cons l ls ih =>
    rw [ownPlaces, List.filter_cons]
    split
    · rw [List.map_cons, List.map_cons, ih]
    · exact ih _

@[simp] theorem leafAt_view (b : Block) (tag : String) : b.view.leafAt tag = .ok (b.leaf tag) := by
  rw [leafAt, ownAt_view, Block.leaf, Block.own, ← map_fst_ownPlaces 1, List.findSome?_map]
  rfl

@[simp] theorem anyLeaf_view (b : Block) (tag : String) : b.view.anyLeaf tag = b.anyLeaf tag := by
  rw [anyLeaf, Block.view, List.findSome?_map]
  rfl

@[simp] theorem hasTag_view (b : Block) : b.view.hasTag = b.hasTag := by
  funext tag
  rw [hasTag, Block.view, List.any_map]
  rfl

/-! ## The lines behind a line -/

theorem find?_ownPlaces_of_forall {p : String → Bool} {ls : List DeepLine}
    (h : ∀ l ∈ ls, (l.depth == 1 && p l.text) = false) (place : Nat) :
    (ownPlaces place ls).find? (fun (line, _) => p line) = none := by
  induction ls generalizing place with
  | nil => rfl
  | cons l ls ih =>
    obtain ⟨hl, hls⟩ := List.forall_mem_cons.1 h
    rw [ownPlaces]
    split
    · next hdepth =>
      have hp : p l.text = false := by simpa [hdepth] using hl
      rw [List.find?_cons_of_neg (by simp [hp]), ih hls]
    · exact ih hls _

/-- The first of the lines that fits is found in its place. -/
theorem find?_ownPlaces {p : String → Bool} {before : List DeepLine} {l : DeepLine}
    (hbefore : ∀ k ∈ before, (k.depth == 1 && p k.text) = false)
    (hl : (l.depth == 1 && p l.text) = true) (behind : List DeepLine) (place : Nat) :
    (ownPlaces place (before ++ l :: behind)).find? (fun (line, _) => p line)
      = some (l.text, place + before.length) := by
  induction before generalizing place with
  | nil =>
    obtain ⟨hdepth, hp⟩ := Bool.and_eq_true_iff.1 hl
    rw [List.nil_append, ownPlaces, if_pos hdepth]
    exact List.find?_cons_of_pos hp
  | cons k before ih =>
    obtain ⟨hk, hbefore⟩ := List.forall_mem_cons.1 hbefore
    have hrest := ih hbefore (place + 1)
    rw [Nat.add_right_comm, Nat.add_assoc, ← List.length_cons] at hrest
    rw [List.cons_append, ownPlaces]
    split
    · next hdepth =>
      have hp : p k.text = false := by simpa [hdepth] using hk
      rw [List.find?_cons_of_neg (by simp [hp]), hrest]
    · exact hrest

/-- **The lines behind the line of a list are lines of the entry.** -/
@[simp] theorem membersAt_view (b : Block) (tag : String) : b.view.membersAt tag = .ok (b.members tag) := by
  rw [membersAt, ownAt_view, Checked.ok_bind, Block.members]
  rcases Checked.find_cases (fun l => l.depth == 1 && opensWith tag l.text) b.lines.tail with
    hnone | ⟨before, l, behind, htail, hbefore, hl⟩
  · rw [find?_ownPlaces_of_forall hnone, Checked.dropWhile_of_forall hnone]
    rfl
  · obtain ⟨head, hlines⟩ : ∃ head, b.lines = head :: before ++ l :: behind := by
      cases hb : b.lines with
      | nil => simp [hb] at htail
      | cons head tail => exact ⟨head, by rw [hb, List.tail_cons] at htail; rw [htail]; rfl⟩
    have hdrop : Checked.drop (1 + before.length + 1) b.view.lines
        = .ok (behind.map (·.text)) := by
      rw [Block.view, hlines]
      simpa [Nat.add_comm] using
        Checked.drop_append_cons ((head :: before).map (·.text)) l.text (behind.map (·.text))
    rw [htail, find?_ownPlaces hbefore hl, Checked.dropWhile_found hbefore hl]
    simp only [hdrop]
    split <;> rfl

/-- **The line of a tag is a line of the entry.** -/
@[simp] theorem entryAfterAt_view (b : Block) (tag : String) :
    b.view.entryAfterAt tag = .ok (b.entryAfter tag) := by
  rw [entryAfterAt, entryAfter_eq, nameBehind, Block.view]
  rcases Checked.find_cases (opensWith tag) (b.lines.map (·.text)) with
    hnone | ⟨before, line, behind, hlines, hbefore, hline⟩
  · rw [List.findIdx?_eq_none_iff.2 hnone, Checked.dropWhile_of_forall hnone]
  · have hnext : (before ++ line :: behind)[before.length + 1]? = behind.head? := by
      rw [List.getElem?_append_right (Nat.le_add_right _ _), Nat.add_sub_cancel_left,
        List.getElem?_cons_succ, List.head?_eq_getElem?]
    rw [hlines, Checked.findIdx?_found hbefore hline, Checked.dropWhile_found hbefore hline]
    simp only [Checked.get_append_cons, Checked.ok_bind, nextNameAt_eq, hnext]
    cases (Text.withoutPrefix (openTag tag) line).bind entryName <;> rfl

/-- **The lines behind the element of a zone are lines of the entry.** -/
@[simp] theorem zoneMembersAt_view (b : Block) : b.view.zoneMembersAt = .ok b.zoneMembers := by
  rw [zoneMembersAt, Block.zoneMembers, Block.view, List.findIdx?_map]
  rcases Checked.find_cases (fun l => l.text == openTag "network") b.lines with
    hnone | ⟨before, l, behind, hlines, hbefore, hl⟩
  · have hempty : (b.lines.dropWhile fun l => l.text != openTag "network") = [] :=
      Checked.dropWhile_of_forall hnone
    have hplace : b.lines.findIdx? ((· == openTag "network") ∘ DeepLine.text) = none :=
      List.findIdx?_eq_none_iff.2 hnone
    rw [hplace, hempty]
  · have hfound : ((before ++ l :: behind).dropWhile fun l => l.text != openTag "network")
        = l :: behind := Checked.dropWhile_found hbefore hl behind
    have hplace : (before ++ l :: behind).findIdx? ((· == openTag "network") ∘ DeepLine.text)
        = some before.length := Checked.findIdx?_found hbefore hl behind
    rw [hlines, hplace, hfound]
    cases behind with
    | nil => simp
    | cons mode rest =>
      have hmode : ((before ++ l :: mode :: rest).map (·.text))[before.length + 1]?
          = some mode.text := by simp
      have hdrop : Checked.drop (before.length + 2) ((before ++ l :: mode :: rest).map (·.text))
          = .ok (rest.map (·.text)) := by
        simpa using
          Checked.drop_append (before.map (·.text) ++ [l.text, mode.text]) (rest.map (·.text))
      simp only [hmode, hdrop, Checked.ok_bind, Checked.pure_eq_ok]
      split
      · rfl
      · split <;> rfl

/-! ## Entries inside an entry -/

/-- How many lines stand before the line that closes the entry of which `depth` are open. -/
def closing (depth : Nat) : List String → Nat
  | [] => 0
  | line :: lines =>
    if depthAfter depth line = 0 then 0 else closing (depthAfter depth line) lines + 1

/-- **The loop over the lines of an entry ends**, at the line that closes it. -/
theorem closingAt_eq (before lines : List String) (depth : Nat) {rounds : Nat}
    (h : lines.length < rounds) : closingAt (before ++ lines) rounds before.length depth
      = .ok (before.length + closing depth lines) := by
  induction lines generalizing before depth rounds with
  | nil =>
    obtain ⟨rounds, rfl⟩ := Nat.exists_eq_add_of_lt h
    rw [closingAt, if_neg (by simp)]
    rfl
  | cons line lines ih =>
    obtain ⟨rounds, rfl⟩ := Nat.exists_eq_succ_of_ne_zero (Nat.ne_zero_of_lt h)
    rw [closingAt, if_pos (by simp), Checked.get_append_cons, Checked.ok_bind, closing]
    split
    · rfl
    · have hrest := ih (before ++ [line]) (depthAfter depth line) (Nat.lt_of_succ_lt_succ h)
      rw [List.append_assoc, List.singleton_append, List.length_append, List.length_singleton]
        at hrest
      rw [hrest, Nat.add_assoc, Nat.add_comm 1]

/-- An entry inside goes up to the line that closes it. -/
theorem childLines_some (lines : List String) (depth : Nat) (ls : List DeepLine) :
    Block.childLines (some (lines, depth)) ls
      = (lines.reverse ++ (ls.map (·.text)).take (closing depth (ls.map (·.text)) + 1))
        :: Block.childLines none (ls.drop (closing depth (ls.map (·.text)) + 1)) := by
  induction ls generalizing lines depth with
  | nil => simp [Block.childLines]
  | cons l ls ih =>
    rw [childLines_some_cons, List.map_cons, closing]
    split
    · simp
    · simp [ih]

theorem childLines_of_opens {l : DeepLine} {ls : List DeepLine}
    (h : (1 ≤ l.depth && (entryName l.text).isSome && !isSelfClosed l.text) = true) :
    Block.childLines none (l :: ls)
      = ((l :: ls).map (·.text)).take (closing 0 ((l :: ls).map (·.text)) + 1)
        :: Block.childLines none ((l :: ls).drop (closing 0 ((l :: ls).map (·.text)) + 1)) := by
  rw [List.map_cons, closing]
  split
  · next hclosed => simp [Block.childLines, Block.collected, h, hclosed]
  · next hopen => simp [childLines_none_cons_of_pos h hopen, childLines_some]

/-- **The lines of an entry inside are lines of the entry.** -/
theorem childAt_eq {v : View} {before lines : List String} (hlines : v.lines = before ++ lines)
    (hne : lines ≠ []) : v.childAt before.length
      = .ok ((Block.ofLines (lines.take (closing 0 lines + 1))).view,
          before.length + closing 0 lines) := by
  have hlength : v.lines.length = before.length + lines.length := by
    rw [hlines, List.length_append]
  have hpos : 0 < lines.length := List.length_pos_iff.2 hne
  have hstop : closingAt v.lines (v.lines.length + 1) before.length 0
      = .ok (before.length + closing 0 lines) := by
    rw [hlines]
    exact closingAt_eq before lines 0 (by rw [List.length_append]; omega)
  have hlast : Checked.sub v.lines.length 1 = .ok (v.lines.length - 1) :=
    Checked.sub_of_le (by omega)
  have hend : min (before.length + closing 0 lines) (v.lines.length - 1) + 1
      = before.length + min (closing 0 lines + 1) lines.length := by
    omega
  rw [childAt, hstop, Checked.ok_bind, hlast, Checked.ok_bind, hend, hlines,
    Checked.slice_append_take, Checked.ok_bind, ofLinesAt_eq]
  rfl

/-- **The loop over the entries inside an entry ends**, and their lines are lines of it. -/
theorem childrenFrom_view (b : Block) {rounds place : Nat} (h : b.lines.length - place < rounds) :
    b.view.childrenFrom rounds place
      = .ok ((Block.childLines none (b.lines.drop place)).map fun ls =>
          (Block.ofLines ls).view) := by
  induction rounds generalizing place with
  | zero => omega
  | succ rounds ih =>
    have hlength : b.view.lines.length = b.lines.length := List.length_map _
    rw [childrenFrom, hlength]
    split
    · next hplace =>
      obtain ⟨before, l, behind, hlines, rfl⟩ :
          ∃ before l behind, b.lines = before ++ l :: behind ∧ before.length = place :=
        ⟨b.lines.take place, b.lines[place], b.lines.drop (place + 1), by simp, by simp; omega⟩
      have htexts : b.view.lines = before.map (·.text) ++ (l :: behind).map (·.text) := by
        rw [Block.view, hlines, List.map_append]
      have hline : Checked.get before.length b.view.lines = .ok l.text := by
        simpa [htexts] using
          Checked.get_append_cons (before.map (·.text)) l.text (behind.map (·.text))
      have hdepth : Checked.get before.length b.view.depths = .ok l.depth := by
        simpa [Block.view, hlines] using
          Checked.get_append_cons (before.map (·.depth)) l.depth (behind.map (·.depth))
      have hhere : b.lines.drop before.length = l :: behind := by rw [hlines, List.drop_left]
      have hmore (k : Nat) : b.view.childrenFrom rounds (before.length + k + 1)
          = .ok ((Block.childLines none ((l :: behind).drop (k + 1))).map fun ls =>
              (Block.ofLines ls).view) := by
        rw [ih (by omega), Nat.add_assoc, ← List.drop_drop, hhere]
      rw [hline, Checked.ok_bind, hdepth, Checked.ok_bind, entryNameAt_eq, Checked.ok_bind, hhere]
      split
      · next hopens =>
        have hchild := childAt_eq htexts (List.cons_ne_nil _ _)
        rw [List.length_map] at hchild
        rw [hchild, Checked.ok_bind, childLines_of_opens hopens]
        simp only [hmore, Checked.ok_bind]
        rfl
      · next hopens => exact (hmore 0).trans (by rw [childLines_none_cons_of_neg hopens]; rfl)
    · next hplace =>
      rw [List.drop_eq_nil_of_le (Nat.le_of_not_lt hplace)]
      rfl

@[simp] theorem childrenAt_view (b : Block) : b.view.childrenAt = .ok (b.children.map Block.view) := by
  have hlength : b.view.lines.length = b.lines.length := List.length_map _
  rw [childrenAt, childrenFrom_view b (by omega), List.drop_one, Block.children, List.map_map]
  rfl

end View

end FirewallConfig.PanOs
