import FirewallConfig.Proofs.Cisco.Step
import FirewallConfig.Proofs.Keyed

/-!
# Proofs/Cisco/Objects — what a reading knows of address objects

An address object is built up by the lines below its header and stored when its block closes, in the
place of the one that has its name.  So what is known of address objects depends on their own lines
and on what closes a block: a reading of a text is, seen through `Reading.objects`, a fold of
`Objects.step` over its lines (`objects_run`).

What is stored has the form that such lines can give it (`IsRead`), each name stands once, and an
object in this form is read back when it is written.
-/

namespace FirewallConfig.Cisco

open Text

/-- What has been read of address objects. -/
structure Objects where
  stored : List AddressObject := []
  /-- The object whose block is open, if one is. -/
  opened : Option AddressObject := none

namespace Objects

/-- Stores an object in the place of the one that has its name, or at the end. -/
def put (os : List AddressObject) (o : AddressObject) : List AddressObject := putBy (·.name) o os

/-- Stores the object whose block is open. -/
def close (s : Objects) : Objects :=
  match s.opened with
  | some o => { stored := put s.stored o }
  | none => s

/-- Takes in a line of the open block. -/
def blockLine (s : Objects) (l : Line) : Objects :=
  { s with opened := s.opened.map (objectLine · l l.words) }

/-- Takes in a directive, with no block open; most are about something else. -/
def apply (s : Objects) : Directive → Objects
  | .objectNetwork name => { s with opened := some { name } }
  | _ => s

/-- Takes in a line. -/
def step (s : Objects) (raw : String) : Objects :=
  let l := Line.ofText raw
  if l.text.isEmpty then s
  else
    match Directive.read l with
    | .bang => s.close
    | d => if l.indented || d == .other then s.blockLine l else s.close.apply d

end Objects

/-- The object that a block builds, if it builds one. -/
def Block.object? : Block → Option AddressObject
  | .object o => some o
  | _ => none

namespace Reading

/-- What the reading knows of address objects. -/
def objects (r : Reading) : Objects := ⟨r.config.addressObjects, r.block.bind Block.object?⟩

theorem objects_eq (r : Reading) :
    r.objects = ⟨r.kept.addressObjects, r.builder?.bind Block.object?⟩ := by
  rw [objects, builder?]
  cases r.block with
  | none => rfl
  | some b => cases b <;> rfl

theorem objects_of_block {r : Reading} {b : Block} (hblock : r.block = some b) :
    r.objects = ⟨r.config.addressObjects, b.object?⟩ := by
  rw [objects, hblock]
  rfl

theorem objects_of_block_none {r : Reading} (hblock : r.block = none) :
    r.objects = ⟨r.config.addressObjects, none⟩ := by
  rw [objects, hblock]
  rfl

theorem objects_closeBlock (r : Reading) : r.closeBlock.objects = r.objects.close := by
  unfold closeBlock
  split
  · next b hblock =>
    rw [objects_of_block hblock]
    cases b <;> rfl
  · next hblock =>
    rw [objects, hblock]
    rfl

theorem objects_blockLine {r : Reading} {b : Block} (hblock : r.block = some b) (l : Line) :
    (r.blockLine b l).objects = r.objects.blockLine l := by
  obtain ⟨hkept, hbuilder⟩ := kept_blockLine hblock l
  rw [objects_eq, hkept, hbuilder, objects_of_block hblock]
  cases b <;> rfl

theorem objects_apply {r : Reading} (hblock : r.block = none) (d : Directive) :
    (r.apply d).objects = r.objects.apply d := by
  obtain ⟨hkept, hbuilder⟩ := kept_apply hblock d
  rw [objects_eq, hkept, hbuilder, objects_of_block_none hblock]
  cases d <;> rfl

/-- What a product does not have is not about address objects. -/
theorem objects_apply_of_not_enables {flavor : Flavor} {d : Directive}
    (h : flavor.enables d = false) (s : Objects) : s.apply d = s := by
  cases d with
  | objectNetwork name => cases flavor <;> cases h
  | _ => rfl

/-- **A line changes what is known of address objects by what it says of them.** -/
theorem objects_step (r : Reading) (raw : String) : (r.step raw).objects = r.objects.step raw := by
  rw [step, Objects.step]
  generalize Line.ofText raw = l
  have hdirective (d : Directive) (s : Objects) :
      s.apply (if r.flavor.enables d then d else .other) = s.apply d := by
    cases henables : r.flavor.enables d with
    | true => rfl
    | false => exact (objects_apply_of_not_enables henables s).symm
  have hline (d : Directive) : (r.lineStep l d).objects
      = if l.indented || d == .other then r.objects.blockLine l else r.objects.close.apply d := by
    rw [lineStep]
    split
    · next b hblock =>
      split
      · exact objects_blockLine hblock l
      · rw [objects_apply (block_closeBlock r), objects_closeBlock, hdirective]
    · next hblock =>
      have hnone := objects_of_block_none hblock
      split
      · next hindented =>
        rw [hindented, hnone]
        rfl
      · next hindented =>
        rw [objects_apply hblock, hdirective, hnone]
        split
        · next hother =>
          have hd : d = .other := by simpa [hindented] using hother
          rw [hd]
          rfl
        · rfl
  split
  · rfl
  · generalize Directive.read l = d
    cases d with
    | bang => exact objects_closeBlock r
    | _ => exact hline _

/-- **What is known of address objects is a fold over the lines.** -/
theorem objects_run (r : Reading) (ls : List String) :
    (r.run ls).objects = ls.foldl Objects.step r.objects := by
  induction ls generalizing r with
  | nil => rfl
  | cons raw ls ih =>
    rw [run_cons, List.foldl_cons, ← objects_step]
    exact ih _

end Reading

/-- The address objects of a text are those that its lines say. -/
theorem addressObjects_read (flavor : Flavor) (text : String) :
    (read flavor text).addressObjects = ((lines text).foldl Objects.step {}).close.stored :=
  congrArg Objects.stored ((Reading.objects_closeBlock _).trans
    (congrArg Objects.close (Reading.objects_run (Reading.start flavor) (lines text))))

/-- The address objects of lines that are written are those that the lines say. -/
theorem addressObjects_unlines (flavor : Flavor) {ls : List String} (h : ∀ l ∈ ls, OneLine l) :
    (read flavor (unlines ls)).addressObjects = (ls.foldl Objects.step {}).close.stored := by
  have hread : (read flavor (unlines ls)).addressObjects
      = ((Reading.start flavor).run (lines (unlines ls))).closeBlock.objects.stored := rfl
  rw [hread, Reading.run_lines_unlines _ h, Reading.objects_closeBlock, Reading.objects_run]
  rfl

/-! ## The form of what is read -/

/-- The value and the mask have the form that the kind is read with. -/
def IsFilled (o : AddressObject) : Prop :=
  match o.kind with
  | .host => o.value = "" ∨ IsWord o.value
  | .subnet => IsWord o.value ∧ ∃ mask, o.mask = some mask ∧ IsWord mask
  | .range => ∃ first last, IsWord first ∧ IsWord last ∧ o.value = first ++ "-" ++ last
  | .fqdn => IsWord o.value

/-- The object has the form that lines give it. -/
structure IsRead (o : AddressObject) : Prop where
  name : IsWord o.name
  filled : IsFilled o
  description : ∀ d ∈ o.description, trim d = d

theorem isRead_objectLine {o : AddressObject} (ho : IsRead o) (l : Line) {ws : List String}
    (hws : ∀ w ∈ ws, IsWord w) : IsRead (objectLine o l ws) := by
  unfold objectLine
  split
  case h_8 => exact ho
  all_goals simp only [List.forall_mem_cons] at hws
  · exact ⟨ho.name, .inr hws.2.1, ho.description⟩
  · exact ⟨ho.name, ⟨hws.2.1, _, rfl, hws.2.2.1⟩, ho.description⟩
  · exact ⟨ho.name, ⟨_, _, hws.2.1, hws.2.2.1, rfl⟩, ho.description⟩
  · exact ⟨ho.name, hws.2.2.1, ho.description⟩
  · exact ⟨ho.name, hws.2.2.1, ho.description⟩
  · exact ⟨ho.name, hws.2.1, ho.description⟩
  · exact ⟨ho.name, ho.filled, forall_mem_some (trim_textAfter 1 l.text)⟩

namespace Objects

/-- Everything that is known has the form that lines give it, and names stand once. -/
structure IsSound (s : Objects) : Prop where
  stored : ∀ o ∈ s.stored, IsRead o
  opened : ∀ o ∈ s.opened, IsRead o
  names : (s.stored.map (·.name)).Nodup

theorem IsSound.close {s : Objects} (hs : s.IsSound) : s.close.IsSound := by
  rw [Objects.close]
  split
  · next o hopened =>
    have ho := hs.opened o hopened
    exact ⟨forall_mem_amendFirst ho (fun _ _ => ho) hs.stored, forall_mem_none,
      nodup_map_putBy (·.name) o hs.names⟩
  · exact hs

theorem IsSound.apply {s : Objects} (hs : s.IsSound) {l : Line} (hws : ∀ w ∈ l.words, IsWord w) :
    (s.apply (Directive.read l)).IsSound := by
  have hread : ∀ name, Directive.read l = .objectNetwork name → IsWord name := by
    intro name h
    have hreadFrom := Directive.isReadFrom_read (l := l) (by rw [h]; nofun)
    rw [h] at hreadFrom
    obtain ⟨rest, hrest⟩ := hreadFrom
    exact hws name (by rw [hrest]; simp)
  generalize Directive.read l = d at hread
  cases d with
  | objectNetwork name =>
    exact { hs with opened := forall_mem_some ⟨hread name rfl, .inl rfl, forall_mem_none⟩ }
  | _ => exact hs

theorem IsSound.step {s : Objects} (hs : s.IsSound) (raw : String) : (s.step raw).IsSound := by
  have hws : ∀ w ∈ (Line.ofText raw).words, IsWord w := fun _ hw => isWord_of_mem_words hw
  rw [Objects.step]
  generalize Line.ofText raw = l at hws
  have hblock : (s.blockLine l).IsSound := by
    refine { hs with opened := fun o ho => ?_ }
    obtain ⟨o', ho', rfl⟩ := Option.map_eq_some_iff.1 ho
    exact isRead_objectLine (hs.opened o' ho') l hws
  split
  · exact hs
  · split
    · exact hs.close
    · split
      · exact hblock
      · exact hs.close.apply hws

theorem IsSound.foldl {s : Objects} (hs : s.IsSound) (ls : List String) :
    (ls.foldl Objects.step s).IsSound := by
  induction ls generalizing s with
  | nil => exact hs
  | cons raw ls ih => exact ih (hs.step raw)

theorem isSound_read (text : String) : ((lines text).foldl Objects.step {}).close.IsSound :=
  have hstart : ({} : Objects).IsSound := ⟨List.forall_mem_nil _, forall_mem_none, List.nodup_nil⟩
  (hstart.foldl _).close

end Objects

/-- **Every address object of a text has the form that its lines give it.** -/
theorem isRead_of_mem_addressObjects {flavor : Flavor} {text : String} {o : AddressObject}
    (h : o ∈ (read flavor text).addressObjects) : IsRead o := by
  rw [addressObjects_read] at h
  exact (Objects.isSound_read text).stored o h

/-- **Each name stands once** among the address objects of a text. -/
theorem nodup_addressObjects (flavor : Flavor) (text : String) :
    ((read flavor text).addressObjects.map (·.name)).Nodup := by
  rw [addressObjects_read]
  exact (Objects.isSound_read text).names

end FirewallConfig.Cisco
