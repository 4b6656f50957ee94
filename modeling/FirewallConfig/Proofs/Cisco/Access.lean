import FirewallConfig.Cisco.Reader
import FirewallConfig.Cisco.Writer.Access
import FirewallConfig.Proofs.Cisco.Directive
import FirewallConfig.Proofs.Text.Words

/-!
# Proofs/Cisco/Access — what a reading knows of access lists

Rules, bindings and the last remark depend on the lines of access lists alone, whatever else a text
holds and whatever block is open: a reading of a text is, seen through `Reading.access`, a fold of
`Access.step` over its lines (`access_run`).  Where a text holds nothing else, that fold is all that
the reading is (`run_eq_withAccess`).
-/

namespace FirewallConfig.Cisco

open Text

/-- What has been read of access lists. -/
structure Access where
  policies : List Policy := []
  bindings : List AccessBinding := []
  remark : Option (String × String) := none

namespace Access

/-- Adds an entry to its list, with its number and the last remark. -/
def addEntry (a : Access) (acl : String) (rule : Policy) : Access where
  policies := a.policies ++
    [{ rule with
        name := some acl
        id := some (.ofNat (a.policies.countP (·.name == some acl) + 1))
        description := (a.remark.filter (·.1 == acl)).map Prod.snd }]
  bindings := a.bindings

/-- Takes in a line of an access list. -/
def applyAcl (a : Access) (acl : String) : AclLine → Access
  | .remark text => { a with remark := some (acl, text) }
  | .entry rule => a.addEntry acl rule
  | .ignored => a

/-- Takes in a directive; most are about something else. -/
def apply (a : Access) : Directive → Access
  | .accessList acl line => a.applyAcl acl line
  | .accessGroup binding => { a with bindings := a.bindings ++ binding.toList }
  | _ => a

/-- Takes in a line. -/
def step (a : Access) (raw : String) : Access :=
  if isIndented raw then a else a.apply (Directive.read (Line.ofText raw))

end Access

/-- The directive is about tunnels or servers, and keeps a block open for more. -/
def Directive.isRemote : Directive → Bool
  | .cryptoMap .. | .aaaServer .. | .groupPolicy .. | .tunnelGroup .. => true
  | _ => false

namespace Reading

/-- What the reading knows of access lists. -/
def access (r : Reading) : Access := ⟨r.config.policies, r.config.accessBindings, r.remark⟩

/-! ## Other directives -/

theorem access_closeBlock (r : Reading) : r.closeBlock.access = r.access := by
  unfold closeBlock
  split
  · next b _ => cases b <;> rfl
  · rfl

theorem access_blockLine (r : Reading) (b : Block) (l : Line) :
    (r.blockLine b l).access = r.access := by
  cases b with
  | object o =>
    unfold blockLine
    dsimp only
    split <;> rfl
  | _ => rfl

/-- A directive about tunnels or servers changes those, and may open a block. -/
theorem exists_apply_eq (r : Reading) {d : Directive} (h : d.isRemote = true) :
    ∃ vpn aaaServers block mapInterfaces, r.apply d
      = { r with config := { r.config with vpn, aaaServers }, block, mapInterfaces } := by
  cases d with
  | cryptoMap map line =>
    rw [apply]
    unfold applyCryptoMap
    split <;> exact ⟨_, _, _, _, rfl⟩
  | aaaServer name operands =>
    rw [apply]
    unfold applyServer
    split <;> exact ⟨_, _, _, _, rfl⟩
  | groupPolicy name kind =>
    rw [apply]
    unfold applyGroupPolicy
    split <;> exact ⟨_, _, _, _, rfl⟩
  | tunnelGroup name operands =>
    rw [apply]
    unfold applyTunnelGroup
    split <;> exact ⟨_, _, _, _, rfl⟩
  | _ => cases h

theorem access_apply_of_isRemote (r : Reading) {d : Directive} (h : d.isRemote = true) :
    (r.apply d).access = r.access := by
  obtain ⟨vpn, aaaServers, block, mapInterfaces, heq⟩ := r.exists_apply_eq h
  rw [heq]
  rfl

theorem access_apply (r : Reading) (d : Directive) : (r.apply d).access = r.access.apply d := by
  cases d with
  | accessList acl line => cases line <;> rfl
  | cryptoMap | aaaServer | groupPolicy | tunnelGroup => exact r.access_apply_of_isRemote rfl
  | _ => rfl

/-- What a product does not have is not about access lists. -/
theorem apply_of_not_enables {flavor : Flavor} {d : Directive} (h : flavor.enables d = false)
    (a : Access) : a.apply d = a := by
  cases d with
  | accessList acl line => cases flavor <;> cases h
  | accessGroup binding => cases flavor <;> cases h
  | _ => rfl

end Reading

/-- A text of blanks only is empty, or it is indented. -/
theorem eq_empty_or_isIndented {raw : String} (h : (trim raw).isEmpty = true) :
    raw = "" ∨ isIndented raw = true := by
  cases hlist : raw.toList with
  | nil => exact .inl (String.toList_inj.1 hlist)
  | cons c cs =>
    cases hc : isBlank c with
    | true =>
      refine .inr ?_
      rw [isIndented, hlist]
      exact hc
    | false =>
      have htrim : (trim raw).toList = c :: Chars.trimEnd cs := by
        rw [toList_trim, hlist, Chars.trim_cons hc, Chars.trimEnd_cons, if_neg (by simp [hc])]
      rw [String.isEmpty_iff.1 h] at htrim
      cases htrim

namespace Reading

/-- **A line changes what is known of access lists by what it says of them.** -/
theorem access_step (r : Reading) (raw : String) : (r.step raw).access = r.access.step raw := by
  rw [step, Access.step]
  generalize hl : Line.ofText raw = l
  have hindented : l.indented = isIndented raw := by rw [← hl]; rfl
  split
  · next hempty =>
    rw [← hl] at hempty
    rcases eq_empty_or_isIndented hempty with rfl | hblank
    · rw [← hl]
      rfl
    · rw [if_pos hblank]
  · rw [← hindented]
    split
    · next hbang =>
      rw [access_closeBlock, hbang]
      split <;> rfl
    · generalize Directive.read l = d
      have hdirective : (r.access.apply (if r.flavor.enables d then d else .other))
          = r.access.apply d := by
        cases henables : r.flavor.enables d with
        | true => rfl
        | false => exact (apply_of_not_enables henables r.access).symm
      rw [lineStep]
      split
      · split
        · next hblock =>
          rw [access_blockLine]
          split
          · rfl
          · next hnot =>
            have hother : d = .other := by simpa [hnot] using hblock
            rw [hother]
            rfl
        · next hblock =>
          have hnot : ¬ l.indented = true := fun h => hblock (by rw [h]; rfl)
          rw [access_apply, access_closeBlock, hdirective, if_neg hnot]
      · split
        · rfl
        · rw [access_apply, hdirective]

/-- **What is known of access lists is a fold over the lines.** -/
theorem access_run (r : Reading) (lines : List String) :
    (r.run lines).access = lines.foldl Access.step r.access := by
  induction lines generalizing r with
  | nil => rfl
  | cons raw lines ih =>
    rw [run, List.foldl_cons, List.foldl_cons, ← access_step]
    exact ih _

end Reading

/-! ## A whole text -/

/-- What a text says of access lists. -/
def accessOf (text : String) : Access := (lines text).foldl Access.step {}

/-- The rules of a text are those of its access lists, each with the interface that its list is
bound to. -/
theorem policies_read (flavor : Flavor) (text : String) :
    (read flavor text).policies
      = (accessOf text).policies.map (Reading.joinPolicy (accessOf text).bindings) := by
  have h := (Reading.access_closeBlock _).trans
    (Reading.access_run (Reading.start flavor) (lines text))
  have hpolicies := congrArg Access.policies h
  have hbindings := congrArg Access.bindings h
  exact congr (congrArg List.map (congrArg Reading.joinPolicy hbindings)) hpolicies

/-- The bindings of a text are those that it says. -/
theorem accessBindings_read (flavor : Flavor) (text : String) :
    (read flavor text).accessBindings = (accessOf text).bindings :=
  congrArg Access.bindings ((Reading.access_closeBlock _).trans
    (Reading.access_run (Reading.start flavor) (lines text)))

/-! ## Where a rule comes from -/

/-- A rule that has been read was there before, or a line says it. -/
theorem Access.mem_policies_foldl {ls : List String} {a : Access} {p : Policy}
    (h : p ∈ (ls.foldl step a).policies) :
    p ∈ a.policies ∨ ∃ raw ∈ ls, ∃ acl entry,
      Directive.read (Line.ofText raw) = .accessList acl (.entry entry)
        ∧ ∃ id description, p = { entry with name := some acl, id, description } := by
  induction ls generalizing a with
  | nil => exact .inl h
  | cons raw ls ih =>
    rcases ih h with hstep | ⟨raw', hraw, hentry⟩
    · rw [step] at hstep
      split at hstep
      · exact .inl hstep
      · cases hread : Directive.read (Line.ofText raw) with
        | accessList acl line =>
          rw [hread] at hstep
          cases line with
          | entry entry =>
            rcases List.mem_append.1 hstep with hold | hnew
            · exact .inl hold
            · exact .inr ⟨raw, List.mem_cons_self, acl, entry, hread, _, _,
                List.mem_singleton.1 hnew⟩
          | remark text => exact .inl hstep
          | ignored => exact .inl hstep
        | _ =>
          rw [hread] at hstep
          exact .inl hstep
    · exact .inr ⟨raw', List.mem_cons_of_mem _ hraw, hentry⟩

/-- **Every rule of a text is an entry of one of its lines**, with the interface that its list is
bound to. -/
theorem exists_entry_of_mem_policies {flavor : Flavor} {text : String} {p : Policy}
    (h : p ∈ (read flavor text).policies) :
    ∃ raw ∈ lines text, ∃ acl entry,
      Directive.read (Line.ofText raw) = .accessList acl (.entry entry)
        ∧ ∃ id description sourceZone,
          p = { entry with name := some acl, id, description, sourceZone } := by
  rw [policies_read] at h
  obtain ⟨q, hq, rfl⟩ := List.mem_map.1 h
  rcases Access.mem_policies_foldl hq with hnil | ⟨raw, hraw, acl, entry, hread, id, description, rfl⟩
  · exact absurd hnil List.not_mem_nil
  · exact ⟨raw, hraw, acl, entry, hread, id, description, _, rfl⟩

/-- The line of an entry holds the words of an extended or of a standard one. -/
theorem exists_readEntry_of_read {l : Line} {acl : String} {entry : Policy}
    (h : Directive.read l = .accessList acl (.entry entry)) :
    ∃ ws ⊆ l.words, readEntry ws = some entry ∨ ∃ action, readStandardEntry action ws = some entry := by
  have hentry {read : Option Policy} (hread : readAclLine.ofEntry read = .entry entry) :
      read = some entry := by
    cases read with
    | none => cases hread
    | some rule =>
      cases hread
      rfl
  have htwo {a b : String} {us : List String} : us ⊆ a :: b :: us :=
    List.subset_cons_of_subset _ (List.subset_cons_self _ _)
  have hline (behind : Nat → String) (ws : List String)
      (hread : readAclLine behind ws = .entry entry) :
      ∃ us ⊆ ws, readEntry us = some entry ∨ ∃ action, readStandardEntry action us = some entry := by
    unfold readAclLine at hread
    split at hread
    · cases hread
    · exact ⟨_, List.subset_cons_self _ _, .inl (hentry hread)⟩
    · exact ⟨_, htwo, .inr ⟨_, hentry hread⟩⟩
    · cases hread
    · cases hread
    · exact ⟨_, List.Subset.refl _, .inl (hentry hread)⟩
  rw [Directive.read] at h
  split at h
  · cases h
  · have hreads := Directive.reads_readWords l l.words
    generalize l.words = ws at h hreads ⊢
    generalize Directive.readWords l ws = d at h hreads
    cases hreads with
    | accessList =>
      have hread := (Directive.accessList.inj h).2
      unfold readAccessList at hread
      split at hread
      · next heq =>
        obtain ⟨us, hus, hus'⟩ := hline _ _ hread
        exact ⟨us, List.Subset.trans (heq ▸ List.Subset.trans hus htwo) htwo, hus'⟩
      · obtain ⟨us, hus, hus'⟩ := hline _ _ hread
        exact ⟨us, List.Subset.trans hus htwo, hus'⟩
    | _ => cases h

/-! ## What a line says -/

/-- A carriage return at the end of a line is not seen, unless it is the whole line. -/
theorem ofText_withoutReturn (raw : String) :
    Line.ofText (withoutReturn raw) = Line.ofText raw ∨ withoutReturn raw = "" ∧ raw = "\r" := by
  rcases withoutReturn_eq_or raw with h | h
  · exact .inl (by rw [h])
  · have hwords := words_withoutReturn raw
    have htrim := trim_withoutReturn raw
    generalize withoutReturn raw = line at h hwords htrim
    subst h
    cases hlist : line.toList with
    | nil =>
      have hempty : line = "" := String.toList_inj.1 hlist
      subst hempty
      exact .inr ⟨rfl, rfl⟩
    | cons c cs =>
      have hindented : isIndented (line ++ "\r") = isIndented line := by
        rw [isIndented, isIndented, String.toList_append, hlist]
        rfl
      exact .inl (by rw [Line.ofText, Line.ofText, hwords, htrim, hindented])

theorem Reading.step_withoutReturn (r : Reading) (raw : String) :
    r.step (withoutReturn raw) = r.step raw := by
  rcases ofText_withoutReturn raw with h | ⟨h, rfl⟩
  · rw [step, step, h]
  · rw [h]
    rfl

/-- Lines that are written are read as they are. -/
theorem Reading.run_lines_unlines (r : Reading) {ls : List String} (h : ∀ l ∈ ls, OneLine l) :
    r.run (lines (unlines ls)) = r.run ls := by
  rw [lines_unlines_map h, run, List.foldl_map, run]
  exact congrArg (fun f => ls.foldl f r)
    (funext fun r => funext fun raw => r.step_withoutReturn raw)

namespace Access

/-- A carriage return at the end of a line does not count. -/
theorem step_withoutReturn (a : Access) (raw : String) :
    a.step (withoutReturn raw) = a.step raw := by
  have hstep (raw : String) : a.step raw
      = if (Line.ofText raw).indented then a else a.apply (Directive.read (Line.ofText raw)) := rfl
  rcases ofText_withoutReturn raw with h | ⟨h, rfl⟩
  · rw [hstep, hstep, h]
  · rw [h]
    rfl

/-- What lines say of access lists is read back. -/
theorem accessOf_unlines {ls : List String} (h : ∀ l ∈ ls, OneLine l) :
    accessOf (unlines ls) = ls.foldl step {} := by
  rw [accessOf, lines_unlines_map h, List.foldl_map]
  exact congrArg (fun f => ls.foldl f ({} : Access))
    (funext fun a => funext fun raw => step_withoutReturn a raw)

/-- A line below a header says nothing of access lists. -/
theorem step_of_isIndented {raw : String} (h : isIndented raw = true) (a : Access) :
    a.step raw = a := if_pos h

theorem apply_readWords (l : Line) {ws : List String} (hlist : ws.head? ≠ some "access-list")
    (hgroup : ws.head? ≠ some "access-group") (a : Access) :
    a.apply (Directive.readWords l ws) = a := by
  have hreads := Directive.reads_readWords l ws
  generalize Directive.readWords l ws = d at hreads ⊢
  cases hreads with
  | accessList => exact absurd rfl hlist
  | accessGroup => exact absurd rfl hgroup
  | _ => rfl

/-- A line that begins with another word says nothing of access lists. -/
theorem step_of_head {raw : String} (hlist : (words raw).head? ≠ some "access-list")
    (hgroup : (words raw).head? ≠ some "access-group") (a : Access) : a.step raw = a := by
  rw [step]
  split
  · rfl
  · rw [Directive.read]
    split
    · rfl
    · exact apply_readWords _ hlist hgroup a

theorem step_accessList {raw : String} (hraw : isIndented raw = false) {acl word : String}
    {rest : List String} (h : words raw = "access-list" :: acl :: word :: rest) (a : Access) :
    a.step raw = a.applyAcl acl (readAccessList (Line.ofText raw) (word :: rest)) := by
  have hwords : (Line.ofText raw).words = "access-list" :: acl :: word :: rest := h
  rw [step, if_neg (by rw [hraw]; exact Bool.false_ne_true), Directive.read, hwords]
  rfl

theorem step_accessGroup {raw : String} (hraw : isIndented raw = false) {word : String}
    {rest : List String} (h : words raw = "access-group" :: word :: rest) (a : Access) :
    a.step raw
      = { a with bindings := a.bindings ++ (readAccessGroup (word :: rest)).toList } := by
  have hwords : (Line.ofText raw).words = "access-group" :: word :: rest := h
  rw [step, if_neg (by rw [hraw]; exact Bool.false_ne_true), Directive.read, hwords]
  rfl

/-- The line of a remark begins with words. -/
theorem remarkLine_eq (acl text : String) :
    s!"access-list {acl} remark {text}" = unwords (["access-list", acl, "remark"] ++ [text]) := by
  apply String.toList_inj.1
  simp [unwords, String.intercalate_cons_cons]

theorem words_remarkLine {acl : String} (hacl : IsWord acl) (text : String) :
    words s!"access-list {acl} remark {text}" = "access-list" :: acl :: "remark" :: words text := by
  have hws : ∀ w ∈ ["access-list", acl, "remark"], IsWord w := by simp +decide [hacl]
  rw [remarkLine_eq, words_unwords, List.flatMap_append, List.flatMap_singleton]
  exact congrArg (· ++ words text) (flatMap_words hws)

theorem isIndented_remarkLine (acl text : String) :
    isIndented s!"access-list {acl} remark {text}" = false := by
  rw [remarkLine_eq]
  exact isIndented_unwords (by decide) _

/-- **A written remark is read back**, without the blanks at its ends. -/
theorem step_remark {acl : String} (hacl : IsWord acl) (text : String) (a : Access) :
    a.step s!"access-list {acl} remark {text}" = { a with remark := some (acl, trim text) } := by
  have htext : (Line.ofText s!"access-list {acl} remark {text}").after 3 = trim text := by
    have hafter : textAfter 3 s!"access-list {acl} remark {text}" = trim text := by
      have hws : ∀ w ∈ ["access-list", acl, "remark"], IsWord w := by simp +decide [hacl]
      rw [remarkLine_eq]
      exact textAfter_unwords hws text
    exact (textAfter_trim 3 _).trans hafter
  rw [step_accessList (isIndented_remarkLine acl text) (words_remarkLine hacl text)]
  exact congrArg (fun t => { a with remark := some (acl, t) }) htext

end Access

/-- The flags of an entry. -/
def AccessEntry.flags (e : AccessEntry) : List String :=
  (if e.log then ["log"] else []) ++ (if e.inactive then ["inactive"] else [])

theorem AccessEntry.words_line {e : AccessEntry} (hacl : IsWord e.acl) :
    words e.line = "access-list" :: e.acl :: "extended" :: e.action.text :: (words e.protocol
      ++ (words e.source ++ (words e.destination
        ++ (e.ports.toList.flatMap words ++ e.flags)))) := by
  have hflags : e.flags.flatMap words = e.flags := by
    rw [AccessEntry.flags]
    cases e.log <;> cases e.inactive <;> rfl
  have haction : words e.action.text = [e.action.text] := by cases e.action <;> rfl
  rw [AccessEntry.line, words_unwords, List.append_assoc (_ ++ e.ports.toList), ← AccessEntry.flags,
    List.flatMap_append, List.flatMap_append, hflags]
  simp only [List.flatMap_cons, List.flatMap_nil, hacl.words_eq, haction, List.append_assoc,
    List.append_nil]
  rfl

/-- **A written entry is read back** as what its operands are read as. -/
theorem Access.step_entry {e : AccessEntry} (hacl : IsWord e.acl) {rule : Policy}
    (h : readEntry (e.action.text :: (words e.protocol ++ (words e.source ++ (words e.destination
      ++ (e.ports.toList.flatMap words ++ e.flags))))) = some rule) (a : Access) :
    a.step e.line = a.addEntry e.acl rule := by
  have hraw : isIndented e.line = false := isIndented_unwords (by decide) _
  rw [step_accessList hraw (AccessEntry.words_line hacl)]
  have hread (l : Line) (ws : List String) :
      readAccessList l ("extended" :: ws) = readAclLine.ofEntry (readEntry ws) := rfl
  rw [hread, h]
  rfl

/-! ## A text that holds nothing else -/

/-- The directive is about access lists, or it ends a block. -/
def Directive.isAccess : Directive → Bool
  | .bang | .accessList .. | .accessGroup _ => true
  | _ => false

/-- The line stands alone and is about access lists, or it ends a block. -/
structure IsAccessLine (raw : String) : Prop where
  indented : isIndented raw = false
  access : (Directive.read (Line.ofText raw)).isAccess = true

theorem isAccessLine_of_words {raw : String} (hraw : isIndented raw = false)
    (h : (∃ acl word rest, words raw = "access-list" :: acl :: word :: rest)
      ∨ ∃ word rest, words raw = "access-group" :: word :: rest) : IsAccessLine raw where
  indented := hraw
  access := by
    rcases h with ⟨acl, word, rest, h⟩ | ⟨word, rest, h⟩
    all_goals
      have hwords : (Line.ofText raw).words = _ := h
      rw [Directive.read, hwords]
      rfl

theorem isAccessLine_of_bang {raw : String} (h : (words raw).head?.any (beginsWith "!") = true)
    (hraw : isIndented raw = false) : IsAccessLine raw where
  indented := hraw
  access := by
    have hwords : (Line.ofText raw).words.head?.any (beginsWith "!") = true := h
    rw [Directive.read, if_pos hwords]
    rfl

namespace Reading

/-- The reading with other access lists. -/
def withAccess (r : Reading) (a : Access) : Reading :=
  { r with
    config := { r.config with policies := a.policies, accessBindings := a.bindings }
    remark := a.remark }

theorem closeBlock_of_block_none {r : Reading} (hblock : r.block = none) : r.closeBlock = r := by
  rw [closeBlock, hblock]

/-- A line that stands alone is its directive, once the block is closed. -/
theorem step_of_read (r : Reading) {raw : String} (hraw : isIndented raw = false) {d : Directive}
    (hd : Directive.read (Line.ofText raw) = d) (hbang : d ≠ .bang) (hother : d ≠ .other) :
    r.step raw = r.closeBlock.apply (if r.flavor.enables d then d else .other) := by
  have hindented : (Line.ofText raw).indented = false := hraw
  rw [step]
  split
  · next hempty =>
    rcases eq_empty_or_isIndented hempty with rfl | hblank
    · exact absurd hd.symm hother
    · exact absurd (hraw.symm.trans hblank) Bool.false_ne_true
  · rw [hd]
    split
    · exact absurd rfl hbang
    · rw [lineStep, hindented]
      cases hblock : r.block with
      | some b =>
        dsimp only
        rw [if_neg (by simpa using hother)]
      | none =>
        rw [closeBlock_of_block_none hblock]
        rfl

theorem run_append (r : Reading) (ls ms : List String) : r.run (ls ++ ms) = (r.run ls).run ms :=
  List.foldl_append

theorem run_nil (r : Reading) : r.run [] = r := rfl

theorem run_cons (r : Reading) (l : String) (ls : List String) :
    r.run (l :: ls) = (r.step l).run ls := rfl

/-- **What every line keeps, lines keep.** -/
theorem run_invariant {P : Reading → Prop} (hstep : ∀ r raw, P r → P (r.step raw)) {r : Reading}
    (hr : P r) (ls : List String) : P (r.run ls) := by
  induction ls generalizing r with
  | nil => exact hr
  | cons raw ls ih => exact ih (hstep r raw hr)

/-- **A line about access lists changes nothing else.** -/
theorem step_eq_withAccess {r : Reading} (hblock : r.block = none) {raw : String}
    (h : IsAccessLine raw) : r.step raw = r.withAccess (r.access.step raw) := by
  have haccess := h.access
  have hnot : ¬ isIndented raw = true := by rw [h.indented]; exact Bool.false_ne_true
  have hstep : r.access.step raw = r.access.apply (Directive.read (Line.ofText raw)) := if_neg hnot
  rw [hstep]
  cases hd : Directive.read (Line.ofText raw) with
  | bang =>
    rw [step, hd]
    split
    · rfl
    · exact closeBlock_of_block_none hblock
  | accessList acl line =>
    rw [step_of_read r h.indented hd nofun nofun, closeBlock_of_block_none hblock]
    cases r.flavor <;> cases line <;> rfl
  | accessGroup binding =>
    rw [step_of_read r h.indented hd nofun nofun, closeBlock_of_block_none hblock]
    cases r.flavor <;> rfl
  | _ =>
    rw [hd] at haccess
    cases haccess

theorem run_eq_withAccess {r : Reading} (hblock : r.block = none) {lines : List String}
    (h : ∀ raw ∈ lines, IsAccessLine raw) :
    r.run lines = r.withAccess (lines.foldl Access.step r.access) := by
  induction lines generalizing r with
  | nil => rfl
  | cons raw lines ih =>
    obtain ⟨hraw, hlines⟩ := List.forall_mem_cons.1 h
    have hstep := step_eq_withAccess hblock hraw
    have hrest : (r.step raw).block = none := by rw [hstep]; exact hblock
    rw [run, List.foldl_cons, List.foldl_cons, ← access_step]
    refine (ih hrest hlines).trans ?_
    rw [hstep]
    rfl

end Reading

end FirewallConfig.Cisco
