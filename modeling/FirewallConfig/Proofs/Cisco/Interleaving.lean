import FirewallConfig.Proofs.Cisco.Access
import Mathlib.Data.List.Infix
import Mathlib.Data.List.Induction

/-!
# Proofs/Cisco/Interleaving — access lists among the lines of others

Lines of access lists make statements, remarks and entries, and what is read of them is a fold over
the statements (`foldl_step_eq`).  An entry is numbered within its own list, so its number does not
depend on the statements of others; but the last statement describes it, whichever list that is of, if
it is a remark of the list of the entry (`remark_accessAfter`).  So the lines of a list among others are
read as they are alone but for the descriptions (`undescribed_policiesOf`), and with the descriptions
just if no statement of another list stands between a remark and its entry (`policies_of_list`).
-/

namespace FirewallConfig

/-- The rule without its description. -/
def Policy.undescribed (p : Policy) : Policy := { p with description := none }

namespace Cisco

open Text

/-! ## Statements -/

/-- What a line of an access list says: a remark, or an entry. -/
inductive Statement where
  | remark (acl text : String)
  | entry (acl : String) (rule : Policy)

/-- The list that a statement is of. -/
def Statement.acl : Statement → String
  | .remark acl _ | .entry acl _ => acl

/-- The line stands alone and is about an access list. -/
def IsListLine (raw : String) : Prop :=
  isIndented raw = false ∧ (words raw).head? = some "access-list"

instance (raw : String) : Decidable (IsListLine raw) := inferInstanceAs (Decidable (_ ∧ _))

/-- The line names the list. -/
def namesList (acl raw : String) : Bool := (words raw)[1]? == some acl

/-- What the words behind the name of a list say of it, if anything. -/
def Statement.ofLine? (acl : String) : AclLine → Option Statement
  | .remark text => some (.remark acl text)
  | .entry rule => some (.entry acl rule)
  | .ignored => none

/-- What a line of an access list says, if anything is read of it. -/
def said? (raw : String) : Option Statement :=
  match words raw with
  | "access-list" :: acl :: word :: rest =>
    Statement.ofLine? acl (readAccessList (Line.ofText raw) (word :: rest))
  | _ => none

/-- The statements of one list. -/
def statementsOf (acl : String) (ss : List Statement) : List Statement :=
  ss.filter (·.acl == acl)

namespace Access

/-- Takes in a statement. -/
def say (a : Access) : Statement → Access
  | .remark acl text => { a with remark := some (acl, text) }
  | .entry acl rule => a.addEntry acl rule

/-- A line of an access list changes what is known by what it says. -/
theorem step_of_isListLine {raw : String} (h : IsListLine raw) (a : Access) :
    a.step raw = (said? raw).toList.foldl say a := by
  obtain ⟨hraw, hhead⟩ := h
  obtain ⟨operands, hwords⟩ := List.head?_eq_some_iff.1 hhead
  have hshort (hread : Directive.readWords (Line.ofText raw) (words raw) = .other) :
      a.step raw = a := by
    have hbang : ¬ (Line.ofText raw).words.head?.any (beginsWith "!") = true := by
      rw [show (Line.ofText raw).words = words raw from rfl, hwords]
      exact Bool.false_ne_true
    rw [step, hraw, if_neg Bool.false_ne_true, Directive.read, if_neg hbang]
    exact congrArg a.apply hread
  rcases operands with - | ⟨acl, - | ⟨word, rest⟩⟩
  · rw [hshort (by rw [hwords]; rfl), said?, hwords]
    rfl
  · rw [hshort (by rw [hwords]; rfl), said?, hwords]
    rfl
  · have hsaid : said? raw
        = Statement.ofLine? acl (readAccessList (Line.ofText raw) (word :: rest)) := by
      rw [said?, hwords]
      rfl
    rw [step_accessList hraw hwords, hsaid]
    cases readAccessList (Line.ofText raw) (word :: rest) <;> rfl

theorem foldl_step_eq {ls : List String} (h : ∀ raw ∈ ls, IsListLine raw) (a : Access) :
    ls.foldl step a = (ls.filterMap said?).foldl say a := by
  induction ls generalizing a with
  | nil => rfl
  | cons raw ls ih =>
    obtain ⟨hraw, hls⟩ := List.forall_mem_cons.1 h
    rw [List.foldl_cons, step_of_isListLine hraw, ih hls, List.filterMap_cons]
    cases said? raw <;> rfl

end Access

theorem acl_of_said? {raw : String} {s : Statement} (h : said? raw = some s) (acl : String) :
    namesList acl raw = (s.acl == acl) := by
  unfold said? at h
  split at h
  · next name word rest hwords =>
    have hacl : s.acl = name := by
      generalize readAccessList (Line.ofText raw) (word :: rest) = line at h
      cases line <;> cases h <;> rfl
    rw [namesList, hwords, hacl]
    rfl
  · cases h

/-- The lines that name a list make its statements. -/
theorem filterMap_said?_filter (acl : String) (ls : List String) :
    (ls.filter (namesList acl)).filterMap said? = statementsOf acl (ls.filterMap said?) := by
  induction ls with
  | nil => rfl
  | cons raw ls ih =>
    rw [List.filter_cons, List.filterMap_cons]
    cases hsaid : said? raw with
    | none =>
      split
      · rw [List.filterMap_cons_none hsaid, ih]
      · exact ih
    | some s =>
      rw [statementsOf, List.filter_cons, ← acl_of_said? hsaid]
      split
      · rw [List.filterMap_cons_some hsaid, ih]
        rfl
      · exact ih

/-! ## What statements leave -/

/-- What is known of access lists once statements have been made. -/
def accessAfter (ss : List Statement) : Access := ss.foldl Access.say {}

/-- The rules of a list, once statements have been made. -/
def policiesOf (acl : String) (ss : List Statement) : List Policy :=
  (accessAfter ss).policies.filter (·.name == some acl)

/-- The remark that a statement is, with its list. -/
def Statement.remark? : Statement → Option (String × String)
  | .remark acl text => some (acl, text)
  | .entry .. => none

theorem accessAfter_concat (ss : List Statement) (s : Statement) :
    accessAfter (ss ++ [s]) = (accessAfter ss).say s := by
  rw [accessAfter, List.foldl_append]
  rfl

/-- **The last statement is remembered** if it is a remark, and no other. -/
theorem remark_accessAfter (ss : List Statement) :
    (accessAfter ss).remark = ss.getLast?.bind Statement.remark? := by
  induction ss using List.reverseRecOn with
  | nil => rfl
  | append_singleton ss s _ =>
    rw [accessAfter_concat, List.getLast?_concat, Option.bind_some]
    cases s <;> rfl

theorem bindings_accessAfter (ss : List Statement) : (accessAfter ss).bindings = [] := by
  induction ss using List.reverseRecOn with
  | nil => rfl
  | append_singleton ss s ih =>
    rw [accessAfter_concat]
    cases s <;> exact ih

/-- Every rule is of a list that a statement is of. -/
theorem exists_statement_of_mem_policies {ss : List Statement} {p : Policy}
    (hp : p ∈ (accessAfter ss).policies) : ∃ s ∈ ss, p.name = some s.acl := by
  induction ss using List.reverseRecOn with
  | nil => exact absurd hp List.not_mem_nil
  | append_singleton ss s ih =>
    have hold (h : p ∈ (accessAfter ss).policies) : ∃ t ∈ ss ++ [s], p.name = some t.acl := by
      obtain ⟨t, ht, hname⟩ := ih h
      exact ⟨t, List.mem_append_left _ ht, hname⟩
    rw [accessAfter_concat] at hp
    cases s with
    | remark acl text => exact hold hp
    | entry acl rule =>
      rcases List.mem_append.1 hp with h | h
      · exact hold h
      · refine ⟨_, List.mem_append_right _ (List.mem_singleton_self _), ?_⟩
        rw [List.mem_singleton.1 h]
        rfl

/-- The statements of a list alone leave rules of the list alone. -/
theorem policiesOf_statementsOf (acl : String) (ss : List Statement) :
    policiesOf acl (statementsOf acl ss) = (accessAfter (statementsOf acl ss)).policies := by
  refine List.filter_eq_self.2 fun p hp => ?_
  obtain ⟨s, hs, hname⟩ := exists_statement_of_mem_policies hp
  have hacl : (s.acl == acl) = true := (List.mem_filter.1 hs).2
  rw [hname, beq_iff_eq.1 hacl]
  exact beq_self_eq_true _

/-! ## An entry among other statements -/

/-- The remark that describes an entry of the list if it comes next. -/
def describing? (acl : String) (ss : List Statement) : Option String :=
  ((accessAfter ss).remark.filter (·.1 == acl)).map Prod.snd

theorem describing?_eq_some_iff {acl text : String} {ss : List Statement} :
    describing? acl ss = some text ↔ ss.getLast? = some (.remark acl text) := by
  rw [describing?, remark_accessAfter]
  cases ss.getLast? with
  | none => simp
  | some s => cases s <;> simp [Statement.remark?, Option.filter]

/-- The rule of an entry whose list has so many rules already. -/
def numbered (acl : String) (rule : Policy) (count : Nat) (description : Option String) : Policy :=
  { rule with name := some acl, id := some (.ofNat (count + 1)), description }

/-- **An entry adds a rule**, with the next number in its list. -/
theorem policies_accessAfter_entry (acl : String) (ss : List Statement) (rule : Policy) :
    (accessAfter (ss ++ [.entry acl rule])).policies = (accessAfter ss).policies
      ++ [numbered acl rule (policiesOf acl ss).length (describing? acl ss)] := by
  rw [accessAfter_concat, policiesOf, ← List.countP_eq_length_filter]
  rfl

theorem policiesOf_entry (acl : String) (ss : List Statement) (rule : Policy) :
    policiesOf acl (ss ++ [.entry acl rule])
      = policiesOf acl ss ++ [numbered acl rule (policiesOf acl ss).length (describing? acl ss)] := by
  rw [policiesOf, policies_accessAfter_entry, List.filter_append]
  refine congrArg (policiesOf acl ss ++ ·) (List.filter_eq_self.2 ?_)
  exact List.forall_mem_singleton.2 (beq_self_eq_true (some acl))

/-- Any other statement adds none to the list. -/
theorem policiesOf_of_ne_entry {acl : String} {s : Statement} (h : ∀ rule, s ≠ .entry acl rule)
    (ss : List Statement) : policiesOf acl (ss ++ [s]) = policiesOf acl ss := by
  cases s with
  | remark name text =>
    rw [policiesOf, accessAfter_concat]
    rfl
  | entry name rule =>
    have hne : name ≠ acl := fun heq => h rule (by rw [heq])
    rw [policiesOf, policies_accessAfter_entry, List.filter_append]
    refine (congrArg (policiesOf acl ss ++ ·) (List.filter_eq_nil_iff.2 ?_)).trans
      (List.append_nil _)
    exact List.forall_mem_singleton.2 fun hname => hne (Option.some.inj (beq_iff_eq.1 hname))

theorem statementsOf_concat (acl : String) (ss : List Statement) (s : Statement) (h : s.acl = acl) :
    statementsOf acl (ss ++ [s]) = statementsOf acl ss ++ [s] := by
  have hacl : (s.acl == acl) = true := beq_iff_eq.2 h
  rw [statementsOf, List.filter_append, List.filter_singleton, hacl]
  rfl

theorem statementsOf_concat_of_ne {acl : String} {s : Statement} (h : s.acl ≠ acl)
    (ss : List Statement) : statementsOf acl (ss ++ [s]) = statementsOf acl ss := by
  have hacl : (s.acl == acl) = false := beq_eq_false_iff_ne.2 h
  rw [statementsOf, List.filter_append, List.filter_singleton, hacl]
  exact List.append_nil _

theorem policiesOf_statementsOf_of_ne_entry {acl : String} {s : Statement}
    (h : ∀ rule, s ≠ .entry acl rule) (ss : List Statement) :
    policiesOf acl (statementsOf acl (ss ++ [s])) = policiesOf acl (statementsOf acl ss) := by
  by_cases hacl : s.acl = acl
  · rw [statementsOf_concat acl ss s hacl, policiesOf_of_ne_entry h]
  · rw [statementsOf_concat_of_ne hacl]

/-- What describes the next entry of a list among other statements describes it where the statements
of the list are alone. -/
theorem getLast?_statementsOf {acl text : String} {ss : List Statement}
    (h : ss.getLast? = some (.remark acl text)) :
    (statementsOf acl ss).getLast? = some (.remark acl text) := by
  obtain ⟨before, rfl⟩ := List.getLast?_eq_some_iff.1 h
  rw [statementsOf_concat acl before (.remark acl text) rfl, List.getLast?_concat]

/-! ## A list among others -/

theorem length_eq_of_undescribed {ps qs : List Policy}
    (h : ps.map Policy.undescribed = qs.map Policy.undescribed) : ps.length = qs.length := by
  simpa using congrArg List.length h

/-- The statements of a list, one after the other, leave the rules that they leave alone, but for
their descriptions. -/
theorem undescribed_policiesOf (acl : String) (ss : List Statement) :
    (policiesOf acl ss).map Policy.undescribed
      = (policiesOf acl (statementsOf acl ss)).map Policy.undescribed := by
  induction ss using List.reverseRecOn with
  | nil => rfl
  | append_singleton ss s ih =>
    have hlength := length_eq_of_undescribed ih
    by_cases hs : ∃ rule, s = .entry acl rule
    · obtain ⟨rule, rfl⟩ := hs
      rw [statementsOf_concat acl ss (.entry acl rule) rfl, policiesOf_entry, policiesOf_entry,
        List.map_append, List.map_append, ih, hlength]
      rfl
    · have hne : ∀ rule, s ≠ .entry acl rule := fun rule heq => hs ⟨rule, heq⟩
      rw [policiesOf_of_ne_entry hne, policiesOf_statementsOf_of_ne_entry hne, ih]

/-- No statement of another list stands between a remark of the list and the entry that it describes
where the statements of the list are alone. -/
def KeepsRemarks (acl : String) (ss : List Statement) : Prop :=
  ∀ before rule, before ++ [.entry acl rule] <+: ss → ∀ text,
    (statementsOf acl before).getLast? = some (.remark acl text) →
      before.getLast? = some (.remark acl text)

theorem keepsRemarks_nil (acl : String) : KeepsRemarks acl [] := fun before rule h => by
  have hnil := List.prefix_nil.1 h
  simp at hnil

/-- A statement that is no entry of the list takes no remark from it. -/
theorem keepsRemarks_concat_of_ne_entry {acl : String} {s : Statement}
    (h : ∀ rule, s ≠ .entry acl rule) (ss : List Statement) :
    KeepsRemarks acl (ss ++ [s]) ↔ KeepsRemarks acl ss := by
  refine forall_congr' fun before => forall_congr' fun rule => imp_congr_left ?_
  rw [List.prefix_concat_iff, List.append_singleton_inj]
  exact or_iff_right fun heq => h rule heq.2.symm

/-- An entry of the list takes the remark that describes it there, or another. -/
theorem keepsRemarks_concat_entry (acl : String) (ss : List Statement) (rule : Policy) :
    KeepsRemarks acl (ss ++ [.entry acl rule]) ↔ KeepsRemarks acl ss
      ∧ describing? acl ss = describing? acl (statementsOf acl ss) := by
  have hdescribing : describing? acl ss = describing? acl (statementsOf acl ss)
      ↔ ∀ text, (statementsOf acl ss).getLast? = some (.remark acl text) →
        ss.getLast? = some (.remark acl text) := by
    rw [Option.ext_iff]
    refine forall_congr' fun text => ?_
    rw [describing?_eq_some_iff, describing?_eq_some_iff]
    exact ⟨Iff.mpr, fun h => ⟨getLast?_statementsOf, h⟩⟩
  rw [hdescribing]
  constructor
  · intro h
    exact ⟨fun before rule' hprefix => h before rule' (List.prefix_concat_iff.2 (.inr hprefix)),
      h ss rule List.prefix_rfl⟩
  · rintro ⟨h, hlast⟩ before rule' hprefix
    rcases List.prefix_concat_iff.1 hprefix with heq | hprefix
    · rw [(List.append_singleton_inj.1 heq).1]
      exact hlast
    · exact h before rule' hprefix

/-- **A list keeps its descriptions among others** just if it keeps its remarks. -/
theorem policiesOf_eq_iff (acl : String) (ss : List Statement) :
    policiesOf acl ss = policiesOf acl (statementsOf acl ss) ↔ KeepsRemarks acl ss := by
  induction ss using List.reverseRecOn with
  | nil => exact iff_of_true rfl (keepsRemarks_nil acl)
  | append_singleton ss s ih =>
    have hlength := length_eq_of_undescribed (undescribed_policiesOf acl ss)
    by_cases hs : ∃ rule, s = .entry acl rule
    · obtain ⟨rule, rfl⟩ := hs
      rw [statementsOf_concat acl ss (.entry acl rule) rfl, policiesOf_entry, policiesOf_entry,
        List.append_singleton_inj, ih, keepsRemarks_concat_entry, hlength]
      exact and_congr_right fun _ => ⟨congrArg Policy.description, fun h => by rw [h]⟩
    · have hne : ∀ rule, s ≠ .entry acl rule := fun rule heq => hs ⟨rule, heq⟩
      rw [policiesOf_of_ne_entry hne, policiesOf_statementsOf_of_ne_entry hne,
        keepsRemarks_concat_of_ne_entry hne, ih]

/-! ## A text of access lists -/

section Text

variable {ls : List String} (hls : ∀ raw ∈ ls, OneLine raw ∧ IsListLine raw)
include hls

theorem policies_read_listLines (flavor : Flavor) :
    (read flavor (unlines ls)).policies = (accessAfter (ls.filterMap said?)).policies := by
  have haccess : accessOf (unlines ls) = accessAfter (ls.filterMap said?) :=
    (Access.accessOf_unlines fun raw hraw => (hls raw hraw).1).trans
      (Access.foldl_step_eq (fun raw hraw => (hls raw hraw).2) {})
  have hjoin (p : Policy) : Reading.joinPolicy [] p = p := by
    rw [Reading.joinPolicy, List.find?_nil, Option.map_none, Option.or_none]
  rw [policies_read, haccess, bindings_accessAfter, List.map_congr_left fun p _ => hjoin p,
    List.map_id']

/-- The rules of a list alone are those of its lines. -/
theorem policies_read_namesList (flavor : Flavor) (acl : String) :
    (read flavor (unlines (ls.filter (namesList acl)))).policies
      = policiesOf acl (statementsOf acl (ls.filterMap said?)) := by
  rw [policies_read_listLines fun raw hraw => hls raw (List.mem_filter.1 hraw).1,
    filterMap_said?_filter, policiesOf_statementsOf]

end Text

/-- **Access lists among the lines of others.**  In a text of lines of access lists, the rules of a
list are those of its own lines, with their numbers and all else but the descriptions, however the
lines of other lists stand between them.  They have the descriptions that they have alone just if no
statement of another list stands between a remark and its entry. -/
theorem policies_of_list (flavor : Flavor) {ls : List String}
    (hls : ∀ raw ∈ ls, OneLine raw ∧ IsListLine raw) (acl : String) :
    let whole := (read flavor (unlines ls)).policies.filter (·.name == some acl)
    let own := (read flavor (unlines (ls.filter (namesList acl)))).policies
    whole.map Policy.undescribed = own.map Policy.undescribed
      ∧ (whole = own ↔ KeepsRemarks acl (ls.filterMap said?))
      ∧ ∀ ms : List String, (∀ raw ∈ ms, OneLine raw ∧ IsListLine raw) →
        ms.filter (namesList acl) = ls.filter (namesList acl) →
          ((read flavor (unlines ms)).policies.filter (·.name == some acl)).map Policy.undescribed
            = whole.map Policy.undescribed := by
  have hundescribed {ls : List String} (hls : ∀ raw ∈ ls, OneLine raw ∧ IsListLine raw) :
      ((read flavor (unlines ls)).policies.filter (·.name == some acl)).map Policy.undescribed
        = (read flavor (unlines (ls.filter (namesList acl)))).policies.map Policy.undescribed := by
    rw [policies_read_listLines hls, policies_read_namesList hls]
    exact undescribed_policiesOf acl _
  intro whole own
  refine ⟨hundescribed hls, ?_, fun ms hms heq => ?_⟩
  · dsimp only [whole, own]
    rw [policies_read_listLines hls, policies_read_namesList hls]
    exact policiesOf_eq_iff acl _
  · dsimp only [whole]
    rw [hundescribed hms, hundescribed hls, heq]

/-- Two lists, with a remark right above the entry that it describes. -/
def keptRemarkLines : List String :=
  ["access-list B extended permit tcp any any eq 25", "access-list A remark web",
   "access-list A extended permit tcp any any eq 443"]

/-- The list keeps its remark. -/
theorem policies_of_list_keptRemarkLines :
    (∀ raw ∈ keptRemarkLines, OneLine raw ∧ IsListLine raw)
      ∧ KeepsRemarks "A" (keptRemarkLines.filterMap said?) := by
  have hlines : ∀ raw ∈ keptRemarkLines, OneLine raw ∧ IsListLine raw := by decide +kernel
  refine ⟨hlines, (policies_of_list .asa hlines "A").2.1.1 ?_⟩
  rw [policies_read_listLines hlines, policies_read_namesList hlines]
  decide +kernel

/-- A remark, with an entry of another list between it and the next entry of its own. -/
def cutOffRemarkLines : List String :=
  ["access-list A remark web", "access-list B extended permit ip any any",
   "access-list A extended permit ip any any"]

/-- The remark is lost, but not where the lines of its list are alone. -/
theorem not_separate_cutOffRemarkLines :
    let whole := (read .asa (unlines cutOffRemarkLines)).policies.filter (·.name == some "A")
    let own := (read .asa (unlines (cutOffRemarkLines.filter (namesList "A")))).policies
    (∀ raw ∈ cutOffRemarkLines, OneLine raw ∧ IsListLine raw) ∧ whole ≠ own
      ∧ whole.map (·.description) = [none] ∧ own.map (·.description) = [some "web"] := by
  intro whole own
  have hlines : ∀ raw ∈ cutOffRemarkLines, OneLine raw ∧ IsListLine raw := by decide +kernel
  dsimp only [whole, own]
  rw [policies_read_listLines hlines, policies_read_namesList hlines]
  exact ⟨hlines, by decide +kernel, by decide +kernel, by decide +kernel⟩

end Cisco

end FirewallConfig
