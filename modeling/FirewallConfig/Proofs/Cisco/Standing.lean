import FirewallConfig.Proofs.Cisco.Blocks

/-!
# Proofs/Cisco/Standing — what directives add that have no block

Some directives say all of it in one line, such as a route or the binding of a crypto map.  What they
say is kept in order (`StandingKind`): a line that is no such directive adds nothing, whatever block it
stands in, and so what is kept of a text is what its lines say, one by one (`StandingKind.kept_run`).
-/

namespace FirewallConfig

namespace Cisco

open Text

/-- Words that begin with an exclamation mark are no directive. -/
theorem Directive.readWords_of_bang (l : Line) {ws : List String}
    (h : ws.head?.any (beginsWith "!") = true) : readWords l ws = .other := by
  have hreads := reads_readWords l ws
  generalize readWords l ws = d at hreads ⊢
  cases hreads with
  | other => rfl
  | _ => cases h

/-- A kind of what directives say in one line, and where it is kept. -/
structure StandingKind (α : Type) where
  kept : Reading → List α
  /-- What words say, if they are those of such a directive. -/
  ofWords? : List String → Option α
  /-- What a directive says. -/
  ofDirective? : Directive → Option α
  ofDirective?_readWords : ∀ l ws, ofDirective? (Directive.readWords l ws) = ofWords? ws
  ofDirective?_other : ofDirective? .other = none
  kept_closeBlock : ∀ r : Reading, kept r.closeBlock = kept r
  kept_blockLine : ∀ (r : Reading) (b : Block) (l : Line), kept (r.blockLine b l) = kept r
  kept_apply : ∀ (r : Reading) (d : Directive),
    kept (r.apply d) = kept r ++ (ofDirective? d).toList

namespace StandingKind

variable {α : Type} (k : StandingKind α)

/-- What a line says.  It stands alone. -/
def ofLine? (raw : String) : Option α := if isIndented raw then none else k.ofWords? (words raw)

theorem ofLine?_of_bang {raw : String} (h : (words raw).head?.any (beginsWith "!") = true) :
    k.ofLine? raw = none := by
  have hwords : k.ofWords? (words raw) = none := by
    rw [← k.ofDirective?_readWords (Line.ofText raw), Directive.readWords_of_bang _ h,
      k.ofDirective?_other]
  rw [ofLine?, hwords, ite_self]

/-- What a line says is what its directive says. -/
theorem ofLine?_eq {raw : String} (hraw : isIndented raw = false)
    (hbang : (words raw).head?.any (beginsWith "!") = false) :
    k.ofLine? raw = k.ofDirective? (Directive.read (Line.ofText raw)) := by
  have hread : Directive.read (Line.ofText raw) = Directive.readWords (Line.ofText raw) (words raw) :=
    if_neg (by rw [Line.ofText, hbang]; exact Bool.false_ne_true)
  rw [ofLine?, hraw, if_neg Bool.false_ne_true, hread, k.ofDirective?_readWords]

/-- A line that ends no block is no directive. -/
theorem ofLine?_of_not_endsBlock {raw : String} (h : endsBlock raw = false) :
    k.ofLine? raw = none := by
  obtain ⟨hbang, hline⟩ := Bool.or_eq_false_iff.1 h
  cases hraw : isIndented raw with
  | true => exact if_pos hraw
  | false =>
    rw [hraw, Bool.not_false, Bool.true_and, bne_eq_false_iff_eq] at hline
    rw [k.ofLine?_eq hraw hbang, hline, k.ofDirective?_other]

variable {r : Reading} (hin : ∀ d, (k.ofDirective? d).isSome → r.flavor.enables d = true)
include hin

/-- **A line adds what it says.** -/
theorem kept_step (raw : String) : k.kept (r.step raw) = k.kept r ++ (k.ofLine? raw).toList := by
  have hskip (s : Reading) : k.kept (s.openBlock .skip) = k.kept s := by
    have hother := k.kept_apply s .other
    rwa [k.ofDirective?_other, Option.toList_none, List.append_nil] at hother
  cases h : endsBlock raw with
  | false =>
    have hsame : k.kept (r.step raw) = k.kept r := by
      cases hblock : r.block with
      | none =>
        rcases Reading.step_idle hblock h with hstep | hstep
        · rw [hstep]
        · rw [hstep, hskip]
      | some b =>
        rw [Reading.step_below hblock h]
        split
        · rfl
        · exact k.kept_blockLine r b _
    rw [hsame, k.ofLine?_of_not_endsBlock h, Option.toList_none, List.append_nil]
  | true =>
    rcases r.step_end h with ⟨hbang, hstep⟩ | ⟨hbang, hraw, hstep⟩
    · rw [hstep, k.kept_closeBlock, k.ofLine?_of_bang hbang, Option.toList_none, List.append_nil]
    · rw [hstep, k.kept_apply, k.kept_closeBlock, k.ofLine?_eq hraw hbang]
      generalize Directive.read (Line.ofText raw) = d
      split
      · rfl
      · next hnot =>
        rw [k.ofDirective?_other, Option.not_isSome_iff_eq_none.1 (mt (hin d) hnot)]

/-- **Lines add what they say**, one by one and in order. -/
theorem kept_run (ls : List String) :
    k.kept (r.run ls) = k.kept r ++ ls.filterMap k.ofLine? := by
  induction ls generalizing r with
  | nil => exact (List.append_nil _).symm
  | cons raw ls ih =>
    have hnext : ∀ d, (k.ofDirective? d).isSome → (r.step raw).flavor.enables d = true := by
      rwa [r.flavor_step raw]
    rw [Reading.run_cons, ih hnext, k.kept_step hin, List.append_assoc, List.filterMap_cons]
    cases k.ofLine? raw <;> rfl

end StandingKind

end Cisco

end FirewallConfig
