import FirewallConfig.Proofs.Xml.Comment
import FirewallConfig.Proofs.Xml.Document
import Mathlib.Data.List.Infix

/-!
# Proofs/Xml/Dashes — which comments end where they are written to end

Moving dashes apart goes through a run of them two at a time, so of a run of three or more some are
left side by side.  Main statements: two dashes stand side by side in what is written of a comment
just if three do in the comment (`dashes_sanitize_iff`), and what is written ends early just if an
odd run of three or more stands before a bracket (`closes_sanitize_iff`).
-/

namespace FirewallConfig

namespace Chars

/-- A piece does not reach over a character that it does not end in. -/
theorem infix_concat_iff_of_ne {c d : Char} (hcd : c ≠ d) (p cs : List Char) :
    p ++ [c] <:+: cs ++ [d] ↔ p ++ [c] <:+: cs := by
  refine ⟨fun h => ?_, fun h => h.trans (List.prefix_append cs [d]).isInfix⟩
  refine (List.infix_concat_iff.1 h).resolve_left ?_
  rintro ⟨as, heq⟩
  rw [← List.append_assoc] at heq
  exact hcd (List.cons.inj (List.append_inj' heq rfl).2).1

/-- A piece does not reach over a character that it does not hold. -/
theorem infix_append_cons_iff {c : Char} {p : List Char} (hc : c ∉ p) (as bs : List Char) :
    p <:+: as ++ c :: bs ↔ p <:+: as ∨ p <:+: bs := by
  constructor
  · rintro ⟨xs, ys, heq⟩
    rcases List.append_eq_append_iff.1 heq with ⟨zs, rfl, -⟩ | ⟨zs, hleft, hright⟩
    · exact Or.inl ⟨xs, zs, rfl⟩
    cases zs with
    | nil => exact Or.inl ⟨xs, [], by rw [hleft, List.append_nil, List.append_nil]⟩
    | cons z zs =>
      -- the character stands in what ends in the piece, and so before the piece
      obtain ⟨rfl, rfl⟩ := List.cons.inj hright
      rcases List.append_eq_append_iff.1 hleft with ⟨us, -, hp'⟩ | ⟨us, -, hp'⟩
      · exact absurd (hp' ▸ List.mem_append_right us List.mem_cons_self) hc
      · cases us with
        | nil => exact absurd ((List.nil_append p ▸ hp') ▸ List.mem_cons_self) hc
        | cons u us =>
          rw [(List.cons.inj hp').2]
          exact Or.inr ⟨us, ys, rfl⟩
  · rintro (h | h)
    · exact h.trans (List.prefix_append as _).isInfix
    · exact h.trans ((List.suffix_cons c bs).trans (List.suffix_append as _)).isInfix

/-- A text is cut at a piece that it does not hold earlier, in whole or in part. -/
theorem cutAt_append_append {p as : List Char} (h : ¬ p <:+: as ++ p.dropLast) (rest : List Char) :
    cutAt p (as ++ (p ++ rest)) = some (as, rest) := by
  induction as with
  | nil => exact cutAt_append p rest
  | cons a as ih =>
    have hrest : ¬ p <:+: as ++ p.dropLast := fun hp => h (List.infix_cons hp)
    have hfirst : withoutPrefix p (a :: (as ++ (p ++ rest))) = none := by
      refine withoutPrefix_eq_none_of_ne fun r heq => h (List.IsPrefix.isInfix ?_)
      -- what the text begins with is as long as the piece, so the piece is its beginning
      have hpiece : p <+: a :: (as ++ (p ++ rest)) := ⟨r, heq.symm⟩
      refine List.prefix_of_prefix_length_le hpiece ?_ ?_
      · rw [List.cons_append, List.cons_prefix_cons]
        refine ⟨rfl, (List.prefix_append_right_inj as).2 ?_⟩
        exact (List.dropLast_prefix p).trans (List.prefix_append p rest)
      · simp only [List.length_append, List.length_cons, List.length_dropLast]
        omega
    rw [List.cons_append, cutAt, hfirst]
    simp only [ih hrest, Option.map_some]

/-! ## Runs of dashes -/

/-- An odd run of three or more dashes stands before a bracket. -/
def OddRun (cs : List Char) : Prop :=
  ∃ as k bs, cs = as ++ (List.replicate (2 * k + 3) '-' ++ '>' :: bs) ∧ as.getLast? ≠ some '-'

theorem not_oddRun_nil : ¬ OddRun [] := by
  rintro ⟨as, k, bs, heq, -⟩
  simp [List.replicate_succ] at heq

/-- A character in front that makes no two dashes does not count. -/
theorem oddRun_cons_iff {c : Char} {cs : List Char} (h : ∀ ds, c = '-' → cs ≠ '-' :: ds) :
    OddRun (c :: cs) ↔ OddRun cs := by
  constructor
  · rintro ⟨as, k, bs, heq, hlast⟩
    cases as with
    | nil =>
      obtain ⟨rfl, rfl⟩ := List.cons.inj heq
      exact absurd rfl (h _ rfl)
    | cons a as =>
      refine ⟨as, k, bs, (List.cons.inj heq).2, fun hl => hlast ?_⟩
      rw [List.getLast?_cons, hl, Option.getD_some]
  · rintro ⟨as, k, bs, rfl, hlast⟩
    refine ⟨c :: as, k, bs, rfl, fun hl => ?_⟩
    cases as with
    | nil =>
      rw [List.getLast?_singleton, Option.some.injEq] at hl
      exact h _ hl rfl
    | cons a as => exact hlast (by rwa [List.getLast?_cons_cons] at hl)

/-- Two dashes in front are dropped together, and then the run may have ended. -/
theorem oddRun_cons_cons_iff (cs : List Char) :
    OddRun ('-' :: '-' :: cs) ↔ ['-', '>'] <+: cs ∨ OddRun cs := by
  constructor
  · rintro ⟨as, k, bs, heq, hlast⟩
    match as, k with
    | [], 0 => exact Or.inl ⟨bs, (List.cons.inj (List.cons.inj heq).2).2.symm⟩
    | [], k + 1 => exact Or.inr ⟨[], k, bs, (List.cons.inj (List.cons.inj heq).2).2, by simp⟩
    | [a], k => exact absurd (congrArg some (List.cons.inj heq).1.symm) hlast
    | a :: b :: as, k =>
      refine Or.inr ⟨as, k, bs, (List.cons.inj (List.cons.inj heq).2).2, fun hl => hlast ?_⟩
      rw [List.getLast?_cons, List.getLast?_cons, hl, Option.getD_some, Option.getD_some]
  · rintro (⟨bs, rfl⟩ | ⟨as, k, bs, rfl, hlast⟩)
    · exact ⟨[], 0, bs, rfl, by simp⟩
    · cases as with
      | nil => exact ⟨[], k + 1, bs, rfl, by simp⟩
      | cons a as =>
        refine ⟨'-' :: '-' :: a :: as, k, bs, rfl, ?_⟩
        rwa [List.getLast?_cons_cons, List.getLast?_cons_cons]

/-! ## What is left of a run -/

theorem singleton_prefix_spread_iff (c : Char) (cs : List Char) : [c] <+: spread cs ↔ [c] <+: cs := by
  fun_cases spread cs <;> simp [List.cons_prefix_cons]

/-- What begins with one dash and a bracket keeps its beginning. -/
theorem dash_bracket_prefix_spread_iff (cs : List Char) :
    ['-', '>'] <+: spread cs ↔ ['-', '>'] <+: cs := by
  fun_cases spread cs with
  | case1 cs => simp
  | case2 c cs hc => rw [List.cons_prefix_cons, List.cons_prefix_cons, singleton_prefix_spread_iff]
  | case3 => simp

/-- **Two dashes are left side by side** just where there were three. -/
theorem dashes_spread_iff (cs : List Char) :
    ['-', '-'] <:+: spread cs ↔ ['-', '-', '-'] <:+: cs := by
  have hthird : ∀ ds, ['-', '-'] <+: ds → ['-'] <+: ds := fun _ =>
    (List.prefix_append ['-'] ['-']).trans
  fun_induction spread cs with
  | case1 cs ih =>
    -- a third dash makes three, whether a fourth one follows or not
    simp only [List.infix_cons_iff, List.cons_prefix_cons, singleton_prefix_spread_iff, ih,
      Char.reduceEq, false_and, true_and, false_or, ← or_assoc, or_iff_left_of_imp (hthird cs)]
  | case2 c cs hc ih =>
    have hfirst : ¬ ('-' = c ∧ ['-'] <+: cs) := by
      rintro ⟨rfl, ds, rfl⟩
      exact hc ds rfl rfl
    rw [List.infix_cons_iff, List.infix_cons_iff, List.cons_prefix_cons, List.cons_prefix_cons,
      singleton_prefix_spread_iff, or_iff_right hfirst,
      or_iff_right fun h => hfirst ⟨h.1, hthird cs h.2⟩]
    exact ih
  | case3 => simp

/-- **What closes a comment is left** just where an odd run stood before a bracket. -/
theorem closes_spread_iff (cs : List Char) : ['-', '-', '>'] <:+: spread cs ↔ OddRun cs := by
  fun_induction spread cs with
  | case1 cs ih =>
    simp only [List.infix_cons_iff, List.cons_prefix_cons, dash_bracket_prefix_spread_iff, ih,
      oddRun_cons_cons_iff, Char.reduceEq, false_and, true_and, false_or]
  | case2 c cs hc ih =>
    rw [oddRun_cons_iff fun ds hdash heq => hc ds hdash heq, ← ih, List.infix_cons_iff,
      List.cons_prefix_cons, dash_bracket_prefix_spread_iff, or_iff_right_iff_imp]
    rintro ⟨rfl, ds, rfl⟩
    exact absurd rfl (hc _ rfl)
  | case3 => simp [not_oddRun_nil]

/-- A run does not go on over a character that is neither a dash nor a bracket. -/
theorem oddRun_append_cons_iff {c : Char} (hdash : c ≠ '-') (hbracket : c ≠ '>')
    (as bs : List Char) : OddRun (as ++ c :: bs) ↔ OddRun as ∨ OddRun bs := by
  rw [← closes_spread_iff, ← closes_spread_iff, ← closes_spread_iff, spread_append_cons hdash,
    infix_append_cons_iff (by simp [hdash, hbracket])]

theorem OddRun.mem {cs : List Char} (h : OddRun cs) : '-' ∈ cs := by
  obtain ⟨as, k, bs, rfl, -⟩ := h
  exact List.mem_append_right _ (List.mem_append_left _ List.mem_cons_self)

end Chars

namespace Xml

/-- What is put at the end of a comment does not count. -/
theorem infix_sanitize_iff {p : List Char} {c : Char} (hc : c ≠ ' ') (s : String) :
    p ++ [c] <:+: (sanitize s).toList ↔ p ++ [c] <:+: Chars.spread s.toList := by
  rcases sanitize_eq_or s with h | h
  · rw [h, spread, String.toList_ofList]
  · rw [h, String.toList_append, spread, String.toList_ofList]
    exact Chars.infix_concat_iff_of_ne hc p _

/-- **Two dashes stand side by side in a written comment** just if three do in the comment. -/
theorem dashes_sanitize_iff (s : String) :
    ['-', '-'] <:+: (sanitize s).toList ↔ ['-', '-', '-'] <:+: s.toList :=
  (infix_sanitize_iff (p := ['-']) (by decide) s).trans (Chars.dashes_spread_iff s.toList)

/-- **A written comment ends early** just if an odd run of dashes stands before a bracket. -/
theorem closes_sanitize_iff (s : String) :
    ['-', '-', '>'] <:+: (sanitize s).toList ↔ Chars.OddRun s.toList :=
  (infix_sanitize_iff (p := ['-', '-']) (by decide) s).trans (Chars.closes_spread_iff s.toList)

/-! ## A document with a comment -/

/-- What stands up to the first piece that closes a comment is taken off and means nothing. -/
theorem next_comment {cs : List Char} (hcs : ¬ "-->".toList <:+: cs ++ ['-', '-'])
    (rest : List Char) :
    Token.next ('\n' :: '<' :: '!' :: '-' :: '-' :: (cs ++ ("-->".toList ++ rest)))
      = .ok (some (.ignored, rest)) := by
  have hcut : Chars.cutAt "-->".toList (cs ++ ("-->".toList ++ rest)) = some (cs, rest) :=
    Chars.cutAt_append_append hcs rest
  have hdrop : ∀ ds, dropSpaces ('\n' :: '<' :: ds) = '<' :: ds := fun ds => rfl
  rw [Token.next, hdrop]
  simp only [takeMarkup, takeDeclaration, hcut, Except.map]

/-- What is put around a comment does not close it early. -/
theorem closes_comment_iff (s : String) :
    "-->".toList <:+: ' ' :: (sanitize s).toList ++ [' '] ++ ['-', '-']
      ↔ Chars.OddRun s.toList := by
  have hne : ∀ c : Char, c ≠ '>' → ∀ cs : List Char,
      ['-', '-', '>'] <:+: cs ++ [c] ↔ ['-', '-', '>'] <:+: cs := fun c hc cs =>
    Chars.infix_concat_iff_of_ne (Ne.symm hc) ['-', '-'] cs
  have hlist : ' ' :: (sanitize s).toList ++ [' '] ++ ['-', '-']
      = ' ' :: (sanitize s).toList ++ [' '] ++ ['-'] ++ ['-'] := by simp
  have hpiece : "-->".toList = ['-', '-', '>'] := rfl
  rw [hlist, hpiece, hne _ (by decide), hne _ (by decide), hne _ (by decide), List.infix_cons_iff,
    List.cons_prefix_cons, closes_sanitize_iff, or_iff_right fun h => absurd h.1 (by decide)]

/-- The characters of a document with a comment. -/
theorem toList_document (root : Node) (comment : String) :
    (document root (some comment)).toList
      = declaration.toList ++ '\n' :: '<' :: '!' :: '-' :: '-'
        :: (' ' :: (sanitize comment).toList ++ [' ']
          ++ ("-->".toList ++ ((root.write true 0).toList ++ ['\n']))) := by
  simp [document]

/-- **A document with a comment is read back**, its texts as they are read, unless its comment ends
early. -/
theorem read_document_comment {root : Node} (hroot : root.Named) {comment : String}
    (hcomment : ¬ Chars.OddRun comment.toList) :
    read (document root (some comment)) = .ok root.settled := by
  have hmark : ∀ cs, dropMark (declaration.toList ++ cs) = declaration.toList ++ cs := by
    have hhead : declaration.toList = '<' :: declaration.toList.tail := by decide
    intro cs
    rw [hhead, List.cons_append, dropMark, if_neg (by decide)]
  have hattach : Reading.attach {} root.settled = .ok { root := some root.settled } := rfl
  have hend : Token.next ['\n'] = .ok none := rfl
  rw [read, toList_document, hmark, Reading.run_of_next (next_declaration _) rfl,
    Reading.run_of_next (next_comment (mt (closes_comment_iff comment).1 hcomment) _) rfl,
    Reading.run_write_settled hroot true 0 _ _ _ hattach, Reading.run_of_next_eq_none hend]
  rfl

end Xml

end FirewallConfig
