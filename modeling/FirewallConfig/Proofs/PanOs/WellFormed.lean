import FirewallConfig.Proofs.Cisco.OneLine
import FirewallConfig.Proofs.FortiOs.OneLine
import FirewallConfig.Proofs.PanOs.Document
import FirewallConfig.Proofs.PanOs.OneLine
import FirewallConfig.Proofs.Xml.Dashes
import FirewallConfig.Reader

/-!
# Proofs/PanOs/WellFormed — when a written document is one

Only the comment can break a document: everything else is spelled with entities.  Main statement:
what is written of any text that was read is read back as its tree, whatever the tree holds, unless
a remark in the comment holds an odd run of three or more dashes before a bracket
(`read_write_of_remarks`).
-/

namespace FirewallConfig

/-- Nothing that is read holds a line feed. -/
theorem Dialect.oneLine_read (source : Dialect) (text : String) : (source.read text).OneLine := by
  cases source with
  | ciscoAsa => exact Cisco.oneLine_read .asa text
  | ciscoFtd => exact Cisco.oneLine_read .ftd text
  | fortiGate => exact FortiOs.oneLine_read text
  | paloAlto => exact PanOs.oneLine_read text

/-- An element that is written one a line has names. -/
theorem Xml.Node.Regular.named {n : Xml.Node} (hn : n.Regular) : n.Named := by
  induction hn with
  | text htag hattributes _ =>
    exact .mk htag (fun e he => (hattributes e he).1) (List.forall_mem_nil _)
  | children htag hattributes _ ih => exact .mk htag (fun e he => (hattributes e he).1) ih

namespace PanOs

open Xml (Node)

/-- The comment holds no dash before its remarks. -/
theorem exists_headComment (origin : Dialect) (c : Config) : ∃ head : String, '-' ∉ head.toList ∧
    headComment origin c = head ++ String.join ((notes c).map ("\n  not converted: " ++ ·)) := by
  have hproduct : '-' ∉ origin.product.toList := by cases origin <;> decide
  refine ⟨_, ?_, rfl⟩
  simp only [String.toList_append, List.mem_append, not_or]
  exact ⟨⟨by decide, hproduct⟩, by decide⟩

/-- **What needs a dash, and goes on over no blank and no line feed, stands in the comment** just if
it stands in a remark. -/
theorem holds_headComment_iff {P : List Char → Prop}
    (hsplit : ∀ c ∈ [' ', '\n'], ∀ as bs, P (as ++ c :: bs) ↔ P as ∨ P bs)
    (hdash : ∀ cs, P cs → '-' ∈ cs) (origin : Dialect) (c : Config) :
    P (headComment origin c).toList ↔ ∃ n ∈ notes c, P n.toList := by
  have hlabel : ¬ P "  not converted:".toList := fun h => absurd (hdash _ h) (by decide)
  have hremark : ∀ n : String, P ("  not converted: " ++ n).toList ↔ P n.toList := by
    intro n
    have hlist : ("  not converted: " ++ n).toList
        = "  not converted:".toList ++ ' ' :: n.toList := by
      simp
    rw [hlist, hsplit ' ' (by decide), or_iff_right hlabel]
  have hjoin : ∀ (ns : List String) (s : String),
      P (s ++ String.join (ns.map ("\n  not converted: " ++ ·))).toList
        ↔ P s.toList ∨ ∃ n ∈ ns, P n.toList := by
    intro ns
    induction ns with
    | nil => simp
    | cons n ns ih =>
      intro s
      have hlist : (s ++ String.join ((n :: ns).map ("\n  not converted: " ++ ·))).toList
          = s.toList ++ '\n' :: ("  not converted: " ++ n
            ++ String.join (ns.map ("\n  not converted: " ++ ·))).toList := by
        simp
      rw [hlist, hsplit '\n' (by decide), ih, hremark, List.exists_mem_cons_iff]
  obtain ⟨head, hhead, heq⟩ := exists_headComment origin c
  rw [heq, hjoin, or_iff_right fun h => hhead (hdash _ h)]

/-- **A written document is well formed unless a remark closes its comment.**  What is read in any
dialect is written as a document that is read back as the tree it was written of, with the blanks at
the ends of texts dropped, if no remark holds an odd run of three or more dashes before a bracket.
Such a run in a remark, and nothing else, makes the comment end early; and two dashes are left side
by side in it just if three are in a remark. -/
theorem read_write_of_remarks (source : Dialect) (text : String) :
    ((∀ n ∈ notes (source.read text), ¬ Chars.OddRun n.toList) →
        Xml.read (write source (source.read text)) = .ok (rootElement (source.read text)).settled
          ∧ (rootElement (source.read text)).settled.tag = "config")
      ∧ ("-->".toList <:+: (Xml.sanitize (headComment source (source.read text))).toList
          ↔ ∃ n ∈ notes (source.read text), Chars.OddRun n.toList)
      ∧ ("--".toList <:+: (Xml.sanitize (headComment source (source.read text))).toList
          ↔ ∃ n ∈ notes (source.read text), "---".toList <:+: n.toList) := by
  have hapart : ∀ c ∈ [' ', '\n'], c ≠ '-' ∧ c ≠ '>' := by simp
  have hodd := holds_headComment_iff (P := Chars.OddRun)
    (fun c hc as bs => Chars.oddRun_append_cons_iff (hapart c hc).1 (hapart c hc).2 as bs)
    (fun cs h => h.mem) source (source.read text)
  have hdashes := holds_headComment_iff (P := ("---".toList <:+: ·))
    (fun c hc as bs => Chars.infix_append_cons_iff (by simp [(hapart c hc).1]) as bs)
    (fun cs h => h.subset List.mem_cons_self) source (source.read text)
  refine ⟨fun h => ⟨?_, rfl⟩, ?_, ?_⟩
  · have hroot := (regular_rootElement (source.oneLine_read text)).named
    refine Xml.read_document_comment hroot fun hcomment => ?_
    obtain ⟨n, hn, hrun⟩ := hodd.1 hcomment
    exact h n hn hrun
  · exact (Xml.closes_sanitize_iff _).trans hodd
  · exact (Xml.dashes_sanitize_iff _).trans hdashes

/-- A class map in whose name an even run of dashes stands before a bracket. -/
def evenText : String := "class-map a----><b>\n"

/-- An even run is moved apart far enough, so that the document is read back. -/
theorem read_write_of_remarks_evenText :
    (∀ n ∈ notes (Dialect.ciscoFtd.read evenText), ¬ Chars.OddRun n.toList)
      ∧ Xml.read (write .ciscoFtd (Dialect.ciscoFtd.read evenText))
        = .ok (rootElement (Dialect.ciscoFtd.read evenText)).settled := by
  have hnotes : notes (Dialect.ciscoFtd.read evenText) = ["class-map a----><b>"] := by
    decide +kernel
  have hrun : ∀ n ∈ notes (Dialect.ciscoFtd.read evenText), ¬ Chars.OddRun n.toList := by
    rw [hnotes, List.forall_mem_singleton, ← Chars.closes_spread_iff]
    decide
  exact ⟨hrun, ((read_write_of_remarks .ciscoFtd evenText).1 hrun).1⟩

/-- A class map in whose name an odd run of dashes stands before a bracket. -/
def oddText : String := "class-map a---></b>\n"

/-- **An odd run closes the comment**, and the rest of the remark is read as markup. -/
theorem not_wellFormed_oddText :
    notes (Dialect.ciscoFtd.read oddText) = ["class-map a---></b>"]
      ∧ "-->".toList <:+:
        (Xml.sanitize (headComment .ciscoFtd (Dialect.ciscoFtd.read oddText))).toList
      ∧ Xml.read (write .ciscoFtd (Dialect.ciscoFtd.read oddText)) = .error .unmatchedTag := by
  have hnotes : notes (Dialect.ciscoFtd.read oddText) = ["class-map a---></b>"] := by
    decide +kernel
  refine ⟨hnotes, ?_⟩
  -- nothing but the remark counts from here on
  generalize Dialect.ciscoFtd.read oddText = c at hnotes ⊢
  obtain ⟨head, hhead, hcomment⟩ := exists_headComment .ciscoFtd c
  -- the first dash of the run is moved away, and the two that are left close the comment
  have hspread : Chars.spread (headComment .ciscoFtd c).toList
      = head.toList ++ '\n' :: ("  not converted: class-map a- ".toList
        ++ ("-->".toList ++ "</b>".toList)) := by
    have hlist : (headComment .ciscoFtd c).toList
        = head.toList ++ '\n' :: "  not converted: class-map a---></b>".toList := by
      rw [hcomment, hnotes]
      simp
    have hplain := Chars.spread_of_cutAt_eq_none (Chars.cutAt_eq_none_of_not_mem hhead ['-'])
    rw [hlist, Chars.spread_append_cons (by decide), hplain]
    rfl
  obtain ⟨tail, hsanitize⟩ : ∃ tail,
      (Xml.sanitize (headComment .ciscoFtd c)).toList
        = head.toList ++ '\n' :: "  not converted: class-map a- ".toList
          ++ ("-->".toList ++ ("</b>".toList ++ tail)) := by
    rcases Xml.sanitize_eq_or (headComment .ciscoFtd c) with h | h
    · exact ⟨[], by rw [h, Xml.spread, String.toList_ofList, hspread]; simp⟩
    · exact ⟨[' '], by
        rw [h, String.toList_append, Xml.spread, String.toList_ofList, hspread]; simp⟩
  have hopen : ¬ "-->".toList <:+:
      ' ' :: (head.toList ++ '\n' :: "  not converted: class-map a- ".toList) ++ ['-', '-'] := by
    have hfirst : ¬ "-->".toList <:+: ' ' :: head.toList := fun h =>
      (List.mem_cons.1 (h.subset (List.mem_cons_self (a := '-')))).elim (by decide) hhead
    rw [List.cons_append, List.append_assoc, List.cons_append, ← List.cons_append,
      Chars.infix_append_cons_iff (by decide), or_iff_right hfirst]
    decide
  have hlist : (write .ciscoFtd c).toList
      = Xml.declaration.toList ++ '\n' :: '<' :: '!' :: '-' :: '-'
        :: (' ' :: (head.toList ++ '\n' :: "  not converted: class-map a- ".toList)
          ++ ("-->".toList ++ '<' :: '/' :: ("b".toList ++ '>' :: (tail ++ (" -->".toList
            ++ (((rootElement c).write true 0).toList ++ ['\n'])))))) := by
    rw [write, Xml.toList_document, hsanitize]
    simp only [List.append_assoc, List.cons_append, List.nil_append]
    rfl
  have hmark : ∀ cs, Xml.dropMark (Xml.declaration.toList ++ cs) = Xml.declaration.toList ++ cs :=
    fun cs => rfl
  have hclosing : Xml.Reading.step {} (.closing "b") = .error .unmatchedTag := rfl
  refine ⟨⟨_, _, (hsanitize.trans (List.append_assoc _ _ _).symm).symm⟩, ?_⟩
  rw [Xml.read, hlist, hmark, Xml.Reading.run_of_next (Xml.next_declaration _) rfl,
    Xml.Reading.run_of_next (Xml.next_comment hopen _) rfl,
    Xml.Reading.run_of_step_eq_error (Xml.next_closing (by decide) _) hclosing]
  rfl

end PanOs

end FirewallConfig
