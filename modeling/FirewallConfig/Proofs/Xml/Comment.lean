import FirewallConfig.Proofs.Xml.Lines

/-!
# Proofs/Xml/Comment — the comment of a document, and the lines of the whole

A comment that goes over several lines keeps them: moving dashes apart does not touch a line feed.
So the lines of a document are its declaration, the lines of its comment, and those of its root.
-/

namespace FirewallConfig

namespace Chars

/-- Moves two dashes side by side apart, from the left. -/
def spread : List Char → List Char
  | '-' :: '-' :: cs => '-' :: ' ' :: '-' :: spread cs
  | c :: cs => c :: spread cs
  | [] => []

/-- A character that is no dash stays where it is. -/
theorem spread_append_cons {c : Char} (hc : c ≠ '-') (as bs : List Char) :
    spread (as ++ c :: bs) = spread as ++ c :: spread bs := by
  fun_induction spread as with
  | case1 as ih =>
    rw [List.cons_append, List.cons_append, spread, ih]
    rfl
  | case2 d as hd ih =>
    have hne : ∀ cs, d = '-' → as ++ c :: bs = '-' :: cs → False := by
      rintro cs rfl heq
      cases as with
      | nil => exact hc (List.cons.inj heq).1
      | cons e es => exact hd es rfl (by rw [(List.cons.inj heq).1])
    rw [List.cons_append, spread, ih, List.cons_append]
    exact hne
  | case3 =>
    rw [List.nil_append, spread, List.nil_append]
    rintro _ rfl
    exact absurd rfl hc

theorem spread_cons {c : Char} (hc : c ≠ '-') (cs : List Char) : spread (c :: cs) = c :: spread cs :=
  spread_append_cons hc [] cs

/-- Without two dashes side by side there is nothing to move. -/
theorem spread_of_cutAt_eq_none {cs : List Char} (h : cutAt ['-', '-'] cs = none) :
    spread cs = cs := by
  fun_induction spread cs with
  | case1 cs => simp [cutAt, withoutPrefix] at h
  | case2 c cs _ ih =>
    rw [cutAt] at h
    split at h
    · cases h
    · rw [ih (Option.map_eq_none_iff.1 h)]
  | case3 => rfl

theorem spread_of_cutAt_eq_some {cs a b : List Char} (h : cutAt ['-', '-'] cs = some (a, b)) :
    spread cs = a ++ '-' :: ' ' :: '-' :: spread b := by
  fun_induction spread cs generalizing a with
  | case1 cs =>
    simp only [cutAt, withoutPrefix, if_true, Option.some.injEq, Prod.mk.injEq] at h
    obtain ⟨rfl, rfl⟩ := h
    rfl
  | case2 c cs hc ih =>
    rw [cutAt] at h
    split at h
    · next rest hrest =>
      have heq := withoutPrefix_eq_some_iff.1 hrest
      simp only [List.cons_append, List.nil_append, List.cons.injEq] at heq
      exact (hc rest heq.1 heq.2).elim
    · obtain ⟨⟨a', b'⟩, hab, heq⟩ := Option.map_eq_some_iff.1 h
      cases heq
      rw [ih hab, List.cons_append]
  | case3 => simp [cutAt] at h

/-- The pieces between dashes side by side, put together with the dashes apart. -/
theorem intercalate_piecesAt (cs : List Char) :
    ['-', ' ', '-'].intercalate (piecesAt ['-', '-'] cs) = spread cs := by
  rw [piecesAt, dif_neg (by simp)]
  split
  · next h => rw [spread_of_cutAt_eq_none h, List.intercalate_singleton]
  · next a b h =>
    have hlt : b.length < cs.length := by
      rw [eq_append_of_cutAt h]
      simp only [List.length_append, List.length_cons]
      omega
    have hrest := intercalate_piecesAt b
    have hne : piecesAt ['-', '-'] b ≠ [] := by
      rw [piecesAt, dif_neg (by simp)]
      split <;> simp
    rw [List.intercalate_cons_of_ne_nil hne, hrest, spread_of_cutAt_eq_some h]
    simp
termination_by cs.length

end Chars

namespace Xml

/-- The text with dashes side by side moved apart. -/
def spread (s : String) : String := String.ofList (Chars.spread s.toList)

theorem sanitize_eq_or (s : String) : sanitize s = spread s ∨ sanitize s = spread s ++ " " := by
  have h : "- -".intercalate (Text.piecesAt "--" s) = spread s := by
    apply String.toList_inj.1
    rw [String.toList_intercalate, Text.piecesAt, List.map_map, spread, String.toList_ofList,
      ← Chars.intercalate_piecesAt]
    simp [Function.comp_def]
  rw [sanitize, h]
  split
  · exact Or.inr rfl
  · exact Or.inl rfl

/-- The lines of a text are spread one by one. -/
theorem spread_append_lines (s : String) (ls : List String) :
    spread (s ++ String.join (ls.map ("\n" ++ ·)))
      = spread s ++ String.join ((ls.map spread).map ("\n" ++ ·)) := by
  induction ls generalizing s with
  | nil => simp
  | cons l ls ih =>
    have ih := congrArg String.toList (ih l)
    apply String.toList_inj.1
    simp only [spread, List.map_cons, String.join_cons, String.toList_append,
      String.toList_ofList] at ih ⊢
    rw [List.append_assoc]
    exact (Chars.spread_append_cons (by decide) s.toList _).trans
      (congrArg (Chars.spread s.toList ++ '\n' :: ·) ih)

theorem oneLine_spread {s : String} (hs : Text.OneLine s) : Text.OneLine (spread s) := by
  rw [spread, Text.oneLine_ofList]
  rw [Text.OneLine] at hs
  generalize s.toList = cs at hs
  fun_induction Chars.spread cs with
  | case1 cs ih =>
    simp only [List.mem_cons, not_or] at hs ⊢
    exact ⟨hs.1, by decide, hs.1, ih hs.2.2⟩
  | case2 c cs _ ih =>
    simp only [List.mem_cons, not_or] at hs ⊢
    exact ⟨hs.1, ih hs.2⟩
  | case3 => exact hs

/-! ## The lines of a document -/

/-- A text of some lines with something put after it is a text of lines, each of which begins with
one of the lines. -/
theorem exists_lines_append {l : String} {ls : List String} {tail : String}
    (hl : ∀ m ∈ l :: ls, Text.OneLine m) (htail : Text.OneLine tail) :
    ∃ raws : List String, (∀ r ∈ raws, Text.OneLine r ∧ ∃ m ∈ l :: ls, ∃ t, r = m ++ t)
      ∧ "\n" ++ l ++ String.join (ls.map ("\n" ++ ·)) ++ tail
        = String.join (raws.map ("\n" ++ ·)) := by
  induction ls generalizing l with
  | nil =>
    refine ⟨[l ++ tail], ?_, by simp [String.append_assoc]⟩
    intro r hr
    rw [List.mem_singleton.1 hr]
    exact ⟨Text.oneLine_append.2 ⟨hl l List.mem_cons_self, htail⟩, l, List.mem_cons_self, tail, rfl⟩
  | cons k ls ih =>
    obtain ⟨raws, hraws, heq⟩ := ih fun m hm => hl m (List.mem_cons_of_mem _ hm)
    refine ⟨l :: raws, ?_, ?_⟩
    · intro r hr
      rcases List.mem_cons.1 hr with rfl | hr
      · exact ⟨hl r List.mem_cons_self, r, List.mem_cons_self, "", by simp⟩
      · obtain ⟨hr, m, hm, h⟩ := hraws r hr
        exact ⟨hr, m, List.mem_cons_of_mem _ hm, h⟩
    · rw [List.map_cons, List.map_cons, String.join_cons, String.join_cons, ← heq]
      simp only [String.append_assoc]

/-- **The lines of a document**: the declaration, the lines of the comment, and those of the root.
What is put at the end of the comment stands on its last line. -/
theorem exists_lines_document {root : Node} (hroot : root.Regular) {head : String}
    {notes : List String} (hhead : Text.OneLine head) (hnotes : ∀ n ∈ notes, Text.OneLine n) :
    ∃ comment : List String,
      (∀ l ∈ comment, ∃ m ∈ ("<!-- " ++ spread head) :: notes.map spread, ∃ t,
        l = Text.trim (m ++ t))
      ∧ (Text.lines (document root (some (head ++ String.join (notes.map ("\n" ++ ·)))))).map
          Text.trim = declaration :: (comment ++ root.lines) := by
  -- what closes the comment: a blank comes first where the text ends in a dash
  obtain ⟨tail, htail, hclosed⟩ : ∃ tail, Text.OneLine tail ∧
      sanitize (head ++ String.join (notes.map ("\n" ++ ·))) ++ " -->"
        = spread (head ++ String.join (notes.map ("\n" ++ ·))) ++ tail := by
    rcases sanitize_eq_or (head ++ String.join (notes.map ("\n" ++ ·))) with h | h
    · exact ⟨" -->", by decide, by rw [h]⟩
    · exact ⟨" " ++ " -->", by decide, by rw [h, String.append_assoc]⟩
  have hls : ∀ m ∈ ("<!-- " ++ spread head) :: notes.map spread, Text.OneLine m := by
    intro m hm
    rcases List.mem_cons.1 hm with rfl | hm
    · exact Text.oneLine_append.2 ⟨by decide, oneLine_spread hhead⟩
    · obtain ⟨n, hn, rfl⟩ := List.mem_map.1 hm
      exact oneLine_spread (hnotes n hn)
  obtain ⟨comment, hcomment, hcommentText⟩ := exists_lines_append hls htail
  obtain ⟨raws, hraws, honeLine, hrootText⟩ := prints_write hroot 0
  have htext : document root (some (head ++ String.join (notes.map ("\n" ++ ·))))
      = Text.unlines (declaration :: (comment ++ raws)) := by
    have hcommentLines : "\n<!-- " ++ sanitize (head ++ String.join (notes.map ("\n" ++ ·))) ++ " -->"
        = String.join (comment.map ("\n" ++ ·)) := by
      rw [← hcommentText, String.append_assoc, hclosed, spread_append_lines]
      simp only [← String.append_assoc]
      rfl
    rw [← Text.join_eq_unlines, List.map_append, String.join_append, ← hcommentLines, ← hrootText,
      document, Option.toList_some, List.map_singleton, String.join_cons, String.join_nil,
      String.append_empty]
    simp only [String.append_assoc]
  refine ⟨comment.map Text.trim, ?_, ?_⟩
  · intro l hl
    obtain ⟨r, hr, rfl⟩ := List.mem_map.1 hl
    obtain ⟨-, m, hm, t, rfl⟩ := hcomment r hr
    exact ⟨m, hm, t, rfl⟩
  · have honeLines : ∀ l ∈ declaration :: (comment ++ raws), Text.OneLine l := by
      intro l hl
      rcases List.mem_cons.1 hl with rfl | hl
      · decide
      · rcases List.mem_append.1 hl with hl | hl
        · exact (hcomment l hl).1
        · exact honeLine l hl
    rw [htext, Text.lines_unlines_map honeLines, List.map_map]
    have hdeclaration : Text.trim declaration = declaration := by decide +kernel
    simp [Function.comp_def, hraws, hdeclaration]

end Xml

end FirewallConfig
