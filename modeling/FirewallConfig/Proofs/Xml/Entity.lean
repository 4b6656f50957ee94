import FirewallConfig.Proofs.Text.OneLine
import FirewallConfig.Xml.Entity

/-!
# Proofs/Xml/Entity — what is escaped is read back

The spelling of a text holds none of the characters that markup is made of, and reading its entities
gives the text again, one that looks like an entity itself included.
-/

namespace FirewallConfig.Xml

@[simp] theorem escapeChars_nil : escapeChars [] = [] := rfl

theorem escapeChars_cons (c : Char) (cs : List Char) :
    escapeChars (c :: cs) = escapeChar c ++ escapeChars cs := rfl

/-- Only the ampersand begins an entity. -/
theorem unescapeChars_cons {c : Char} (hc : c ≠ '&') (cs : List Char) :
    unescapeChars (c :: cs) = c :: unescapeChars cs := by
  rw [unescapeChars] <;> rintro _ rfl <;> exact absurd rfl hc

/-- **Reading the entities undoes the spelling.** -/
theorem unescapeChars_escapeChars (cs : List Char) : unescapeChars (escapeChars cs) = cs := by
  induction cs with
  | nil => rfl
  | cons c cs ih =>
    rw [escapeChars_cons]
    unfold escapeChar
    split
    · simp only [List.cons_append, List.nil_append, unescapeChars, ih]
    · simp only [List.cons_append, List.nil_append, unescapeChars, ih]
    · simp only [List.cons_append, List.nil_append, unescapeChars, ih]
    · simp only [List.cons_append, List.nil_append, unescapeChars, ih]
    · simp only [List.cons_append, List.nil_append, unescapeChars, ih]
    · next hamp _ _ _ _ =>
      rw [List.cons_append, List.nil_append, unescapeChars_cons hamp, ih]

/-- The characters that entities are spelled with. -/
def entityChars : List Char := ['&', 'a', 'm', 'p', 'l', 't', 'g', 'o', 's', 'q', 'u', ';']

/-- A character of a spelling is one of the text, or belongs to an entity. -/
theorem mem_escapeChar {c d : Char} (hd : d ∈ escapeChar c) :
    (d = c ∧ d ∉ ['&', '<', '>', '\'', '"']) ∨ d ∈ entityChars := by
  unfold escapeChar at hd
  split at hd
  case h_6 =>
    left
    rw [List.mem_singleton.1 hd]
    exact ⟨rfl, by simp_all⟩
  all_goals
    right
    revert d
    simp [entityChars]

theorem mem_escapeChars {d : Char} {cs : List Char} (hd : d ∈ escapeChars cs) :
    (d ∈ cs ∧ d ∉ ['&', '<', '>', '\'', '"']) ∨ d ∈ entityChars := by
  obtain ⟨c, hc, hd⟩ := List.mem_flatMap.1 hd
  rcases mem_escapeChar hd with ⟨rfl, h⟩ | h
  · exact Or.inl ⟨hc, h⟩
  · exact Or.inr h

/-- No character of markup is in a spelling. -/
theorem not_mem_escapeChars {d : Char} (hd : d ∈ ['<', '>', '\'', '"']) (cs : List Char) :
    d ∉ escapeChars cs := by
  have hplain : ∀ d ∈ ['<', '>', '\'', '"'], d ∉ entityChars := by simp [entityChars]
  intro h
  rcases mem_escapeChars h with ⟨-, h⟩ | h
  · exact h (List.mem_cons_of_mem _ hd)
  · exact hplain d hd h

/-! ## Texts -/

@[simp] theorem toList_escape (s : String) : (escape s).toList = escapeChars s.toList :=
  String.toList_ofList

/-- **Reading the entities of a text undoes its spelling.** -/
@[simp] theorem unescape_escape (s : String) : unescape (escape s) = s := by
  rw [unescape, toList_escape, unescapeChars_escapeChars, String.ofList_toList]

theorem oneLine_escape {s : String} (hs : Text.OneLine s) : Text.OneLine (escape s) := by
  intro h
  rw [toList_escape] at h
  rcases mem_escapeChars h with ⟨h, -⟩ | h
  · exact hs h
  · revert h
    decide

/-- What entities stand for is no line feed. -/
theorem oneLine_unescape {s : String} (hs : Text.OneLine s) : Text.OneLine (unescape s) := by
  rw [unescape, Text.oneLine_ofList]
  rw [Text.OneLine] at hs
  generalize s.toList = cs at hs
  fun_induction unescapeChars cs <;> simp_all

end FirewallConfig.Xml
