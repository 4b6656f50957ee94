import FirewallConfig.FortiOs.Writer.Setting
import FirewallConfig.Proofs.FortiOs.Word

/-!
# Proofs/FortiOs/Quoting — splitting a line undoes the quotes

The splitter passes over one written word at a time (`splitWords_append`), and then over a whole
line of them (`splitWords_unwords`): between quotes it keeps everything, the blanks, the quotes and
the backslashes of the text included, and an empty text is still a word.  A secret is written in one
of two shapes, and in both its words joined by blanks are the secret (`unwords_splitWords_secret`).
-/

namespace FirewallConfig.FortiOs

/-! ## Words on a line -/

/-- **A word that a blank ends is read as it is**, whatever follows the blank. -/
theorem splitWords_append {v : Value} (hv : v.IsWord) (rest : String) :
    splitWords (v.spelling ++ " " ++ rest) = v.text :: splitWords rest := by
  have hlist : (v.spelling ++ " " ++ rest).toList = v.spelling.toList ++ ' ' :: rest.toList := by
    rw [String.toList_append, String.toList_append, List.append_assoc]
    rfl
  have hword := Value.wordsFrom_spelling_append hv (endsWord_blank rest.toList)
  rw [splitWords, hlist, hword, wordsFrom_blank (by decide), List.map_cons, String.ofList_toList,
    splitWords]

/-- A word at the beginning of a line is read as it is. -/
theorem splitWords_unwords_cons {v : Value} (hv : v.IsWord) (ts : List String) :
    splitWords (Text.unwords (v.spelling :: ts)) = v.text :: splitWords (Text.unwords ts) := by
  cases ts with
  | nil =>
    have hword := Value.wordsFrom_spelling_append hv endsWord_nil
    rw [List.append_nil] at hword
    rw [Text.unwords, String.intercalate_singleton, splitWords, hword, List.map_cons,
      String.ofList_toList]
    rfl
  | cons t ts =>
    rw [Text.unwords, String.intercalate_cons_cons, ← Text.unwords, splitWords_append hv]

/-- **The words of a line are what its values say.** -/
theorem splitWords_unwords {vs : List Value} (hvs : ∀ v ∈ vs, v.IsWord) :
    splitWords (Text.unwords (vs.map Value.spelling)) = vs.map Value.text := by
  induction vs with
  | nil =>
    rw [List.map_nil, Text.unwords, String.intercalate_nil]
    rfl
  | cons v vs ih =>
    obtain ⟨hv, hvs⟩ := List.forall_mem_cons.1 hvs
    rw [List.map_cons, splitWords_unwords_cons hv, ih hvs, List.map_cons]

/-- Any texts at all are read back from between their quotes. -/
theorem splitWords_unwords_quoted (ts : List String) :
    splitWords (Text.unwords (ts.map quoted)) = ts := by
  have hwords : ∀ v ∈ ts.map Value.quoted, v.IsWord := by
    intro v hv
    obtain ⟨t, -, rfl⟩ := List.mem_map.1 hv
    exact trivial
  have hread := splitWords_unwords hwords
  rw [List.map_map, List.map_map] at hread
  exact hread.trans (List.map_id ts)

/-- The blanks in front of a line say nothing. -/
theorem splitWords_indent (level : Nat) (ts : List String) :
    splitWords (indent level ts) = splitWords (Text.unwords ts) := by
  rw [indent, splitWords, String.toList_append, Text.toList_blanks, splitWords]
  induction 4 * level with
  | zero => rfl
  | succ k ih => rw [List.replicate_succ, List.cons_append, wordsFrom_blank (by decide), ih]

/-- The line of a setting says the key, and then what its values say. -/
theorem splitWords_line {s : Setting Value} (hkey : s.key.IsWord) (level : Nat) :
    splitWords (s.line level)
      = "set" :: s.key.text :: splitWords (Text.unwords (s.values.map Value.spelling)) := by
  have hset : (Value.bare "set").IsWord := by decide
  rw [Setting.line, splitWords_indent]
  exact (splitWords_unwords_cons hset _).trans
    (congrArg _ (splitWords_unwords_cons hkey _))

/-! ## Secrets -/

/-- A secret that stands bare is a mark and one word more; any other is one quoted word. -/
theorem secret_eq (s : String) :
    (∃ blob : String, IsBareWord blob.toList ∧ s = "ENC " ++ blob ∧ Value.secret s = .bare s)
      ∨ Value.secret s = .quoted s := by
  rw [Value.secret]
  split
  · next blob hblob =>
    split
    · exact .inr rfl
    · next hword =>
      refine .inl ⟨String.ofList blob, ?_, ?_, rfl⟩
      · simpa [IsBareWord] using hword
      · rw [← String.toList_inj, Chars.withoutPrefix_eq_some_iff.1 hblob, String.toList_append]
        exact congrArg _ String.toList_ofList.symm
  · exact .inr rfl

/-- **The words of a secret, joined by blanks, are the secret**, whichever shape it has. -/
theorem unwords_splitWords_secret (s : String) :
    Text.unwords (splitWords (Value.secret s).spelling) = s := by
  obtain ⟨blob, hblob, hs, hsecret⟩ | hsecret := secret_eq s
  · have hwords : ∀ v ∈ [Value.bare "ENC", Value.bare blob], v.IsWord :=
      List.forall_mem_cons.2 ⟨by decide, List.forall_mem_singleton.2 hblob⟩
    have hline : s = Text.unwords ["ENC", blob] := by
      rw [hs, Text.unwords, String.intercalate_cons_cons, String.intercalate_singleton]
      rfl
    rw [hsecret, Value.spelling, hline]
    exact congrArg _ (splitWords_unwords hwords)
  · have hread := splitWords_unwords_quoted [s]
    rw [List.map_singleton, Text.unwords, String.intercalate_singleton] at hread
    rw [hsecret, Value.spelling, hread, Text.unwords, String.intercalate_singleton]

/-! ## Settings -/

/-- What stands behind a key is read as if it stood alone. -/
theorem splitWords_set_append {key : String} (hkey : IsBareWord key.toList) (rest : String) :
    splitWords ("set " ++ key ++ " " ++ rest) = "set" :: key :: splitWords rest := by
  have hset : (Value.bare "set").IsWord := by decide
  have hword : (Value.bare key).IsWord := hkey
  have hline : "set " ++ key ++ " " ++ rest = "set" ++ " " ++ (key ++ " " ++ rest) := by
    simp only [String.append_assoc]
    rfl
  calc
    splitWords ("set " ++ key ++ " " ++ rest) = splitWords ("set" ++ " " ++ (key ++ " " ++ rest)) :=
      congrArg _ hline
    _ = "set" :: splitWords (key ++ " " ++ rest) := splitWords_append hset _
    _ = "set" :: key :: splitWords rest := congrArg _ (splitWords_append hword _)

/-- **Splitting undoes the quotes.**  Quoted values are the words behind the key, one word for each,
where they are written next to each other and on the line of a setting at any level; and the words
behind the key of a secret, joined by blanks, are the secret. -/
theorem splitWords_set {key : String} (hkey : IsBareWord key.toList) :
    (∀ vs : List String,
      splitWords ("set " ++ key ++ " " ++ Text.unwords (vs.map quoted)) = "set" :: key :: vs
        ∧ ∀ level, splitWords ((quotedSetting key vs).line level) = "set" :: key :: vs)
      ∧ ∀ v : String, ∃ ws, Text.unwords ws = v
        ∧ splitWords ("set " ++ key ++ " " ++ (Value.secret v).spelling) = "set" :: key :: ws
        ∧ ∀ s ∈ secretSetting? key (some v), ∀ level,
          splitWords (s.line level) = "set" :: key :: ws := by
  have hword : (Value.bare key).IsWord := hkey
  refine ⟨fun vs => ⟨?_, fun level => ?_⟩, fun v => ?_⟩
  · rw [splitWords_set_append hkey, splitWords_unwords_quoted]
  · have hvalues : (quotedSetting key vs).values.map Value.spelling = vs.map quoted :=
      List.map_map
    have hline := splitWords_line (s := quotedSetting key vs) hword level
    rwa [hvalues, splitWords_unwords_quoted] at hline
  · refine ⟨_, unwords_splitWords_secret v, splitWords_set_append hkey _, fun s hs level => ?_⟩
    rw [secretSetting?, Option.toList_some, List.map_singleton, List.mem_singleton] at hs
    subst hs
    rw [splitWords_line hword, List.map_singleton, Text.unwords, String.intercalate_singleton]
    rfl

/-- Quotes, backslashes, blanks and empty texts are kept; an encrypted secret is two words. -/
theorem splitWords_set_someText :
    IsBareWord "member".toList
      ∧ splitWords ("set " ++ "member" ++ " "
          ++ Text.unwords (["", "a \"b\" \\", " \t "].map quoted))
        = ["set", "member", "", "a \"b\" \\", " \t "]
      ∧ ∃ ws, Text.unwords ws = "ENC AbC=="
        ∧ ∀ s ∈ secretSetting? "member" (some "ENC AbC=="), ∀ level,
          splitWords (s.line level) = "set" :: "member" :: ws := by
  have hkey : IsBareWord "member".toList := by decide
  obtain ⟨hquoted, hsecret⟩ := splitWords_set hkey
  obtain ⟨ws, hws, -, hline⟩ := hsecret "ENC AbC=="
  exact ⟨hkey, (hquoted ["", "a \"b\" \\", " \t "]).1, ws, hws, hline⟩

end FirewallConfig.FortiOs
