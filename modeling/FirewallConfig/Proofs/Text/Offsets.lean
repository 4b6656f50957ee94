import FirewallConfig.Proofs.Checked
import FirewallConfig.Proofs.Text.Alignment
import FirewallConfig.Proofs.Text.Cut

/-!
# Proofs/Text/Offsets — places in a text, in bytes

A place in a text may be given as the number of bytes before it.  A character takes up to four bytes,
and a text can be cut only where one ends: `drop` and `take` stop with a fault elsewhere, which is
just where the place is no valid position of the text (`isValid_iff`).  What a search finds is
always such a place, and so cutting there is the same as cutting the list of characters.
-/

namespace FirewallConfig

namespace Offset

/-- The number of bytes of some characters. -/
def bytes : List Char → Nat
  | [] => 0
  | c :: cs => c.utf8Size + bytes cs

@[simp] theorem bytes_nil : bytes [] = 0 := rfl

@[simp] theorem bytes_cons (c : Char) (cs : List Char) :
    bytes (c :: cs) = c.utf8Size + bytes cs := rfl

@[simp] theorem bytes_append (as bs : List Char) : bytes (as ++ bs) = bytes as + bytes bs := by
  induction as with
  | nil => exact (Nat.zero_add _).symm
  | cons a as ih => rw [List.cons_append, bytes, bytes, ih, Nat.add_assoc]

/-- The characters from a place on. -/
def drop : Nat → List Char → Checked (List Char)
  | 0, cs => .ok cs
  | _ + 1, [] => .error .slice
  | k + 1, c :: cs =>
    if c.utf8Size ≤ k + 1 then drop (k + 1 - c.utf8Size) cs else .error .boundary

/-- The characters up to a place. -/
def take : Nat → List Char → Checked (List Char)
  | 0, _ => .ok []
  | _ + 1, [] => .error .slice
  | k + 1, c :: cs =>
    if c.utf8Size ≤ k + 1 then (c :: ·) <$> take (k + 1 - c.utf8Size) cs else .error .boundary

/-- The characters from one place up to another one. -/
def slice (first last : Nat) (cs : List Char) : Checked (List Char) := take last cs >>= drop first

theorem drop_cons (c : Char) (k : Nat) (cs : List Char) :
    drop (c.utf8Size + k) (c :: cs) = drop k cs := by
  obtain ⟨n, hn⟩ := Nat.exists_eq_add_of_le' (Nat.add_pos_left c.utf8Size_pos k)
  rw [hn, drop, if_pos (by omega)]
  congr 1
  omega

theorem take_cons (c : Char) (k : Nat) (cs : List Char) :
    take (c.utf8Size + k) (c :: cs) = (c :: ·) <$> take k cs := by
  obtain ⟨n, hn⟩ := Nat.exists_eq_add_of_le' (Nat.add_pos_left c.utf8Size_pos k)
  rw [hn, take, if_pos (by omega)]
  congr 2
  omega

theorem drop_append (as bs : List Char) : drop (bytes as) (as ++ bs) = .ok bs := by
  induction as with
  | nil => rw [bytes_nil, drop, List.nil_append]
  | cons a as ih => rw [bytes_cons, List.cons_append, drop_cons, ih]

theorem take_append (as bs : List Char) : take (bytes as) (as ++ bs) = .ok as := by
  induction as with
  | nil => rw [bytes_nil, take]
  | cons a as ih => rw [bytes_cons, List.cons_append, take_cons, ih, Checked.map_ok]

theorem slice_append (as bs cs : List Char) :
    slice (bytes as) (bytes as + bytes bs) (as ++ (bs ++ cs)) = .ok bs := by
  rw [slice, ← bytes_append, ← List.append_assoc, take_append]
  exact drop_append as bs

/-- **A text can be cut** just where some of its characters end. -/
theorem drop_eq_ok_iff {k : Nat} {cs ds : List Char} :
    drop k cs = .ok ds ↔ ∃ as, cs = as ++ ds ∧ bytes as = k := by
  constructor
  · intro h
    fun_induction drop k cs with
    | case1 cs => exact ⟨[], by simpa using h, rfl⟩
    | case2 k => cases h
    | case3 k c cs hle ih =>
      obtain ⟨as, rfl, has⟩ := ih h
      exact ⟨c :: as, rfl, by rw [bytes_cons, has]; omega⟩
    | case4 k c cs hlt => cases h
  · rintro ⟨as, rfl, rfl⟩
    exact drop_append as ds

theorem bytes_toList (s : String) : bytes s.toList = s.utf8ByteSize := by
  induction s using String.push_induction with
  | empty => rfl
  | push s c ih => simp [ih]

/-- **The places where a text can be cut** are the valid positions of the text. -/
theorem isValid_iff (s : String) (k : Nat) :
    String.Pos.Raw.IsValid s ⟨k⟩ ↔ ∃ ds, drop k s.toList = .ok ds := by
  rw [String.Pos.Raw.isValid_iff_exists_append]
  constructor
  · rintro ⟨t, u, rfl, hk⟩
    refine ⟨u.toList, drop_eq_ok_iff.2 ⟨t.toList, String.toList_append, ?_⟩⟩
    rw [bytes_toList]
    exact (congrArg String.Pos.Raw.byteIdx hk).symm
  · rintro ⟨ds, h⟩
    obtain ⟨as, has, hk⟩ := drop_eq_ok_iff.1 h
    have hbytes : bytes as = (String.ofList as).utf8ByteSize := by
      rw [← bytes_toList, String.toList_ofList]
    refine ⟨String.ofList as, String.ofList ds, ?_, String.Pos.Raw.ext (hk.symm.trans hbytes)⟩
    rw [← String.ofList_append, ← has, String.ofList_toList]

/-- A letter of two bytes cannot be cut in the middle. -/
example : Offset.drop 1 "é".toList = .error .boundary ∧ Offset.drop 2 "é".toList = .ok [] :=
  ⟨rfl, rfl⟩

/-! ## Searching -/

/-- The place of the first character that `p` holds of. -/
def find (p : Char → Bool) : List Char → Option Nat
  | [] => none
  | c :: cs => if p c then some 0 else (find p cs).map (c.utf8Size + ·)

/-- The place where a piece stands first. -/
def findPiece (p : List Char) : List Char → Option Nat
  | [] => if p.isEmpty then some 0 else none
  | c :: cs =>
    if (Chars.withoutPrefix p (c :: cs)).isSome then some 0
    else (findPiece p cs).map (c.utf8Size + ·)

theorem find_eq_map_cut (c : Char) (cs : List Char) :
    find (· == c) cs = (Chars.cut c cs).map fun (a, _) => bytes a := by
  induction cs with
  | nil => rfl
  | cons d ds ih =>
    rw [find, Chars.cut, ih]
    by_cases h : d = c
    · simp [h]
    · rw [if_neg (by simpa using h), if_neg h, Option.map_map, Option.map_map]
      congr 1

theorem findPiece_eq_map_cutAt (p cs : List Char) :
    findPiece p cs = (Chars.cutAt p cs).map fun (a, _) => bytes a := by
  induction cs with
  | nil =>
    rw [findPiece, Chars.cutAt]
    split <;> rfl
  | cons d ds ih =>
    rw [findPiece, Chars.cutAt, ih]
    cases Chars.withoutPrefix p (d :: ds) with
    | some rest => rfl
    | none =>
      rw [Option.isSome_none, if_neg Bool.false_ne_true, Option.map_map, Option.map_map]
      congr 1

/-- **What is found is a place where the text can be cut**: from there on stands what is left from
the first such character on, or there is none. -/
theorem find_isBlank_cases (cs : List Char) :
    (find isBlank cs = none ∧ Chars.afterWord cs = [])
      ∨ ∃ place, find isBlank cs = some place ∧ drop place cs = .ok (Chars.afterWord cs) := by
  induction cs with
  | nil => exact .inl ⟨rfl, rfl⟩
  | cons c cs ih =>
    rw [find, Chars.afterWord, List.dropWhile_cons]
    cases hc : isBlank c with
    | true => exact .inr ⟨0, rfl, rfl⟩
    | false =>
      rcases ih with ⟨hnone, hafter⟩ | ⟨place, hplace, hdrop⟩
      · exact .inl ⟨by rw [hnone]; rfl, hafter⟩
      · exact .inr ⟨c.utf8Size + place, by rw [hplace]; rfl, by rw [drop_cons, hdrop]; rfl⟩

end Offset

namespace Text

/-! ## What follows the first words -/

/-- What follows `k` words of a text that does not begin with a blank, by the places of the
blanks. -/
def afterWordsAt : Nat → List Char → Checked (List Char)
  | 0, cs => .ok (Chars.trimEnd cs)
  | k + 1, cs =>
    match Offset.find isBlank cs with
    | some place => do afterWordsAt k (Chars.trimStart (← Offset.drop place cs))
    | none => .ok []

/-- The text that follows the first `k` words of a line, by the places of the blanks. -/
def textAfterAt (k : Nat) (s : String) : Checked String :=
  String.ofList <$> afterWordsAt k (Chars.trimStart s.toList)

theorem afterWordsAt_trimStart (k : Nat) (cs : List Char) :
    afterWordsAt k (Chars.trimStart cs) = .ok (Chars.trimEnd (Chars.skipWords k cs)) := by
  induction k generalizing cs with
  | zero => rfl
  | succ k ih =>
    rw [afterWordsAt, Chars.skipWords]
    rcases Offset.find_isBlank_cases (Chars.trimStart cs) with
      ⟨hnone, hafter⟩ | ⟨place, hplace, hdrop⟩
    · rw [hnone, hafter, Chars.skipWords_nil]
      rfl
    · rw [hplace]
      simp only [hdrop, Checked.ok_bind]
      exact ih _

/-- **The blanks of a line are at places where it can be cut.** -/
theorem textAfterAt_eq (k : Nat) (s : String) : textAfterAt k s = .ok (textAfter k s) := by
  rw [textAfterAt, afterWordsAt_trimStart, Checked.map_ok, textAfter]

end Text

end FirewallConfig
