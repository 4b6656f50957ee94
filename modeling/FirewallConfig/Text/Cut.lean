import FirewallConfig.Text.Blank

/-!
# Text/Cut — cutting a text at a character or at a fixed piece

`cut` splits at the first place where a character stands, `pieces` at every place; `withoutPrefix`
and `withoutSuffix` take off a fixed beginning or end, and say `none` where it is not there.
-/

namespace FirewallConfig

namespace Chars

/-- What stands before and after the first `c`; `none` if there is no `c`. -/
def cut (c : Char) : List Char → Option (List Char × List Char)
  | [] => none
  | d :: ds => if d = c then some ([], ds) else (cut c ds).map fun (a, b) => (d :: a, b)

/-- What follows the beginning `p`; `none` if `cs` does not begin with `p`. -/
def withoutPrefix : List Char → List Char → Option (List Char)
  | [], cs => some cs
  | _ :: _, [] => none
  | p :: ps, c :: cs => if p = c then withoutPrefix ps cs else none

/-- What precedes the end `p`; `none` if `cs` does not end with `p`. -/
def withoutSuffix (p cs : List Char) : Option (List Char) :=
  (withoutPrefix p.reverse cs.reverse).map List.reverse

/-- What stands before and after the first occurrence of `p`; `none` if there is none. -/
def cutAt (p : List Char) : List Char → Option (List Char × List Char)
  | [] => if p.isEmpty then some ([], []) else none
  | c :: cs =>
    match withoutPrefix p (c :: cs) with
    | some rest => some ([], rest)
    | none => (cutAt p cs).map fun (a, b) => (c :: a, b)

/-- The number of places where `p` begins in `cs`. -/
def occurrences (p : List Char) : List Char → Nat
  | [] => 0
  | c :: cs => (if (withoutPrefix p (c :: cs)).isSome then 1 else 0) + occurrences p cs

@[simp] theorem withoutPrefix_append (p cs : List Char) : withoutPrefix p (p ++ cs) = some cs := by
  induction p with
  | nil => rfl
  | cons c ps ih => simp [withoutPrefix, ih]

/-- **A beginning is taken off exactly where it stands.** -/
theorem withoutPrefix_eq_some_iff {p cs rest : List Char} :
    withoutPrefix p cs = some rest ↔ cs = p ++ rest := by
  induction p generalizing cs with
  | nil => simp [withoutPrefix]
  | cons c ps ih =>
    cases cs with
    | nil => simp [withoutPrefix]
    | cons d ds =>
      by_cases h : c = d
      · subst h; simp [withoutPrefix, ih]
      · simp [withoutPrefix, h, Ne.symm h]

theorem withoutSuffix_eq_some_iff {p cs rest : List Char} :
    withoutSuffix p cs = some rest ↔ cs = rest ++ p := by
  rw [withoutSuffix, Option.map_eq_some_iff]
  constructor
  · rintro ⟨r, hr, rfl⟩
    rw [← List.reverse_reverse cs, withoutPrefix_eq_some_iff.1 hr]
    simp
  · rintro rfl
    exact ⟨rest.reverse, by simp, by simp⟩

/-- **A cut loses nothing**: what stands before, the piece, and what stands after make the text. -/
theorem eq_append_of_cutAt {p cs a b : List Char} (h : cutAt p cs = some (a, b)) :
    cs = a ++ (p ++ b) := by
  induction cs generalizing a with
  | nil =>
    cases p <;> simp_all [cutAt]
  | cons c cs ih =>
    rw [cutAt] at h
    split at h
    · next rest hr =>
      cases h
      rw [withoutPrefix_eq_some_iff.1 hr, List.nil_append]
    · obtain ⟨⟨a', b'⟩, hab, heq⟩ := Option.map_eq_some_iff.1 h
      cases heq
      rw [ih hab, List.cons_append]

/-- The pieces between the places where `p` stands, from the left and without overlap. -/
def piecesAt (p cs : List Char) : List (List Char) :=
  if _hp : p = [] then [cs]
  else
    match _h : cutAt p cs with
    | none => [cs]
    | some (a, b) => a :: piecesAt p b
termination_by cs.length
decreasing_by
  have := List.length_pos_iff.2 _hp
  rw [eq_append_of_cutAt _h]
  simp only [List.length_append]
  omega

end Chars

namespace Text

/-- What stands before and after the first `c`; `none` if there is no `c`. -/
def cut (c : Char) (s : String) : Option (String × String) :=
  (Chars.cut c s.toList).map fun (a, b) => (String.ofList a, String.ofList b)

/-- The pieces between the places where `c` stands; one more than there are places. -/
def pieces (c : Char) (s : String) : List String := (s.toList.splitOn c).map String.ofList

/-- The two ends of a range `a-b`; a text without a dash is both ends itself. -/
def rangeEnds (s : String) : String × String := (cut '-' s).getD (s, s)

/-- What follows the beginning `p`. -/
def withoutPrefix (p s : String) : Option String :=
  (Chars.withoutPrefix p.toList s.toList).map String.ofList

/-- What precedes the end `p`. -/
def withoutSuffix (p s : String) : Option String :=
  (Chars.withoutSuffix p.toList s.toList).map String.ofList

/-- The text begins with `p`. -/
def beginsWith (p s : String) : Bool := (withoutPrefix p s).isSome

/-- The text ends with `p`. -/
def endsIn (p s : String) : Bool := (withoutSuffix p s).isSome

/-- The text begins with a blank. -/
def isIndented (s : String) : Bool := s.toList.head?.any isBlank

/-- What stands before and after the first occurrence of `p`. -/
def cutAt (p s : String) : Option (String × String) :=
  (Chars.cutAt p.toList s.toList).map fun (a, b) => (String.ofList a, String.ofList b)

/-- The pieces between the places where `p` stands, from the left and without overlap. -/
def piecesAt (p s : String) : List String :=
  (Chars.piecesAt p.toList s.toList).map String.ofList

/-- The number of places where `p` begins in the text. -/
def occurrences (p s : String) : Nat := Chars.occurrences p.toList s.toList

/-- The text holds `p`. -/
def holds (p s : String) : Bool := (cutAt p s).isSome

/-- The texts with a blank between neighbours. -/
def unwords (ws : List String) : String := " ".intercalate ws

end Text

end FirewallConfig
