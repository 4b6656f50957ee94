import FirewallConfig.Proofs.Cisco.Lines

/-!
# Proofs/Cisco/Header — which of the lines that are written are headers

A header is a line that stands alone and begins with two words, which a name follows.  The parts of a
written text hold the headers of their own kind only: objects and translation rules those of objects,
groups those of groups, and services none whose second word is another.  A line below a header begins
with a blank and a keyword.
-/

namespace FirewallConfig.Cisco

open Text

/-- The line stands alone and begins with two words, which a name follows. -/
def IsHeader (first second raw : String) : Prop :=
  isIndented raw = false ∧ ∃ name rest, words raw = first :: second :: name :: rest

/-- A line that begins with other words is another header. -/
theorem not_isHeader_of_words {first second first' second' : String} (hfirst : IsWord first')
    (hsecond : IsWord second') (hother : first' ≠ first ∨ second' ≠ second) (text : String) :
    ¬ IsHeader first second (first' ++ " " ++ second' ++ " " ++ text) := by
  rintro ⟨-, name, rest, hwords⟩
  rw [words_append, words_pair hfirst hsecond] at hwords
  obtain ⟨h, hrest⟩ := List.cons.inj hwords
  rcases hother with hne | hne
  · exact hne h
  · exact hne (List.cons.inj hrest).1

theorem objectHeader_eq (name : String) :
    s!"object network {name}" = "object" ++ " " ++ "network" ++ " " ++ name := by
  apply String.toList_inj.1
  simp

theorem groupHeader_eq (name : String) :
    s!"object-group network {name}" = "object-group" ++ " " ++ "network" ++ " " ++ name := by
  apply String.toList_inj.1
  simp

theorem serviceHeader_eq (name : String) :
    s!"object service {name}" = "object" ++ " " ++ "service" ++ " " ++ name := by
  apply String.toList_inj.1
  simp

theorem serviceGroupHeader_eq (name protocol : String) : s!"object-group service {name} {protocol}"
    = "object-group" ++ " " ++ "service" ++ " " ++ (name ++ " " ++ protocol) := by
  apply String.toList_inj.1
  simp

/-! ## Lines below a header -/

/-- The words of a line below a header are its keyword and what follows. -/
theorem words_below {keyword : String} (hkeyword : IsWord keyword) (text : String) :
    words (" " ++ keyword ++ " " ++ text) = keyword :: words text := by
  have hkeywords : words (" " ++ keyword) = [keyword] :=
    (words_append "" keyword).trans hkeyword.words_eq
  rw [words_append, hkeywords]
  rfl

theorem isIndented_below (keyword text : String) :
    isIndented (" " ++ keyword ++ " " ++ text) = true := by
  rw [isIndented, String.append_assoc, String.append_assoc, head?_toList_append (by decide)]
  decide

theorem descriptionLine_eq (d : String) :
    " description " ++ d = " " ++ "description" ++ " " ++ d := rfl

/-- A description is read back without the blanks at its ends. -/
theorem after_descriptionLine (d : String) :
    (Line.ofText (" " ++ "description" ++ " " ++ d)).after 1 = trim d := by
  have hblank : textAfter 1 (" " ++ "description" ++ " " ++ d)
      = textAfter 1 ("description" ++ " " ++ d) := by
    have hlist : (" " ++ "description" ++ " " ++ d).toList
        = ' ' :: ("description" ++ " " ++ d).toList := by simp
    rw [textAfter, hlist, Chars.skipWords_cons (by decide), textAfter]
  refine (textAfter_trim 1 _).trans (hblank.trans ?_)
  rw [textAfter_append (by decide), textAfter_zero]

/-! ## The lines of a part -/

/-- The property holds of all lines that are indented or begin with a bang, and so of all lines of a
part but the ones that stand at its head. -/
structure HoldsBelow (P : String → Prop) : Prop where
  indented : ∀ {raw : String}, raw.toList.head? = some ' ' → P raw
  bang : ∀ {raw : String}, raw.toList.head? = some '!' → P raw

namespace HoldsBelow

variable {P : String → Prop} (h : HoldsBelow P)
include h

theorem indented_append {s : String} (hs : s.toList.head? = some ' ' ∧ s ≠ "") (t : String) :
    P (s ++ t) := h.indented ((head?_toList_append hs.2 t).trans hs.1)

theorem bang_append {s : String} (hs : s.toList.head? = some '!' ∧ s ≠ "") (t : String) :
    P (s ++ t) := h.bang ((head?_toList_append hs.2 t).trans hs.1)

theorem of_notConverted (what : String) : P (notConverted what) := h.bang_append (by decide) what

theorem forall_mem_descriptionLines (description : Option String) :
    ∀ l ∈ descriptionLines description, P l :=
  List.forall_mem_map.2 fun d _ => h.indented_append (by decide) d

theorem of_memberLine (c : Config) (member : String) : P (memberLine c member) := by
  unfold memberLine
  split
  · exact h.indented (by decide)
  · exact h.indented_append (by decide) _
  · simp only [String.append_assoc, toString_text]
    exact h.indented_append (by decide) _
  · split <;> exact h.indented_append (by decide) _

theorem of_objectValueLine (o : AddressObject) : P (objectValueLine o) := by
  rw [objectValueLine]
  split
  · exact h.indented_append (by decide) _
  · simp only [String.append_assoc, toString_text]
    exact h.indented_append (by decide) _
  · simp only [String.append_assoc, toString_text]
    exact h.indented_append (by decide) _
  · exact h.indented_append (by decide) _

/-- The block of an object holds one header, that of an object. -/
theorem forall_mem_objectLines (hobject : ∀ name : String, P s!"object network {name}")
    (o : AddressObject) : ∀ l ∈ objectLines o, P l :=
  forall_mem_block (h.bang (by decide)) (List.forall_mem_append.2
    ⟨List.forall_mem_cons.2 ⟨hobject o.name, List.forall_mem_singleton.2 (h.of_objectValueLine o)⟩,
      h.forall_mem_descriptionLines o.description⟩)

/-- The block of a group holds one header, that of a group. -/
theorem forall_mem_groupLines (hgroup : ∀ name : String, P s!"object-group network {name}")
    (c : Config) (g : AddressGroup) : ∀ l ∈ groupLines c g, P l :=
  forall_mem_block (h.bang (by decide)) (List.forall_mem_append.2
    ⟨List.forall_mem_cons.2 ⟨hgroup g.name, h.forall_mem_descriptionLines g.description⟩,
      List.forall_mem_map.2 fun member _ => h.of_memberLine c member⟩)

/-- The block of a service holds one header, that of a service or of a group of them. -/
theorem forall_mem_serviceLines (hobject : ∀ name : String, P s!"object service {name}")
    (hgroup : ∀ name protocol : String, P s!"object-group service {name} {protocol}")
    (s : ServiceObject) : ∀ l ∈ serviceLines s, P l := by
  have hports : ∀ l ∈ servicePortLines s, P l := by
    unfold servicePortLines
    generalize (if s.protocol.isEmpty then "tcp" else s.protocol) = protocol
    dsimp only
    split
    · split
      · exact List.forall_mem_cons.2 ⟨hgroup s.name protocol,
          List.forall_mem_map.2 fun ports _ => h.indented_append (by decide) _⟩
      · refine List.forall_mem_cons.2 ⟨hobject s.name, List.forall_mem_singleton.2 ?_⟩
        simp only [String.append_assoc, toString_text]
        exact h.indented_append (by decide) _
    · exact List.forall_mem_cons.2 ⟨hobject s.name,
        List.forall_mem_singleton.2 (h.indented_append (by decide) _)⟩
  exact forall_mem_block (h.bang (by decide)) (List.forall_mem_append.2
    ⟨hports, h.forall_mem_descriptionLines s.description⟩)

theorem forall_mem_natObject (hobject : ∀ name : String, P s!"object network {name}")
    (rule : NatRule) (default : String) {value : String} (hvalue : value.toList.head? = some ' ') :
    ∀ l ∈ natObject rule default value, P l := by
  unfold natObject
  generalize rule.name.getD default = label
  have hheader : s!"object network nat-{label}" = "object network " ++ ("nat-" ++ label) := by
    apply String.toList_inj.1
    simp
  refine List.forall_mem_cons.2 ⟨?_, List.forall_mem_singleton.2 (h.indented hvalue)⟩
  rw [hheader]
  exact hobject _

/-- The lines of a translation rule are headers of objects, lines below them, and rules that stand
alone. -/
theorem forall_mem_natRuleLines (hobject : ∀ name : String, P s!"object network {name}")
    (hnat : ∀ text : String, P ("nat " ++ text)) (c : Config) (rule : NatRule) (source : String) :
    ∀ l ∈ natRuleLines c rule source, P l := by
  unfold natRuleLines
  generalize (rule.translated.or (c.pairedPool? rule)).getD "interface" = translated
  generalize nameifOr c anyText rule.sourceInterface = real
  generalize nameifOr c egress rule.interface = mapped
  dsimp only
  generalize s!"({real},{mapped})" = interfaces
  have hinObject : P s!" nat {interfaces} {rule.kind.text} {translated}" := by
    simp only [String.append_assoc, toString_text]
    exact h.indented_append (by decide) _
  refine List.forall_mem_append.2
    ⟨List.forall_mem_map.2 fun d _ => h.bang_append (by decide) d, ?_⟩
  split
  · refine List.forall_mem_singleton.2 ?_
    simp only [String.append_assoc, toString_text]
    exact hnat _
  · next address _ =>
    exact List.forall_mem_append.2 ⟨h.forall_mem_natObject hobject rule _
      (head?_toList_append (by decide) address), List.forall_mem_singleton.2 hinObject⟩
  · next n _ =>
    refine List.forall_mem_append.2 ⟨h.forall_mem_natObject hobject rule _ ?_,
      List.forall_mem_singleton.2 hinObject⟩
    simp only [String.append_assoc, toString_text]
    exact head?_toList_append (by decide) _
  · next name _ =>
    split
    · exact List.forall_mem_singleton.2 (h.of_notConverted _)
    · split
      · refine List.forall_mem_singleton.2 ?_
        simp only [String.append_assoc, toString_text]
        exact hnat _
      · exact List.forall_mem_cons.2 ⟨hobject name, List.forall_mem_singleton.2 hinObject⟩

theorem forall_mem_natLines (hobject : ∀ name : String, P s!"object network {name}")
    (hnat : ∀ text : String, P ("nat " ++ text)) (c : Config) (rule : NatRule) :
    ∀ l ∈ natLines c rule, P l := by
  have hbang : P "!" := h.bang (by decide)
  unfold natLines
  split
  · refine forall_mem_part hbang ?_
    rw [poolLines]
    split
    · exact List.forall_mem_nil _
    · exact List.forall_mem_singleton.2 (h.of_notConverted _)
  · exact forall_mem_block hbang (h.forall_mem_natRuleLines hobject hnat c rule _)
  · exact forall_mem_block hbang (List.forall_mem_singleton.2 (h.of_notConverted _))

end HoldsBelow

/-! ## Lines that begin otherwise -/

section First

variable {first second : String} (hfirst : first.toList.head? = some 'o')
include hfirst

theorem not_isHeader_of_first {raw : String} (h : raw.toList.head? ≠ some 'o') :
    ¬ IsHeader first second raw := by
  rintro ⟨hraw, name, rest, hwords⟩
  have hhead : (words raw).head? = some first := by rw [hwords]; rfl
  exact h ((head?_of_words hraw hhead).trans hfirst)

theorem not_isHeader_append {s : String} (hs : s.toList.head? ≠ some 'o' ∧ s ≠ "") (t : String) :
    ¬ IsHeader first second (s ++ t) :=
  not_isHeader_of_first hfirst (by rw [head?_toList_append hs.2]; exact hs.1)

theorem not_isHeader_bang : ¬ IsHeader first second "!" :=
  not_isHeader_of_first hfirst (by decide)

/-- No line below a header is one. -/
theorem holdsBelow_not_isHeader : HoldsBelow fun raw => ¬ IsHeader first second raw where
  indented hraw := not_isHeader_of_first hfirst (by rw [hraw]; decide)
  bang hraw := not_isHeader_of_first hfirst (by rw [hraw]; decide)

/-- The headers of services are of another second word. -/
theorem not_isHeader_serviceLines (hsecond : second ≠ "service") (s : ServiceObject) :
    ∀ l ∈ serviceLines s, ¬ IsHeader first second l := by
  refine (holdsBelow_not_isHeader hfirst).forall_mem_serviceLines (fun name => ?_)
    (fun name protocol => ?_) s
  · rw [serviceHeader_eq]
    exact not_isHeader_of_words (by decide) (by decide) (.inr hsecond.symm) _
  · rw [serviceGroupHeader_eq]
    exact not_isHeader_of_words (by decide) (by decide) (.inr hsecond.symm) _

/-- The block of a group opens nothing else. -/
theorem not_isHeader_groupLines (hother : "object-group" ≠ first ∨ "network" ≠ second) (c : Config)
    (g : AddressGroup) : ∀ l ∈ groupLines c g, ¬ IsHeader first second l := by
  refine (holdsBelow_not_isHeader hfirst).forall_mem_groupLines (fun name => ?_) c g
  rw [groupHeader_eq]
  exact not_isHeader_of_words (by decide) (by decide) hother _

omit hfirst in
/-- The header of an object opens nothing else. -/
theorem not_isHeader_objectHeader (hother : "object" ≠ first ∨ "network" ≠ second) (name : String) :
    ¬ IsHeader first second s!"object network {name}" := by
  rw [objectHeader_eq]
  exact not_isHeader_of_words (by decide) (by decide) hother _

theorem not_isHeader_objectLines (hother : "object" ≠ first ∨ "network" ≠ second)
    (o : AddressObject) : ∀ l ∈ objectLines o, ¬ IsHeader first second l :=
  (holdsBelow_not_isHeader hfirst).forall_mem_objectLines (not_isHeader_objectHeader hother) o

/-- The blocks of translation rules are those of objects. -/
theorem not_isHeader_natLines (hother : "object" ≠ first ∨ "network" ≠ second) (c : Config)
    (rule : NatRule) : ∀ l ∈ natLines c rule, ¬ IsHeader first second l :=
  (holdsBelow_not_isHeader hfirst).forall_mem_natLines (not_isHeader_objectHeader hother)
    (not_isHeader_append hfirst (by decide)) c rule

end First

end FirewallConfig.Cisco
