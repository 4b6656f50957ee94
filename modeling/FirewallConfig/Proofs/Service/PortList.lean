import FirewallConfig.Proofs.Service.ServiceRef
import FirewallConfig.Proofs.Service.Traffic

/-!
# Proofs/Service/PortList — lists of ports

A list has a comma between neighbours, and each piece is a port or a range in numerals.  So the pieces
are words, and a list without a comma is one port or one range.
-/

namespace FirewallConfig

open Text

/-- The text lists ports and ranges of them, in numerals. -/
def ListsPorts (ports : String) : Prop := ∀ piece ∈ pieces ',' ports, IsPorts piece

namespace Text

theorem pieces_ne_nil (c : Char) (s : String) : pieces c s ≠ [] :=
  mt List.map_eq_nil_iff.1 (List.splitOn_ne_nil c s.toList)

theorem pieces_eq_singleton {c : Char} {s : String} (h : c ∉ s.toList) : pieces c s = [s] := by
  rw [pieces, List.splitOn_eq_singleton h, List.map_singleton, String.ofList_toList]

/-- The first port or range of a list. -/
def firstPorts (ports : String) : String := (pieces ',' ports).headD ""

theorem head?_pieces (ports : String) : (pieces ',' ports).head? = some (firstPorts ports) := by
  obtain ⟨piece, rest, hcons⟩ := List.exists_cons_of_ne_nil (pieces_ne_nil ',' ports)
  rw [firstPorts, hcons]
  rfl

end Text

section Ports

variable {ports : String}

theorem IsPorts.isWord (h : IsPorts ports) : IsWord ports := by
  obtain ⟨hne, hall⟩ := ServiceRef.isNumeric_of_isPorts h
  refine ⟨hne, fun c hc => ?_⟩
  rcases hall c hc with hnumeric | rfl
  · exact Chars.not_isBlank_of_isNumeric hnumeric
  · decide

/-- A character that is no dash and stands in no numeral stands in no ports. -/
theorem IsPorts.not_mem (h : IsPorts ports) {c : Char} (hc : Chars.isNumeric c = false)
    (hdash : c ≠ '-') : c ∉ ports.toList := fun hmem => by
  rcases (ServiceRef.isNumeric_of_isPorts h).2 c hmem with hnumeric | rfl
  · exact absurd (hc.symm.trans hnumeric) Bool.false_ne_true
  · exact hdash rfl

/-- The pieces of a list stand without blanks, and none is empty. -/
theorem ListsPorts.pieces_eq (h : ListsPorts ports) :
    ((pieces ',' ports).map trim).filter (!·.isEmpty) = pieces ',' ports := by
  have htrim : (pieces ',' ports).map trim = pieces ',' ports :=
    (List.map_congr_left fun piece hpiece => (h piece hpiece).isWord.trim_eq).trans (List.map_id _)
  rw [htrim]
  exact List.filter_eq_self.2 fun piece hpiece => by rw [(h piece hpiece).isWord.isEmpty_eq]; rfl

theorem ListsPorts.isPorts_firstPorts (h : ListsPorts ports) : IsPorts (firstPorts ports) :=
  h _ (List.mem_of_head? (head?_pieces ports))

/-- **A list without a comma** is one port or one range. -/
theorem ListsPorts.isPorts (h : ListsPorts ports) (hcomma : ',' ∉ ports.toList) : IsPorts ports :=
  h ports (by rw [pieces_eq_singleton hcomma]; exact List.mem_singleton_self ports)

end Ports

/-- The service is one of ports that every dialect can spell: its name is a single word, and its
ports are listed. -/
structure ServiceObject.IsPlain (s : ServiceObject) : Prop where
  name : IsWord s.name
  protocol : s.protocol = "tcp" ∨ s.protocol = "udp"
  port : ∃ ports, s.port = some ports ∧ ListsPorts ports

end FirewallConfig
