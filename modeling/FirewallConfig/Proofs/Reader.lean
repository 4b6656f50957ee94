import FirewallConfig.Proofs.Cisco.Places
import FirewallConfig.Proofs.PanOs.Places
import FirewallConfig.Reader

/-!
# Proofs/Reader — no text stops a reader

A reader that names the parts of lines and of lists by their places would stop where a place is
missing.  In every dialect such a reader gives, for every text, what the reader by patterns gives:
no place is ever missing (`Dialect.places_present`).
-/

namespace FirewallConfig

namespace Dialect

/-- The configuration that a text of the dialect holds, read by places. -/
def readAt : Dialect → String → Checked Config
  | .ciscoAsa, text => Cisco.readAt .asa text
  | .ciscoFtd, text => Cisco.readAt .ftd text
  -- every part of a line is taken by its form, and none by its place
  | .fortiGate, text => .ok (FortiOs.read text)
  | .paloAlto, text => PanOs.readAt text

/-- **No place is missing**, in any text of any dialect: a line has the operands that its first words
promise, at the top level and in a block; no operand has more words than there are left; a text is
cut only between characters; and what is cut out of an entry lies in it, where every loop ends. -/
theorem places_present :
    (∀ (d : Dialect) (text : String), d.readAt text = .ok (d.read text))
    ∧ (∀ l : Cisco.Line, Cisco.operandsAt l (.ofWords l.words) = .ok (.read l))
    ∧ (∀ (r : Cisco.Reading) (b : Cisco.Block) (l : Cisco.Line),
        r.blockLineAt b l = .ok (r.blockLine b l))
    ∧ (∀ (r : Cisco.Reading) (raw : String), r.stepAt raw = .ok (r.step raw))
    ∧ (∀ words : List String,
        ((Cisco.readAddressAt words).all fun (_, used) => used ≤ words.length)
        ∧ ((Cisco.readPortsAt words).all fun (_, used) => used ≤ words.length)
        ∧ Cisco.readEntryAt words = .ok (Cisco.readEntry words))
    ∧ (∀ (k : Nat) (line : String), Text.textAfterAt k line = .ok (Text.textAfter k line))
    ∧ (∀ line : String, PanOs.entryNameAt line = .ok (PanOs.entryName line))
    ∧ ∀ (lines : List String) (tag : String),
        ∃ v, PanOs.View.ofLinesAt lines = .ok v
          ∧ v.membersAt tag = .ok ((PanOs.Block.ofLines lines).members tag)
          ∧ v.zoneMembersAt = .ok (PanOs.Block.ofLines lines).zoneMembers
          ∧ v.childrenAt = .ok ((PanOs.Block.ofLines lines).children.map PanOs.Block.view) := by
  refine ⟨fun d text => ?_, fun l => (Cisco.operandsAt_eq l).2, Cisco.Reading.blockLineAt_eq,
    Cisco.Reading.stepAt_eq, fun words => ⟨?_, ?_, Cisco.readEntryAt_eq words⟩, Text.textAfterAt_eq,
    PanOs.entryNameAt_eq, fun lines tag => ?_⟩
  · cases d with
    | ciscoAsa => exact Cisco.readAt_eq .asa text
    | ciscoFtd => exact Cisco.readAt_eq .ftd text
    | fortiGate => rfl
    | paloAlto => exact PanOs.readAt_eq text
  · exact Cisco.all_counted (Cisco.drop_readAddressAt words)
  · exact Cisco.all_counted (Cisco.drop_readPortsAt words)
  · exact ⟨_, PanOs.View.ofLinesAt_eq lines, PanOs.View.membersAt_view _ tag,
      PanOs.View.zoneMembersAt_view _, PanOs.View.childrenAt_view _⟩

end Dialect

end FirewallConfig
