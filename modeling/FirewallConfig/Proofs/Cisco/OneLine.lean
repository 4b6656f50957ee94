import FirewallConfig.Cisco.Reader
import FirewallConfig.Proofs.Address.Endpoint
import FirewallConfig.Proofs.Cisco.Directive
import FirewallConfig.Proofs.Config.Put

/-!
# Proofs/Cisco/OneLine — what is read holds no line feed

Every text of a configuration is a word of some line, made of its words, or what follows some of
them in that line, so none of them ends a line when it is written (`oneLine_read`).  The statements
follow the reader: operands, directives, blocks and lines.
-/

namespace FirewallConfig.Cisco

open Text

/-! ## Lines and their words -/

/-- The parts of a line hold no line feed, and its words are words. -/
structure Line.OneLine (l : Line) : Prop where
  text : Text.OneLine l.text
  words : ∀ w ∈ l.words, IsWord w

theorem Line.oneLine_ofText {raw : String} (h : Text.OneLine raw) : (Line.ofText raw).OneLine :=
  ⟨h.trim, fun _ hw => isWord_of_mem_words hw⟩

theorem Line.OneLine.after {l : Line} (hl : l.OneLine) (k : Nat) : Text.OneLine (l.after k) :=
  hl.text.textAfter k

/-- A text that is a word holds no line feed. -/
theorem oneLine_some {word : String} (h : IsWord word) : ∀ s ∈ some word, OneLine s :=
  forall_mem_some h.oneLine

theorem oneLine_unwords_of_isWord {ws : List String} (hws : ∀ w ∈ ws, IsWord w) :
    OneLine (unwords ws) := oneLine_unwords fun w hw => (hws w hw).oneLine

/-! ## Addresses and ports -/

theorem isWord_readAddress {ws : List String} (hws : ∀ w ∈ ws, IsWord w) {endpoint : String}
    {rest : List String} (h : readAddress ws = some (endpoint, rest)) :
    IsWord endpoint ∧ ∀ w ∈ rest, IsWord w := by
  have hany : IsWord anyText := by decide
  have hsingle {address : String} {rest' : List String}
      (haddress : IsWord address ∧ ∀ w ∈ rest', IsWord w)
      (h : readAddress.single address rest' = some (endpoint, rest)) :
      IsWord endpoint ∧ ∀ w ∈ rest, IsWord w := by
    rw [readAddress.single] at h
    split at h
    · cases h
      exact haddress
    · cases h
  unfold readAddress at h
  split at h
  case h_8 => cases h
  case h_9 address rest' =>
    simp only [List.forall_mem_cons] at hws
    split at h
    · next mask rest'' =>
      simp only [List.forall_mem_cons] at hws
      split at h
      · next hip =>
        cases h
        refine ⟨?_, hws.2.2⟩
        split
        · exact hws.1
        · exact Network.isWord_cidr (Bool.and_eq_true_iff.1 hip).1
      · exact hsingle ⟨hws.1, List.forall_mem_cons.2 hws.2⟩ h
    · exact hsingle ⟨hws.1, hws.2⟩ h
  all_goals
    cases h
    simp only [List.forall_mem_cons] at hws
    first | exact ⟨hany, hws.2⟩ | exact hws.2

theorem oneLine_portNumber {port : String} (h : OneLine port) : OneLine (portNumber port) := by
  unfold portNumber
  split
  all_goals first | exact h | decide

theorem oneLine_readPorts {ws : List String} (hws : ∀ w ∈ ws, IsWord w) {ports : String}
    {rest : List String} (h : readPorts ws = some (ports, rest)) :
    OneLine ports ∧ ∀ w ∈ rest, IsWord w := by
  unfold readPorts at h
  split at h
  case h_1 port rest =>
    simp only [List.forall_mem_cons] at hws
    cases h
    exact ⟨oneLine_portNumber hws.2.1.oneLine, hws.2.2⟩
  case h_2 first last rest =>
    simp only [List.forall_mem_cons] at hws
    cases h
    refine ⟨?_, hws.2.2.2⟩
    simp +decide [oneLine_portNumber hws.2.1.oneLine, oneLine_portNumber hws.2.2.1.oneLine]
  case h_5 => cases h
  all_goals
    simp only [List.forall_mem_cons] at hws
    obtain ⟨port, -, heq⟩ := Option.map_eq_some_iff.1 h
    cases heq
    exact ⟨by simp +decide, hws.2.2⟩

/-! ## Entries of access lists -/

theorem isWord_skipPorts {ws : List String} (hws : ∀ w ∈ ws, IsWord w) :
    ∀ w ∈ skipPorts ws, IsWord w := by
  rw [skipPorts]
  split
  · next h => exact (oneLine_readPorts hws h).2
  · exact hws

theorem oneLine_readEntryService {protocol : String} (hprotocol : OneLine protocol)
    {named ws : List String} (hnamed : ∀ s ∈ named, OneLine s) (hws : ∀ w ∈ ws, IsWord w) :
    ∀ s ∈ (readEntryService protocol named ws).1, OneLine s := by
  have happend {s : String} (hs : OneLine s) : ∀ t ∈ named ++ [s], OneLine t :=
    List.forall_mem_append.2 ⟨hnamed, List.forall_mem_singleton.2 hs⟩
  unfold readEntryService
  split
  · next ports rest h =>
    have hports := (oneLine_readPorts hws h).1
    exact happend (by simp +decide [hprotocol, hports])
  · split
    · simp only [List.forall_mem_cons] at hws
      exact happend hws.2.1.oneLine
    · simp only [List.forall_mem_cons] at hws
      exact happend hws.2.1.oneLine
    · dsimp only
      split
      · exact List.forall_mem_singleton.2 hprotocol
      · exact hnamed

theorem oneLine_readEntryOperands {action : Action} {protocol : String}
    (hprotocol : OneLine protocol) {named ws : List String} (hnamed : ∀ s ∈ named, OneLine s)
    (hws : ∀ w ∈ ws, IsWord w) {rule : Policy}
    (h : readEntryOperands action protocol named ws = some rule) : rule.OneLine := by
  rw [readEntryOperands] at h
  split at h
  · cases h
  · next source rest hsource =>
    obtain ⟨hs, hrest⟩ := isWord_readAddress hws hsource
    split at h
    · cases h
    · next destination rest hdestination =>
      obtain ⟨hd, hrest⟩ := isWord_readAddress (isWord_skipPorts hrest) hdestination
      have hservice := oneLine_readEntryService hprotocol hnamed hrest
      cases h
      exact { protocol := hprotocol, service := hservice
              source := List.forall_mem_singleton.2 hs.oneLine
              destination := List.forall_mem_singleton.2 hd.oneLine
              name := nofun, sourceZone := nofun, destinationZone := nofun
              application := List.forall_mem_nil _, description := nofun }

theorem oneLine_readEntry {ws : List String} (hws : ∀ w ∈ ws, IsWord w) {rule : Policy}
    (h : readEntry ws = some rule) : rule.OneLine := by
  have hip : OneLine "ip" := by decide
  unfold readEntry at h
  split at h
  · cases h
  · split at h
    · simp only [List.forall_mem_cons] at hws
      split at h
      · simp only [List.forall_mem_cons] at hws
        exact oneLine_readEntryOperands hip (List.forall_mem_singleton.2 hws.2.2.1.oneLine)
          hws.2.2.2 h
      · simp only [List.forall_mem_cons] at hws
        exact oneLine_readEntryOperands hip (List.forall_mem_singleton.2 hws.2.2.1.oneLine)
          hws.2.2.2 h
      · simp only [List.forall_mem_cons] at hws
        exact oneLine_readEntryOperands hws.2.1.oneLine.lower (List.forall_mem_nil _) hws.2.2 h
      · cases h
    · cases h

theorem oneLine_readStandardEntry {action : String} {ws : List String} (hws : ∀ w ∈ ws, IsWord w)
    {rule : Policy} (h : readStandardEntry action ws = some rule) : rule.OneLine := by
  obtain ⟨⟨destination, rest⟩, hread, rfl⟩ := Option.map_eq_some_iff.1 h
  have hip : OneLine "ip" := by decide
  exact { protocol := hip, source := List.forall_mem_nil _
          destination := List.forall_mem_singleton.2 (isWord_readAddress hws hread).1.oneLine
          service := List.forall_mem_nil _, name := nofun, sourceZone := nofun
          destinationZone := nofun, application := List.forall_mem_nil _, description := nofun }

/-- The texts of a line of an access list hold no line feed. -/
def AclLine.OneLine : AclLine → Prop
  | .remark text => Text.OneLine text
  | .entry rule => rule.OneLine
  | .ignored => True

theorem oneLine_readAclLine {behind : Nat → String} (hbehind : ∀ k, OneLine (behind k))
    {ws : List String} (hws : ∀ w ∈ ws, IsWord w) : (readAclLine behind ws).OneLine := by
  have hentry {read : Option Policy} (h : ∀ rule, read = some rule → rule.OneLine) :
      (readAclLine.ofEntry read).OneLine := by
    cases read with
    | none => trivial
    | some rule => exact h rule rfl
  unfold readAclLine
  split
  · exact hbehind 1
  · exact hentry fun rule => oneLine_readEntry (List.forall_mem_cons.1 hws).2
  · exact hentry fun rule =>
      oneLine_readStandardEntry (List.forall_mem_cons.1 (List.forall_mem_cons.1 hws).2).2
  · trivial
  · trivial
  · exact hentry fun rule => oneLine_readEntry hws

theorem oneLine_readAccessList {l : Line} (hl : l.OneLine) {ws : List String}
    (hws : ∀ w ∈ ws, IsWord w) : (readAccessList l ws).OneLine := by
  unfold readAccessList
  split
  · exact oneLine_readAclLine (fun k => hl.after _)
      (List.forall_mem_cons.1 (List.forall_mem_cons.1 hws).2).2
  · exact oneLine_readAclLine (fun k => hl.after _) hws

/-! ## Translation rules -/

/-- The rule has no name of its own, and it translates what one word stands for. -/
structure IsUnnamed (rule : NatRule) : Prop where
  oneLine : rule.OneLine
  name : rule.name = none
  source : ∀ s ∈ rule.source, IsWord s

theorem oneLine_readInterfacePair {word : String} (hword : OneLine word)
    {pair : Option String × Option String} (h : readInterfacePair word = some pair) :
    (∀ s ∈ pair.1, OneLine s) ∧ ∀ s ∈ pair.2, OneLine s := by
  rw [readInterfacePair] at h
  split at h
  · cases h
  · next inner hinner =>
    obtain ⟨opened, hopened, hclosed⟩ := Option.bind_eq_some_iff.1 hinner
    have honeLine : OneLine inner := (hword.withoutPrefix hopened).withoutSuffix hclosed
    have hpiece {k : Nat} {s : String}
        (hs : s ∈ (((pieces ',' inner).map trim)[k]?).filter fun n => !n.isEmpty) : OneLine s := by
      obtain ⟨p, hp, rfl⟩ :=
        List.mem_map.1 (List.mem_of_getElem? (Option.filter_eq_some_iff.1 hs).1)
      exact (honeLine.of_mem_pieces hp).trim
    cases h
    exact ⟨fun s hs => hpiece hs, fun s hs => hpiece hs⟩

theorem oneLine_cutDescription {ws : List String} (hws : ∀ w ∈ ws, IsWord w) :
    (∀ w ∈ (cutDescription ws).1, IsWord w) ∧ ∀ s ∈ (cutDescription ws).2, OneLine s := by
  rw [cutDescription]
  split
  · exact ⟨hws, nofun⟩
  · next word description heq =>
    have hsubset : description ⊆ ws := fun w hw =>
      (List.dropWhile_sublist _).subset (heq ▸ List.mem_cons_of_mem _ hw)
    refine ⟨fun w hw => hws w ((List.takeWhile_sublist _).subset hw), ?_⟩
    exact forall_mem_some (oneLine_unwords_of_isWord fun w hw => hws w (hsubset hw))

theorem isWord_legacySource {address : String} (h : isIPv4 address = true) (mask : String) :
    IsWord (legacySource address mask) := by
  rw [legacySource]
  split
  · decide
  · split
    · exact Network.isWord_cidr h
    · exact isWord_of_isIPv4 h

theorem oneLine_readTwiceDestination {ws : List String} (hws : ∀ w ∈ ws, IsWord w) :
    ∀ s ∈ readTwiceDestination ws, OneLine s := by
  unfold readTwiceDestination
  split
  · simp only [List.forall_mem_cons] at hws
    exact oneLine_some hws.2.2.1
  · exact forall_mem_none

theorem isUnnamed_readNatOperands {rule : NatRule} (hrule : IsUnnamed rule) {object : Option String}
    (hobject : ∀ s ∈ object, IsWord s) {ws : List String} (hws : ∀ w ∈ ws, IsWord w) :
    ∀ r ∈ readNatOperands rule object ws, IsUnnamed r := by
  have hsource {source : String} (h : IsWord source) :
      (∀ s ∈ some source, OneLine s) ∧ ∀ s ∈ some source, IsWord s :=
    ⟨oneLine_some h, forall_mem_some h⟩
  intro r hr
  unfold readNatOperands at hr
  split at hr
  · next name kind mapped rest =>
    simp only [List.forall_mem_cons] at hws
    obtain ⟨k, -, rfl⟩ := Option.map_eq_some_iff.1 hr
    have hname := hsource (hobject _ rfl)
    exact ⟨{ hrule.oneLine with source := hname.1, translated := oneLine_some hws.2.1 }, hrule.name,
      hname.2⟩
  · cases hr
  · split at hr
    · next twice htwice =>
      cases hr
      unfold readNatOperands.readTwice at htwice
      split at htwice
      · simp only [List.forall_mem_cons] at hws
        obtain ⟨k, -, rfl⟩ := Option.map_eq_some_iff.1 htwice
        have hreal := hsource hws.2.2.1
        exact ⟨{ hrule.oneLine with
          source := hreal.1, translated := oneLine_some hws.2.2.2.1
          destination := oneLine_readTwiceDestination hws.2.2.2.2 }, hrule.name, hreal.2⟩
      · cases htwice
    · unfold readNatOperands.readLegacy at hr
      split at hr
      · simp only [List.forall_mem_cons] at hws
        cases hr
        have hacl := hsource hws.2.2.1
        exact ⟨{ hrule.oneLine with natId := oneLine_some hws.1, source := hacl.1 }, hrule.name,
          hacl.2⟩
      · next mask _ _ _ =>
        simp only [List.forall_mem_cons] at hws
        split at hr
        · next hip =>
          cases hr
          have hlegacy := hsource (isWord_legacySource hip mask)
          exact ⟨{ hrule.oneLine with natId := oneLine_some hws.1, source := hlegacy.1 },
            hrule.name, hlegacy.2⟩
        · cases hr
      · cases hr

/-- Where a rule is placed stands in front of its words. -/
theorem isWord_placed {rest : List String} (h : ∀ w ∈ rest, IsWord w) :
    ∀ w ∈ (match rest with
      | "after-auto" :: tail | "after-object" :: tail => tail
      | rest => rest), IsWord w := by
  split
  · exact (List.forall_mem_cons.1 h).2
  · exact (List.forall_mem_cons.1 h).2
  · exact h

theorem isUnnamed_readNat {object : Option String} (hobject : ∀ s ∈ object, IsWord s)
    {ws : List String} (hws : ∀ w ∈ ws, IsWord w) : ∀ r ∈ readNat object ws, IsUnnamed r := by
  unfold readNat
  split
  · exact forall_mem_none
  · next interfaces rest =>
    simp only [List.forall_mem_cons] at hws
    split
    · exact forall_mem_none
    · next sourceInterface interface hpair =>
      obtain ⟨hsource, hinterface⟩ := oneLine_readInterfacePair hws.1.oneLine hpair
      obtain ⟨hoperands, hdescription⟩ := oneLine_cutDescription (isWord_placed hws.2)
      exact isUnnamed_readNatOperands ⟨{ sourceInterface := hsource, interface := hinterface
                                         description := hdescription }, rfl, forall_mem_none⟩
        hobject hoperands

theorem isUnnamed_readPool {ws : List String} (hws : ∀ w ∈ ws, IsWord w) :
    ∀ r ∈ readPool ws, IsUnnamed r := by
  unfold readPool
  split
  · next interfaces id mapped rest =>
    simp only [List.forall_mem_cons] at hws
    intro r hr
    obtain ⟨pair, hpair, rfl⟩ := Option.map_eq_some_iff.1 hr
    have hinterfaces := oneLine_readInterfacePair hws.1.oneLine hpair
    exact ⟨{ translated := oneLine_some hws.2.2.1, interface := hinterfaces.1
             natId := oneLine_some hws.2.1 },
      rfl, forall_mem_none⟩
  · exact forall_mem_none

/-- The protocol of a static rule stands in front of its words. -/
theorem isWord_unprotocolled {rest : List String} (h : ∀ w ∈ rest, IsWord w) :
    ∀ w ∈ (match rest with
      | "tcp" :: tail | "udp" :: tail => tail
      | rest => rest), IsWord w := by
  split
  · exact (List.forall_mem_cons.1 h).2
  · exact (List.forall_mem_cons.1 h).2
  · exact h

theorem isUnnamed_readStatic {ws : List String} (hws : ∀ w ∈ ws, IsWord w) :
    ∀ r ∈ readStatic ws, IsUnnamed r := by
  unfold readStatic
  split
  · exact forall_mem_none
  · next interfaces rest =>
    simp only [List.forall_mem_cons] at hws
    split
    · exact forall_mem_none
    · next sourceInterface interface hpair =>
      obtain ⟨hsource, hinterface⟩ := oneLine_readInterfacePair hws.1.oneLine hpair
      dsimp only
      split
      · next mapped real tail heq =>
        have hwords : ∀ w ∈ mapped :: real :: tail, IsWord w := by
          rw [← heq]
          exact isWord_unprotocolled hws.2
        simp only [List.forall_mem_cons] at hwords
        exact forall_mem_some
          ⟨{ source := oneLine_some hwords.2.1, translated := oneLine_some hwords.1
             sourceInterface := hsource, interface := hinterface }, rfl, forall_mem_some hwords.2.1⟩
      · exact forall_mem_none

/-! ## Directives -/

theorem oneLine_head? {ws : List String} (hws : ∀ w ∈ ws, IsWord w) :
    ∀ s ∈ ws.head?, OneLine s := fun s hs => (hws s (List.mem_of_head? hs)).oneLine

theorem oneLine_readAccessGroup {ws : List String} (hws : ∀ w ∈ ws, IsWord w) :
    ∀ b ∈ readAccessGroup ws, b.OneLine := by
  unfold readAccessGroup
  split
  · simp only [List.forall_mem_cons] at hws
    rintro b ⟨⟩
    exact ⟨hws.1.oneLine, hws.2.1.oneLine, hws.2.2.2.1.oneLine⟩
  · simp only [List.forall_mem_cons] at hws
    have hfixed : OneLine "global" ∧ OneLine "" := by decide
    rintro b ⟨⟩
    exact ⟨hws.1.oneLine, hfixed.1, hfixed.2⟩
  · exact forall_mem_none

theorem oneLine_readRoute {ws : List String} (hws : ∀ w ∈ ws, IsWord w) :
    ∀ r ∈ readRoute ws, r.OneLine := by
  unfold readRoute
  split
  · simp only [List.forall_mem_cons] at hws
    split
    · rintro r ⟨⟩
      exact { network := hws.1.oneLine, mask := hws.2.1.oneLine, gateway := oneLine_some hws.2.2.1
              interface := oneLine_head? hws.2.2.2
              name := forall_mem_none, description := forall_mem_none }
    · split
      · simp only [List.forall_mem_cons] at hws
        rintro r ⟨⟩
        exact { network := hws.2.1.oneLine, mask := hws.2.2.1.oneLine
                gateway := oneLine_some hws.2.2.2.1, interface := oneLine_some hws.1
                name := forall_mem_none, description := forall_mem_none }
      · exact forall_mem_none
  · exact forall_mem_none

theorem oneLine_transformAlgorithm {transform : String} (h : OneLine transform) :
    OneLine (transformAlgorithm transform) := by
  have hvalue : OneLine ((withoutPrefix "esp-" transform).getD transform) :=
    oneLine_getD (fun s hs => h.withoutPrefix hs) h
  exact oneLine_getD (fun s hs => hvalue.withoutSuffix hs) hvalue

theorem oneLine_readTransformSet {ws : List String} (hws : ∀ w ∈ ws, IsWord w) :
    ∀ t ∈ readTransformSet ws, t.OneLine := by
  have hfixed : OneLine "esp" ∧ OneLine "aes" ∧ OneLine "sha" := by decide
  have halgorithm {w : String} (h : IsWord w) := oneLine_transformAlgorithm h.oneLine
  unfold readTransformSet
  split
  · nofun
  · simp only [List.forall_mem_cons] at hws
    rintro t ⟨⟩
    exact ⟨hws.1.oneLine, hfixed.1, hfixed.2.1, hfixed.2.2⟩
  · simp only [List.forall_mem_cons] at hws
    rintro t ⟨⟩
    exact ⟨hws.1.oneLine, hfixed.1, halgorithm hws.2.1, hfixed.2.2⟩
  · simp only [List.forall_mem_cons] at hws
    rintro t ⟨⟩
    exact ⟨hws.1.oneLine, hfixed.1, halgorithm hws.2.1, halgorithm hws.2.2.1⟩

/-- The texts of a line about a crypto map hold no line feed, and its settings are words. -/
def CryptoMapLine.OneLine : CryptoMapLine → Prop
  | .bind interface => Text.OneLine interface
  | .entry _ setting => ∀ w ∈ setting, IsWord w
  | .unreadable => True

theorem oneLine_readCryptoMap {operand : String} {ws : List String} (hws : ∀ w ∈ ws, IsWord w) :
    (readCryptoMap operand ws).OneLine := by
  unfold readCryptoMap
  split
  · exact (hws _ List.mem_cons_self).oneLine
  · split
    · exact hws
    · trivial

theorem isWord_neighbours {ws : List String} (hws : ∀ w ∈ ws, IsWord w) :
    ∀ p ∈ neighbours ws, IsWord p.2 := fun p hp =>
  hws p.2 (List.mem_of_mem_tail (List.of_mem_zip hp).2)

theorem oneLine_readUser {username : String} (hname : OneLine username) {ws : List String}
    (hws : ∀ w ∈ ws, IsWord w) : ∀ u ∈ readUser username ws, u.OneLine := by
  have hsetting {u : User} (hu : u.OneLine) {p : String × String} (hp : IsWord p.2) :
      (withUserSetting u p).OneLine := by
    unfold withUserSetting
    split
    · exact { hu with secret := oneLine_some hp }
    · exact { hu with secret := oneLine_some hp }
    · exact { hu with }
    · exact hu
  have hsettings {ps : List (String × String)} (hps : ∀ p ∈ ps, IsWord p.2) {u : User}
      (hu : u.OneLine) : (ps.foldl withUserSetting u).OneLine := by
    induction ps generalizing u with
    | nil => exact hu
    | cons p ps ih =>
      obtain ⟨hp, hps⟩ := List.forall_mem_cons.1 hps
      exact ih hps (hsetting hu hp)
  rw [readUser]
  split
  · nofun
  · split
    · rintro u ⟨⟩
      exact hsettings (isWord_neighbours hws) { username := hname }
    · rintro u ⟨⟩
      exact { username := hname, secret := oneLine_head? hws, role := nofun }

theorem oneLine_readLogging {target : String} (htarget : OneLine target) {ws : List String}
    (hws : ∀ w ∈ ws, IsWord w) : (readLogging target ws).OneLine := by
  have hfixed : OneLine "host" ∧ OneLine "informational" := by decide
  unfold readLogging
  split
  · simp only [List.forall_mem_cons] at hws
    exact ⟨hfixed.1, hfixed.2, oneLine_some hws.2.1, oneLine_some hws.1⟩
  · exact ⟨htarget, (hws _ List.mem_cons_self).oneLine, forall_mem_none, forall_mem_none⟩
  · exact ⟨htarget, hfixed.2, forall_mem_none, forall_mem_none⟩

theorem oneLine_readSnmp {ws : List String} (hws : ∀ w ∈ ws, IsWord w) :
    ∀ s ∈ readSnmp ws, s.OneLine := by
  have hfixed : OneLine "public" ∧ OneLine "2c" := by decide
  have hsetting {s : SnmpSetting} (hs : s.OneLine) {p : String × String} (hp : IsWord p.2) :
      (withSnmpSetting s p).OneLine := by
    unfold withSnmpSetting
    split
    · exact { hs with community := hp.oneLine }
    · exact { hs with version := hp.oneLine }
    · exact hs
  have hsettings {ps : List (String × String)} (hps : ∀ p ∈ ps, IsWord p.2) {s : SnmpSetting}
      (hs : s.OneLine) : (ps.foldl withSnmpSetting s).OneLine := by
    induction ps generalizing s with
    | nil => exact hs
    | cons p ps ih =>
      obtain ⟨hp, hps⟩ := List.forall_mem_cons.1 hps
      exact ih hps (hsetting hs hp)
  unfold readSnmp
  split
  · simp only [List.forall_mem_cons] at hws
    rintro s ⟨⟩
    exact hsettings (isWord_neighbours hws.2.2.2)
      ⟨hfixed.1, hfixed.2, oneLine_some hws.2.2.1, oneLine_some hws.2.1⟩
  · simp only [List.forall_mem_cons] at hws
    rintro s ⟨⟩
    exact ⟨hws.2.1.oneLine, hfixed.2, forall_mem_none, forall_mem_none⟩
  · exact forall_mem_none

theorem oneLine_readAccessSetting {ws : List String} (hws : ∀ w ∈ ws, IsWord w) :
    (readAccessSetting ws).OneLine := by
  unfold readAccessSetting
  split
  · simp only [List.forall_mem_cons] at hws
    split
    · exact ⟨hws.1.oneLine, hws.2.1.oneLine, hws.2.2.1.oneLine⟩
    · exact ⟨hws.1.oneLine, oneLine_unwords_of_isWord
        (List.forall_mem_cons.2 ⟨hws.2.1, List.forall_mem_cons.2 hws.2.2⟩)⟩
  · simp only [List.forall_mem_cons] at hws
    exact ⟨hws.1.oneLine, oneLine_unwords_of_isWord hws.2⟩
  · exact (by decide : OneLine "" ∧ OneLine "")

theorem oneLine_profileName {ws : List String} (hws : ∀ w ∈ ws, IsWord w) :
    OneLine (profileName ws) :=
  oneLine_getD (fun s hs => (hws s (List.mem_of_find?_eq_some hs)).oneLine) (by decide)

/-- The texts of a directive hold no line feed; its operands are words, and so is the name of an
object. -/
def Directive.OneLine : Directive → Prop
  | .hostname text | .domainName text | .interface text | .objectService text
  | .objectGroupNetwork text | .ikePolicy text | .enablePassword text | .password text =>
    Text.OneLine text
  | .objectNetwork name => IsWord name
  | .accessList acl line => Text.OneLine acl ∧ line.OneLine
  | .accessGroup binding => ∀ b ∈ binding, b.OneLine
  | .route entry => ∀ r ∈ entry, r.OneLine
  | .nat rule | .pool rule | .staticNat rule => ∀ r ∈ rule, IsUnnamed r
  | .transformSet set => ∀ t ∈ set, t.OneLine
  | .cryptoMap map line => Text.OneLine map ∧ line.OneLine
  | .aaaServer name operands | .tunnelGroup name operands =>
    Text.OneLine name ∧ ∀ w ∈ operands, IsWord w
  | .groupPolicy name kind | .profile kind name => Text.OneLine name ∧ Text.OneLine kind
  | .username user => ∀ u ∈ user, u.OneLine
  | .logging target => target.OneLine
  | .snmpServer setting => ∀ s ∈ setting, s.OneLine
  | .ssh setting | .http setting => setting.OneLine
  | .clock setting => setting.OneLine
  | .bang | .other => True

theorem Directive.oneLine_readWords {l : Line} (hl : l.OneLine) {ws : List String}
    (hws : ∀ w ∈ ws, IsWord w) : (Directive.readWords l ws).OneLine := by
  have hreads := Directive.reads_readWords l ws
  generalize Directive.readWords l ws = d at hreads ⊢
  cases hreads
  case other => trivial
  all_goals simp only [List.forall_mem_cons] at hws
  case hostname | domainName | interface => exact hws.2.1.oneLine
  case objectNetwork => exact hws.2.2.1
  case objectService | objectGroupNetwork => exact hws.2.2.1.oneLine
  case accessList =>
    exact ⟨hws.2.1.oneLine, oneLine_readAccessList hl (List.forall_mem_cons.2 hws.2.2)⟩
  case accessGroup => exact oneLine_readAccessGroup (List.forall_mem_cons.2 hws.2)
  case route => exact oneLine_readRoute (List.forall_mem_cons.2 hws.2)
  case nat => exact isUnnamed_readNat forall_mem_none (List.forall_mem_cons.2 hws.2)
  case pool => exact isUnnamed_readPool (List.forall_mem_cons.2 hws.2)
  case staticNat => exact isUnnamed_readStatic (List.forall_mem_cons.2 hws.2)
  case ikePolicy => exact hws.2.2.2.1.oneLine
  case transformSet word operands rest hrest =>
    have hsubset : operands ⊆ rest := fun w hw =>
      (List.dropWhile_sublist _).subset (hrest ▸ List.mem_cons_of_mem _ hw)
    exact oneLine_readTransformSet fun w hw => hws.2.2 w (hsubset hw)
  case cryptoMap => exact ⟨hws.2.2.1.oneLine, oneLine_readCryptoMap hws.2.2.2.2⟩
  case aaaServer | tunnelGroup => exact ⟨hws.2.1.oneLine, List.forall_mem_cons.2 hws.2.2⟩
  case groupPolicy => exact ⟨hws.2.1.oneLine, hws.2.2.1.oneLine⟩
  case username => exact oneLine_readUser hws.2.1.oneLine hws.2.2
  case enablePassword => exact hws.2.2.1.oneLine
  case password => exact hws.2.1.oneLine
  case logging => exact oneLine_readLogging hws.2.1.oneLine hws.2.2
  case snmpServer => exact oneLine_readSnmp (List.forall_mem_cons.2 hws.2)
  case ssh | http => exact oneLine_readAccessSetting (List.forall_mem_cons.2 hws.2)
  case clock => exact ⟨hws.2.1.oneLine, hl.after 2⟩
  case classMap | policyMap => exact ⟨oneLine_profileName hws.2, by decide⟩

theorem Directive.oneLine_read {l : Line} (hl : l.OneLine) : (Directive.read l).OneLine := by
  rw [Directive.read]
  split
  · trivial
  · exact Directive.oneLine_readWords hl hl.words

/-! ## Blocks -/

/-- A new policy for the key exchange holds no line feed. -/
theorem oneLine_ikePolicy {priority : String} (h : OneLine priority) :
    ({ priority } : IkePolicy).OneLine := by
  have hfixed : OneLine "pre-share" ∧ OneLine "aes" ∧ OneLine "sha" ∧ OneLine "2"
      ∧ OneLine "86400" := by decide
  exact ⟨h, hfixed.1, hfixed.2.1, hfixed.2.2.1, hfixed.2.2.2.1, hfixed.2.2.2.2⟩

/-- The texts of an open block hold no line feed, and an object is called by a word. -/
def Block.OneLine : Block → Prop
  | .interface i => i.OneLine
  | .object o => o.OneLine ∧ IsWord o.name
  | .service s => s.OneLine
  | .group g => g.OneLine
  | .ikePolicy p => p.OneLine
  | .profile p => p.OneLine
  | .cryptoMap map _ => Text.OneLine map
  | .aaaServer name | .groupPolicy name | .tunnelGroup name => Text.OneLine name
  | .skip => True

section Lines

variable {l : Line} (hl : l.OneLine)
include hl

theorem oneLine_interfaceLine {i : Interface} (hi : i.OneLine) {ws : List String}
    (hws : ∀ w ∈ ws, IsWord w) : (interfaceLine i l ws).OneLine := by
  unfold interfaceLine
  split
  · simp only [List.forall_mem_cons] at hws
    exact { hi with nickname := oneLine_some hws.2.1 }
  · exact { hi with comment := forall_mem_some (hl.after 1) }
  · simp only [List.forall_mem_cons] at hws
    split
    · simp only [List.forall_mem_cons] at hws
      split
      · exact { hi with ip := oneLine_some hws.2.2.1, mask := oneLine_some hws.2.2.2.1 }
      · exact hi
    · simp only [List.forall_mem_cons] at hws
      split
      · next n hn =>
        obtain ⟨haddress, hmask⟩ := Network.oneLine_of_ofCidr? hws.2.2.1.oneLine hn
        exact { hi with ip := forall_mem_some haddress
                        mask := forall_mem_some hmask }
      · exact hi
    · exact hi
  · exact { hi with }
  · exact { hi with }
  · exact { hi with }
  · exact hi

theorem oneLine_objectLine {o : AddressObject} (ho : o.OneLine) {ws : List String}
    (hws : ∀ w ∈ ws, IsWord w) :
    (objectLine o l ws).OneLine ∧ (objectLine o l ws).name = o.name := by
  unfold objectLine
  split
  case h_8 => exact ⟨ho, rfl⟩
  all_goals simp only [List.forall_mem_cons] at hws
  · exact ⟨{ ho with value := hws.2.1.oneLine }, rfl⟩
  · exact ⟨{ ho with value := hws.2.1.oneLine, mask := oneLine_some hws.2.2.1 }, rfl⟩
  · exact ⟨{ ho with value := by simp +decide [hws.2.1.oneLine, hws.2.2.1.oneLine] }, rfl⟩
  · exact ⟨{ ho with value := hws.2.2.1.oneLine }, rfl⟩
  · exact ⟨{ ho with value := hws.2.2.1.oneLine }, rfl⟩
  · exact ⟨{ ho with value := hws.2.1.oneLine }, rfl⟩
  · exact ⟨{ ho with description := forall_mem_some (hl.after 1) }, rfl⟩

theorem oneLine_serviceLine {s : ServiceObject} (hs : s.OneLine) {ws : List String}
    (hws : ∀ w ∈ ws, IsWord w) : (serviceLine s l ws).OneLine := by
  unfold serviceLine
  split
  · next protocol rest =>
    simp only [List.forall_mem_cons] at hws
    have hdestination : ∀ w ∈ destinationWords rest, IsWord w := by
      rw [destinationWords]
      split
      · next words heq =>
        exact fun w hw => hws.2.2 w
          ((List.dropWhile_sublist _).subset (heq ▸ List.mem_cons_of_mem _ hw))
      · exact hws.2.2
    refine { hs with protocol := hws.2.1.oneLine, port := fun p hp => ?_ }
    obtain ⟨⟨ports, rest⟩, hports, rfl⟩ := Option.map_eq_some_iff.1 hp
    exact (oneLine_readPorts hdestination hports).1
  · exact { hs with description := forall_mem_some (hl.after 1) }
  · exact hs

theorem oneLine_groupLine {g : AddressGroup} (hg : g.OneLine) {ws : List String}
    (hws : ∀ w ∈ ws, IsWord w) : (groupLine g l ws).OneLine := by
  have hmember {member : String} (h : OneLine member) : ∀ s ∈ g.members ++ [member], OneLine s :=
    List.forall_mem_append.2 ⟨hg.members, List.forall_mem_singleton.2 h⟩
  unfold groupLine
  split
  · simp only [List.forall_mem_cons] at hws
    exact { hg with members := hmember hws.2.1.oneLine }
  · simp only [List.forall_mem_cons] at hws
    split
    · next member rest h =>
      exact { hg with members := hmember (isWord_readAddress hws.2 h).1.oneLine }
    · exact hg
  · exact { hg with description := forall_mem_some (hl.after 1) }
  · exact hg

omit hl in
theorem oneLine_ikeLine {p : IkePolicy} (hp : p.OneLine) {ws : List String}
    (hws : ∀ w ∈ ws, IsWord w) : (ikeLine p ws).OneLine := by
  unfold ikeLine
  split
  case h_8 => exact hp
  all_goals simp only [List.forall_mem_cons] at hws
  · exact { hp with authentication := hws.2.1.oneLine }
  · exact { hp with encryption := hws.2.1.oneLine }
  · exact { hp with hash := hws.2.1.oneLine }
  · exact { hp with hash := hws.2.1.oneLine }
  · exact { hp with group := hws.2.1.oneLine }
  · exact { hp with lifetime := hws.2.2.1.oneLine }
  · exact { hp with lifetime := hws.2.1.oneLine }

omit hl in
theorem oneLine_tunnelLine {t : Tunnel} (ht : t.OneLine) {ws : List String}
    (hws : ∀ w ∈ ws, IsWord w) : (tunnelLine t ws).OneLine := by
  have hjoined {w : String} {us : List String} (h : IsWord w ∧ ∀ u ∈ us, IsWord u) :
      ∀ s ∈ some (unwords (w :: us)), OneLine s :=
    forall_mem_some (oneLine_unwords_of_isWord (List.forall_mem_cons.2 h))
  unfold tunnelLine
  split
  case h_9 => exact ht
  all_goals simp only [List.forall_mem_cons] at hws
  case h_1 => exact { ht with acl := oneLine_some hws.2.2.1 }
  case h_2 => exact { ht with peer := hjoined hws.2.2 }
  case h_3 => exact { ht with proposal := hjoined hws.2.2 }
  case h_8 =>
    exact { ht with description := forall_mem_some (oneLine_unwords_of_isWord hws.2) }
  all_goals exact { ht with proposal := hjoined hws.2.2.2 }

omit hl in
theorem oneLine_aaaServerLine {s : AaaServer} (hs : s.OneLine) {ws : List String}
    (hws : ∀ w ∈ ws, IsWord w) : (aaaServerLine s ws).OneLine := by
  unfold aaaServerLine
  split
  case h_4 => exact hs
  all_goals simp only [List.forall_mem_cons] at hws
  · exact { hs with baseDn := oneLine_some hws.2.1 }
  · exact { hs with port := hws.2.1.oneLine }
  · exact { hs with description := forall_mem_some (oneLine_unwords_of_isWord hws.2) }

theorem oneLine_groupPolicyLine {g : GroupPolicy} (hg : g.OneLine) {ws : List String}
    (hws : ∀ w ∈ ws, IsWord w) : (groupPolicyLine g l ws).OneLine := by
  unfold groupPolicyLine
  split
  case h_4 => exact hg
  all_goals simp only [List.forall_mem_cons] at hws
  · exact { hg with vpnProtocols := forall_mem_some (hl.after 1) }
  · exact { hg with dnsServer := oneLine_some hws.2.2.1 }
  · exact { hg with dnsServer := oneLine_some hws.2.1 }

omit hl in
theorem oneLine_tunnelGroupLine {g : TunnelGroup} (hg : g.OneLine) {ws : List String}
    (hws : ∀ w ∈ ws, IsWord w) : (tunnelGroupLine g ws).OneLine := by
  unfold tunnelGroupLine
  split
  case h_5 => exact hg
  all_goals simp only [List.forall_mem_cons] at hws
  · exact { hg with defaultGroupPolicy := oneLine_some hws.2.1 }
  · exact { hg with preSharedKey := oneLine_some hws.2.2.1 }
  · exact { hg with preSharedKey := oneLine_some hws.2.2.1 }
  · exact { hg with preSharedKey := oneLine_some hws.2.1 }

end Lines

/-! ## A reading -/

namespace Reading

/-- What has been read so far holds no line feed, and its translation rules have no names. -/
structure IsSound (r : Reading) : Prop where
  config : r.config.OneLine
  block : ∀ b ∈ r.block, b.OneLine
  remark : ∀ p ∈ r.remark, Text.OneLine p.2
  mapInterfaces : ∀ p ∈ r.mapInterfaces, Text.OneLine p.2
  nat : ∀ rule ∈ r.config.nat, IsUnnamed rule

variable {r : Reading} (hr : r.IsSound)
include hr

/-- A change that leaves the translation rules alone. -/
theorem IsSound.amend {f : Config → Config} (hf : (f r.config).OneLine)
    (hnat : (f r.config).nat = r.config.nat) : (r.amend f).IsSound :=
  { hr with config := hf, nat := fun rule hrule => hr.nat rule (hnat ▸ hrule) }

theorem IsSound.amendVpn {f : Vpn → Vpn} (hf : (f r.config.vpn).OneLine) :
    (r.amendVpn f).IsSound := hr.amend { hr.config with vpn := hf } rfl

theorem IsSound.openBlock {b : Block} (hb : b.OneLine) : (r.openBlock b).IsSound :=
  { hr with block := forall_mem_some hb }

theorem IsSound.closeBlock : r.closeBlock.IsSound := by
  rw [Reading.closeBlock]
  split
  · next b hblock =>
    have hb := hr.block b hblock
    have hc := hr.config
    have hstore : (store b r.config).OneLine ∧ (store b r.config).nat = r.config.nat := by
      cases b with
      | interface i => exact ⟨hc.putInterface hb, rfl⟩
      | object o => exact ⟨hc.putAddressObject hb.1, rfl⟩
      | service s => exact ⟨{ hc with services := forall_mem_concat hc.services hb }, rfl⟩
      | group g => exact ⟨{ hc with addressGroups := forall_mem_concat hc.addressGroups hb }, rfl⟩
      | ikePolicy p =>
        exact ⟨{ hc with vpn :=
          { hc.vpn with ikePolicies := forall_mem_concat hc.vpn.ikePolicies hb } }, rfl⟩
      | profile p =>
        exact ⟨{ hc with securityProfiles := forall_mem_concat hc.securityProfiles hb }, rfl⟩
      | _ => exact ⟨hc, rfl⟩
    exact { hr with config := hstore.1, block := nofun
                    nat := fun rule hrule => hr.nat rule (hstore.2 ▸ hrule) }
  · exact hr

theorem IsSound.addNat {rule : Option NatRule} (hrule : ∀ n ∈ rule, IsUnnamed n) :
    (r.addNat rule).IsSound := by
  have hnat := forall_mem_append_toList hr.nat hrule
  exact { hr with config := { hr.config with nat := fun n hn => (hnat n hn).oneLine }, nat := hnat }

/-! ### Entries that are amended -/

theorem IsSound.amendTunnel {name : String} (hname : Text.OneLine name) (sequence : Option UInt32)
    {f : Tunnel → Tunnel} (hf : ∀ t, t.OneLine → (f t).OneLine) :
    (r.amendVpn (Vpn.amendTunnel name sequence f)).IsSound := by
  have hfresh : ({ name, sequence } : Tunnel).OneLine := { name := hname }
  exact hr.amendVpn { hr.config.vpn with
    tunnels := forall_mem_amendFirst (hf _ hfresh) hf hr.config.vpn.tunnels }

theorem IsSound.amendGroupPolicy {name : String} (hname : Text.OneLine name)
    {f : GroupPolicy → GroupPolicy} (hf : ∀ g, g.OneLine → (f g).OneLine) :
    (r.amendVpn (Vpn.amendGroupPolicy name f)).IsSound := by
  have hfresh : ({ name } : GroupPolicy).OneLine := { name := hname }
  exact hr.amendVpn { hr.config.vpn with
    groupPolicies := forall_mem_amendFirst (hf _ hfresh) hf hr.config.vpn.groupPolicies }

theorem IsSound.amendTunnelGroup {name : String} (hname : Text.OneLine name)
    {f : TunnelGroup → TunnelGroup} (hf : ∀ g, g.OneLine → (f g).OneLine) :
    (r.amendVpn (Vpn.amendTunnelGroup name f)).IsSound := by
  have hfresh : ({ name } : TunnelGroup).OneLine := { name := hname }
  exact hr.amendVpn { hr.config.vpn with
    tunnelGroups := forall_mem_amendFirst (hf _ hfresh) hf hr.config.vpn.tunnelGroups }

theorem IsSound.amendServer {name : String} (hname : Text.OneLine name)
    {f : AaaServer → AaaServer} (hf : ∀ s, s.OneLine → (f s).OneLine) :
    (r.amendServer name f).IsSound := by
  have hfixed : Text.OneLine "ldap" ∧ Text.OneLine "389" := by decide
  have hfresh : ({ name } : AaaServer).OneLine :=
    { name := hname, protocol := hfixed.1, port := hfixed.2 }
  exact hr.amend { hr.config with
    aaaServers := forall_mem_amendFirst (hf _ hfresh) hf hr.config.aaaServers } rfl

theorem IsSound.setTunnel {map : String} (hmap : Text.OneLine map) (sequence : UInt32)
    {setting : List String} (hsetting : ∀ w ∈ setting, IsWord w) :
    (r.setTunnel map sequence setting).IsSound :=
  hr.amendTunnel hmap _ fun _ ht => oneLine_tunnelLine ht hsetting

/-! ### A line -/

theorem IsSound.blockLine {b : Block} (hb : b.OneLine) {l : Line} (hl : l.OneLine) :
    (r.blockLine b l).IsSound := by
  have hws := hl.words
  cases b with
  | interface i => exact hr.openBlock (b := .interface _) (oneLine_interfaceLine hl hb hws)
  | object o =>
    rw [Reading.blockLine]
    split
    · next operands heq =>
      rw [heq] at hws
      exact hr.addNat (isUnnamed_readNat (forall_mem_some hb.2) (List.forall_mem_cons.1 hws).2)
    · obtain ⟨hline, hname⟩ := oneLine_objectLine hl hb.1 hws
      exact hr.openBlock (b := .object _) ⟨hline, hname ▸ hb.2⟩
  | service s => exact hr.openBlock (b := .service _) (oneLine_serviceLine hl hb hws)
  | group g => exact hr.openBlock (b := .group _) (oneLine_groupLine hl hb hws)
  | ikePolicy p => exact hr.openBlock (b := .ikePolicy _) (oneLine_ikeLine hb hws)
  | profile p =>
    exact hr.openBlock (b := .profile _) { hb with lines := forall_mem_concat hb.lines hl.text }
  | cryptoMap map sequence => exact hr.setTunnel hb sequence hws
  | aaaServer name => exact hr.amendServer hb fun _ hs => oneLine_aaaServerLine hs hws
  | groupPolicy name => exact hr.amendGroupPolicy hb fun _ hg => oneLine_groupPolicyLine hl hg hws
  | tunnelGroup name => exact hr.amendTunnelGroup hb fun _ hg => oneLine_tunnelGroupLine hg hws
  | skip => exact hr

theorem IsSound.applyAcl {acl : String} (hacl : Text.OneLine acl) {line : AclLine}
    (hline : line.OneLine) : (r.applyAcl acl line).IsSound := by
  cases line with
  | remark text => exact { hr with remark := forall_mem_some hline }
  | entry rule =>
    have hname : ∀ s ∈ some acl, Text.OneLine s := forall_mem_some hacl
    have hdescription : ∀ s ∈ (r.remark.filter (·.1 == acl)).map Prod.snd, Text.OneLine s := by
      intro s hs
      obtain ⟨p, hp, rfl⟩ := Option.map_eq_some_iff.1 hs
      exact hr.remark p (Option.filter_eq_some_iff.1 hp).1
    have hpolicies := forall_mem_concat hr.config.policies
      (show Policy.OneLine { rule with
        name := some acl
        id := some (.ofNat (r.config.policies.countP (·.name == some acl) + 1))
        description := (r.remark.filter (·.1 == acl)).map Prod.snd } from
        { hline with name := hname, description := hdescription })
    exact ⟨{ hr.config with policies := hpolicies }, hr.block, nofun, hr.mapInterfaces, hr.nat⟩
  | ignored => exact hr

theorem IsSound.applyCryptoMap {map : String} (hmap : Text.OneLine map) {line : CryptoMapLine}
    (hline : line.OneLine) : (r.applyCryptoMap map line).IsSound := by
  have hentry (sequence : UInt32) :
      ((r.setTunnel map sequence []).openBlock (.cryptoMap map sequence)).IsSound :=
    (hr.setTunnel hmap sequence (List.forall_mem_nil _)).openBlock hmap
  unfold Reading.applyCryptoMap
  split
  · exact { hr with mapInterfaces := forall_mem_concat hr.mapInterfaces hline }
  · exact hentry _
  · exact hentry _
  · exact hr.setTunnel hmap _ hline
  · exact hr

omit hr in
theorem oneLine_readParenthesized {word : String} (h : Text.OneLine word) :
    ∀ s ∈ readParenthesized word, Text.OneLine s := by
  intro s hs
  obtain ⟨opened, hopened, hclosed⟩ := Option.bind_eq_some_iff.1 hs
  exact (h.withoutPrefix hopened).withoutSuffix hclosed

theorem IsSound.applyServer {name : String} (hname : Text.OneLine name) {operands : List String}
    (hws : ∀ w ∈ operands, IsWord w) : (r.applyServer name operands).IsSound := by
  unfold Reading.applyServer
  split
  · simp only [List.forall_mem_cons] at hws
    exact hr.amendServer hname fun _ hs => { hs with protocol := hws.2.1.oneLine }
  · simp only [List.forall_mem_cons] at hws
    refine IsSound.openBlock (hr.amendServer hname fun _ hs => ?_) hname
    exact { hs with interface := oneLine_readParenthesized hws.1.oneLine
                    host := oneLine_some hws.2.2.1 }
  · simp only [List.forall_mem_cons] at hws
    refine IsSound.openBlock (hr.amendServer hname fun _ hs => ?_) hname
    exact { hs with host := oneLine_some hws.2.1 }
  · exact hr.amendServer hname fun _ hs => hs

theorem IsSound.applyGroupPolicy {name kind : String} (hname : Text.OneLine name)
    (hkind : Text.OneLine kind) : (r.applyGroupPolicy name kind).IsSound := by
  rw [Reading.applyGroupPolicy]
  split
  · exact (hr.amendGroupPolicy hname fun _ hg => hg).openBlock hname
  · exact hr.amendGroupPolicy hname fun _ hg => { hg with kind := forall_mem_some hkind }

theorem IsSound.applyTunnelGroup {name : String} (hname : Text.OneLine name)
    {operands : List String} (hws : ∀ w ∈ operands, IsWord w) :
    (r.applyTunnelGroup name operands).IsSound := by
  unfold Reading.applyTunnelGroup
  split
  · simp only [List.forall_mem_cons] at hws
    exact hr.amendTunnelGroup hname fun _ hg => { hg with kind := oneLine_some hws.2.1 }
  · exact (hr.amendTunnelGroup hname fun _ hg => hg).openBlock hname
  · exact (hr.amendTunnelGroup hname fun _ hg => hg).openBlock hname
  · exact hr.amendTunnelGroup hname fun _ hg => hg

theorem IsSound.apply {d : Directive} (hd : d.OneLine) : (r.apply d).IsSound := by
  have hc := hr.config
  have hempty : Text.OneLine "" := by decide
  unfold Reading.apply
  cases d with
  | bang => exact hr
  | hostname name => exact hr.amend { hc with hostname := forall_mem_some hd } rfl
  | domainName name =>
    exact hr.amend { hc with device := { hc.device with domain := forall_mem_some hd } } rfl
  | interface name => exact hr.openBlock (b := .interface _) { name := hd }
  | objectNetwork name =>
    exact hr.openBlock (b := .object _) ⟨{ name := hd.oneLine, value := hempty }, hd⟩
  | objectService name =>
    exact hr.openBlock (b := .service _) { name := hd, protocol := hempty }
  | objectGroupNetwork name => exact hr.openBlock (b := .group _) { name := hd }
  | accessList acl line => exact hr.applyAcl hd.1 hd.2
  | accessGroup binding =>
    exact hr.amend { hc with accessBindings := forall_mem_append_toList hc.accessBindings hd } rfl
  | route route => exact hr.amend { hc with routes := forall_mem_append_toList hc.routes hd } rfl
  | nat rule => exact hr.addNat hd
  | pool rule => exact hr.addNat hd
  | staticNat rule => exact hr.addNat hd
  | ikePolicy priority => exact hr.openBlock (b := .ikePolicy _) (oneLine_ikePolicy hd)
  | transformSet set =>
    exact hr.amendVpn { hc.vpn with
      transformSets := forall_mem_append_toList hc.vpn.transformSets hd }
  | cryptoMap map line => exact hr.applyCryptoMap hd.1 hd.2
  | aaaServer name operands => exact hr.applyServer hd.1 hd.2
  | groupPolicy name kind => exact hr.applyGroupPolicy hd.1 hd.2
  | tunnelGroup name operands => exact hr.applyTunnelGroup hd.1 hd.2
  | username user => exact hr.amend { hc with users := forall_mem_append_toList hc.users hd } rfl
  | enablePassword secret =>
    exact hr.amend { hc with device := { hc.device with enablePassword := forall_mem_some hd } } rfl
  | password secret =>
    exact hr.amend { hc with device := { hc.device with password := forall_mem_some hd } } rfl
  | logging target =>
    exact hr.amend { hc with management :=
      { hc.management with logging := forall_mem_concat hc.management.logging hd } } rfl
  | snmpServer setting =>
    exact hr.amend { hc with management :=
      { hc.management with snmp := forall_mem_append_toList hc.management.snmp hd } } rfl
  | ssh setting =>
    exact hr.amend { hc with management :=
      { hc.management with ssh := forall_mem_concat hc.management.ssh hd } } rfl
  | http setting =>
    exact hr.amend { hc with management :=
      { hc.management with http := forall_mem_concat hc.management.http hd } } rfl
  | clock setting =>
    exact hr.amend { hc with management :=
      { hc.management with clock := forall_mem_concat hc.management.clock hd } } rfl
  | profile kind name => exact hr.openBlock (b := .profile _) { name := hd.1, kind := hd.2 }
  | other => exact hr.openBlock (b := .skip) trivial

/-- **A line keeps what has been read sound.** -/
theorem IsSound.step {raw : String} (hraw : Text.OneLine raw) : (r.step raw).IsSound := by
  have hl := Line.oneLine_ofText hraw
  have hread := Directive.oneLine_read hl
  rw [Reading.step]
  generalize Line.ofText raw = l at hl hread
  have hline (d : Directive) (hd : d.OneLine) : (r.lineStep l d).IsSound := by
    have hdirective : (if r.flavor.enables d then d else .other).OneLine := by
      split
      · exact hd
      · trivial
    rw [lineStep]
    split
    · next b hblock =>
      split
      · exact hr.blockLine (hr.block b hblock) hl
      · exact hr.closeBlock.apply hdirective
    · split
      · exact hr
      · exact hr.apply hdirective
  split
  · exact hr
  · split
    · exact hr.closeBlock
    · exact hline _ hread

theorem IsSound.run {ls : List String} (hls : ∀ l ∈ ls, Text.OneLine l) :
    (r.run ls).IsSound := by
  induction ls generalizing r with
  | nil => exact hr
  | cons l ls ih =>
    obtain ⟨hl, hls⟩ := List.forall_mem_cons.1 hls
    exact ih (hr.step hl) hls

/-! ### The end -/

omit hr in
theorem oneLine_joinTunnel {mapInterfaces : List (String × String)}
    (hmaps : ∀ p ∈ mapInterfaces, Text.OneLine p.2) {groups : List TunnelGroup}
    (hgroups : ∀ g ∈ groups, g.OneLine) {t : Tunnel} (ht : t.OneLine) :
    (joinTunnel mapInterfaces groups t).OneLine := by
  refine { ht with interface := fun s hs => ?_, preSharedKey := fun s hs => ?_ }
  · rcases Option.or_eq_some_iff.1 hs with hbound | ⟨-, hown⟩
    · obtain ⟨p, hp, rfl⟩ := Option.map_eq_some_iff.1 hbound
      exact hmaps p (List.mem_reverse.1 (List.mem_of_find?_eq_some hp))
    · exact ht.interface s hown
  · rcases Option.or_eq_some_iff.1 hs with hown | ⟨-, hkey⟩
    · exact ht.preSharedKey s hown
    · obtain ⟨g, hg, hkey⟩ := Option.bind_eq_some_iff.1 hkey
      obtain ⟨peer, -, hfind⟩ := Option.bind_eq_some_iff.1 hg
      exact (hgroups g (List.mem_of_find?_eq_some hfind)).preSharedKey s hkey

omit hr in
theorem oneLine_joinPolicy {bindings : List AccessBinding} (hbindings : ∀ b ∈ bindings, b.OneLine)
    {p : Policy} (hp : p.OneLine) : (joinPolicy bindings p).OneLine := by
  refine { hp with sourceZone := fun s hs => ?_ }
  rcases Option.or_eq_some_iff.1 hs with hown | ⟨-, hbound⟩
  · exact hp.sourceZone s hown
  · obtain ⟨b, hb, rfl⟩ := Option.map_eq_some_iff.1 hbound
    exact (hbindings b (List.mem_of_find?_eq_some hb)).interface

theorem IsSound.finish : r.finish.OneLine ∧ ∀ rule ∈ r.finish.nat, IsUnnamed rule := by
  have hclosed := hr.closeBlock
  have hc := hclosed.config
  refine ⟨{ hc with policies := ?_, vpn := { hc.vpn with tunnels := ?_ } }, hclosed.nat⟩
  · exact List.forall_mem_map.2 fun p hp => oneLine_joinPolicy hc.accessBindings (hc.policies p hp)
  · exact List.forall_mem_map.2 fun t ht =>
      oneLine_joinTunnel hr.mapInterfaces hc.vpn.tunnelGroups (hc.vpn.tunnels t ht)

omit hr in
theorem isSound_start (flavor : Flavor) : (start flavor).IsSound where
  config := ({} : Config.OneLine {})
  block := nofun
  remark := nofun
  mapInterfaces := List.forall_mem_nil _
  nat := List.forall_mem_nil _

end Reading

/-! ## A whole text -/

theorem isSound_run (flavor : Flavor) (text : String) :
    ((Reading.start flavor).run (lines text)).IsSound :=
  (Reading.isSound_start flavor).run fun _ hl => oneLine_of_mem_lines hl

/-- **What is read holds no line feed.** -/
theorem oneLine_read (flavor : Flavor) (text : String) : (read flavor text).OneLine :=
  (isSound_run flavor text).finish.1

/-- Translation rules that are read have no names, and translate what one word stands for. -/
theorem isUnnamed_of_mem_nat {flavor : Flavor} {text : String} {rule : NatRule}
    (h : rule ∈ (read flavor text).nat) : IsUnnamed rule :=
  (isSound_run flavor text).finish.2 rule h

end FirewallConfig.Cisco
