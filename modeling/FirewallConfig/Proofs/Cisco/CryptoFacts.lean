import FirewallConfig.Proofs.Cisco.CryptoNames
import FirewallConfig.Proofs.Cisco.Foreign
import FirewallConfig.Proofs.Cisco.Standing

/-!
# Proofs/Cisco/CryptoFacts — what a written text says about tunnels

The directives of a text about tunnels define policies, transform sets and tunnel groups, and they
open and bind the entries of crypto maps (`cryptoFacts`).  Of a written text these are what its part
about tunnels says, kind by kind (`cryptoFacts_write`): a line says something about tunnels only if
it begins with one of two words, and the other parts have no such line.
-/

namespace FirewallConfig.Cisco

open Text

/-- What a directive says about tunnels. -/
inductive CryptoFact where
  /-- There is a policy for the key exchange. -/
  | policy (priority : String)
  /-- There is a transform set. -/
  | set (name : String)
  /-- The entry of a crypto map has a setting. -/
  | entry (map : String) (sequence : UInt32) (setting : List String)
  /-- A crypto map serves an interface. -/
  | bound (map interface : String)
  /-- There is a tunnel group. -/
  | group (name : String)
deriving DecidableEq, Repr

/-- What the directive says about tunnels. -/
def Directive.crypto? : Directive → Option CryptoFact
  | .ikePolicy priority => some (.policy priority)
  | .transformSet (some set) => some (.set set.name)
  | .cryptoMap map (.entry sequence setting) => some (.entry map sequence setting)
  | .cryptoMap map (.bind served) => some (.bound map served)
  | .tunnelGroup name operands => if operands.head? = some "type" then some (.group name) else none
  | _ => none

/-- What the line says about tunnels.  It stands alone. -/
def Line.crypto? (l : Line) : Option CryptoFact :=
  if l.indented then none else (Directive.read l).crypto?

/-- What the lines say about tunnels. -/
def factsOf (ls : List String) : List CryptoFact := ls.filterMap fun raw => (Line.ofText raw).crypto?

/-- What the text says about tunnels. -/
def cryptoFacts (text : String) : List CryptoFact := factsOf (lines text)

theorem factsOf_append (ls ms : List String) : factsOf (ls ++ ms) = factsOf ls ++ factsOf ms :=
  List.filterMap_append

theorem factsOf_cons {raw : String} {fact : CryptoFact} (h : (Line.ofText raw).crypto? = some fact)
    (ls : List String) : factsOf (raw :: ls) = fact :: factsOf ls := List.filterMap_cons_some h

theorem factsOf_map {α : Type} {f : α → String} {g : α → CryptoFact} {as : List α}
    (h : ∀ a ∈ as, (Line.ofText (f a)).crypto? = some (g a)) : factsOf (as.map f) = as.map g := by
  rw [factsOf, List.filterMap_map, ← List.filterMap_eq_map]
  exact List.filterMap_congr h

theorem factsOf_flatMap {α : Type} (f : α → List String) (as : List α) :
    factsOf (as.flatMap f) = as.flatMap fun a => factsOf (f a) := List.filterMap_flatMap

/-! ## One line -/

section Line

variable {raw : String}

/-- What a line says about tunnels is said by its words. -/
theorem crypto?_ofText (raw : String) : (Line.ofText raw).crypto?
    = if isIndented raw then none
      else (Directive.readWords (Line.ofText raw) (words raw)).crypto? := by
  have hread : (Directive.read (Line.ofText raw)).crypto?
      = (Directive.readWords (Line.ofText raw) (words raw)).crypto? := by
    rw [Directive.read]
    split
    · next h =>
      have hother : Directive.readWords (Line.ofText raw) (words raw) = .other :=
        Directive.readWords_of_bang _ h
      rw [hother]
      rfl
    · rfl
  rw [Line.crypto?, hread]
  rfl

theorem crypto?_withoutReturn (raw : String) :
    (Line.ofText (withoutReturn raw)).crypto? = (Line.ofText raw).crypto? := by
  rcases ofText_withoutReturn raw with h | ⟨h, rfl⟩
  · rw [h]
  · rw [h]
    rfl

theorem words_of_eq_unwords {ws : List String} (hws : ∀ v ∈ ws, IsWord v) {s : String}
    (hline : raw = unwords (ws ++ [s])) : words raw = ws ++ words s := by
  rw [hline, words_unwords, List.flatMap_append, flatMap_words hws, List.flatMap_singleton]

/-- What the words of a line say is said by the line. -/
theorem crypto?_of_eq_unwords {w : String} {ws : List String} (hws : ∀ v ∈ w :: ws, IsWord v)
    {s : String} (hline : raw = unwords (w :: ws ++ [s])) : (Line.ofText raw).crypto?
      = (Directive.readWords (Line.ofText raw) (w :: ws ++ words s)).crypto? := by
  have hindented : isIndented raw = false :=
    hline ▸ isIndented_unwords (hws w List.mem_cons_self) (ws ++ [s])
  rw [crypto?_ofText, hindented, if_neg Bool.false_ne_true, words_of_eq_unwords hws hline]

theorem Directive.Reads.head_of_crypto? {l : Line} {ws : List String} {d : Directive}
    {fact : CryptoFact} (h : Directive.Reads l ws d) (hfact : d.crypto? = some fact) :
    ws.head? = some "crypto"
      ∨ ws.head? = some "tunnel-group" ∧ ∃ name ∈ ws, fact = .group name := by
  cases h with
  | ikePolicy | transformSet | cryptoMap => exact .inl rfl
  | tunnelGroup name word rest =>
    refine .inr ⟨rfl, name, List.mem_cons_of_mem _ List.mem_cons_self, ?_⟩
    obtain ⟨-, ⟨⟩⟩ := Option.ite_none_right_eq_some.1 hfact
    rfl
  | _ => cases hfact

/-- **What a line says about tunnels begins with one of two words**, and under one of them it is a
group. -/
theorem head_of_crypto? {fact : CryptoFact} (h : (Line.ofText raw).crypto? = some fact) :
    isIndented raw = false ∧ ((words raw).head? = some "crypto"
      ∨ (words raw).head? = some "tunnel-group" ∧ ∃ name ∈ words raw, fact = .group name) := by
  rw [crypto?_ofText] at h
  obtain ⟨hraw, hfact⟩ := Option.ite_none_left_eq_some.1 h
  exact ⟨Bool.eq_false_iff.2 hraw, (Directive.reads_readWords _ _).head_of_crypto? hfact⟩

end Line

/-! ## Lines that say nothing -/

/-- No line that begins with one of the texts begins with a word that tunnels are spoken of with. -/
def AreQuiet (starts : List String) : Prop :=
  ∀ word ∈ ["crypto", "tunnel-group"], ∀ s ∈ starts,
    ¬ s.toList <+: word.toList ∧ ¬ word.toList <+: s.toList

instance (starts : List String) : Decidable (AreQuiet starts) :=
  inferInstanceAs (Decidable (∀ word ∈ _, _))

section Quiet

variable {starts : List String} {ls : List String}

/-- **Lines that begin otherwise say nothing about tunnels.** -/
theorem factsOf_eq_nil (hls : ∀ l ∈ ls, Begins starts l) (hstarts : AreQuiet starts) :
    factsOf ls = [] := by
  refine List.filterMap_eq_nil_iff.2 fun raw hraw => Option.eq_none_iff_forall_ne_some.2 ?_
  intro fact hfact
  obtain ⟨hindented, hhead | ⟨hhead, -⟩⟩ := head_of_crypto? hfact
  · exact (hls raw hraw).head?_words_ne hindented (hstarts _ (by decide)) hhead
  · exact (hls raw hraw).head?_words_ne hindented (hstarts _ (by decide)) hhead

/-- Lines that do not begin like those of the other things say of nothing but groups. -/
theorem exists_group_of_mem_factsOf (hls : ∀ l ∈ ls, Begins tunnelGroupStarts l) {fact : CryptoFact}
    (hfact : fact ∈ factsOf ls) : ∃ name, IsWord name ∧ fact = .group name := by
  obtain ⟨raw, hraw, hfact⟩ := List.mem_filterMap.1 hfact
  obtain ⟨hindented, hhead | ⟨-, name, hname, rfl⟩⟩ := head_of_crypto? hfact
  · exact absurd hhead ((hls raw hraw).head?_words_ne hindented (by decide))
  · exact ⟨name, isWord_of_mem_words hname, rfl⟩

end Quiet

/-! ## Lines that say something -/

theorem factsOf_ikePolicyLines {p : IkePolicy} (hp : IsWord p.priority) :
    factsOf (ikePolicyLines p) = [.policy p.priority] := by
  have hline : s!"crypto ikev1 policy {p.priority}"
      = unwords (["crypto", "ikev1", "policy"] ++ [p.priority]) := by
    apply String.toList_inj.1
    simp [unwords, String.intercalate_cons_cons]
  have hheader : (Line.ofText s!"crypto ikev1 policy {p.priority}").crypto?
      = some (.policy p.priority) := by
    rw [crypto?_of_eq_unwords (by decide) hline, hp.words_eq]
    rfl
  have hbegins : ∀ l ∈ (ikePolicyLines p).tail, Begins [" ", "!"] l := by
    simp [ikePolicyLines, block, Begins]
  have hbelow : factsOf (ikePolicyLines p).tail = [] := factsOf_eq_nil hbegins (by decide)
  rw [← hbelow]
  exact factsOf_cons hheader _

theorem name_readTransformSet (name : String) (algorithms : List String) :
    (readTransformSet (name :: algorithms)).map (·.name) = some name := by
  rcases algorithms with - | ⟨encryption, - | ⟨hash, rest⟩⟩ <;> rfl

theorem crypto?_transformSetLine {s : TransformSet} (hs : IsWord s.name) :
    (Line.ofText (transformSetLine s)).crypto? = some (.set s.name) := by
  unfold transformSetLine
  generalize s!"{s.protocol}-{s.encryption}" = encryption
  generalize s!"{s.protocol}-{s.hash}-hmac" = hash
  dsimp only
  have hline : s!"crypto ipsec ikev1 transform-set {s.name} {encryption} {hash}"
      = unwords (["crypto", "ipsec", "ikev1", "transform-set", s.name]
        ++ [encryption ++ " " ++ hash]) := by
    apply String.toList_inj.1
    simp [unwords, String.intercalate_cons_cons]
  rw [crypto?_of_eq_unwords (by simp +decide [hs]) hline]
  generalize words (encryption ++ " " ++ hash) = algorithms
  have hread (l : Line) : Directive.readWords l
      (["crypto", "ipsec", "ikev1", "transform-set", s.name] ++ algorithms)
        = .transformSet (readTransformSet (s.name :: algorithms)) := rfl
  obtain ⟨set, hset, hname⟩ := Option.map_eq_some_iff.1 (name_readTransformSet s.name algorithms)
  rw [hread, hset, ← hname]
  rfl

section Maps

variable {map : String} (hmap : IsWord map)
include hmap

/-- The line of a setting says it of its entry. -/
theorem crypto?_entry {number : Nat} (hnumber : number < UInt32.size) {keywords : List String}
    (hkeywords : ∀ w ∈ keywords, IsWord w) (text : String) {setting : String}
    (hsetting : setting = unwords (keywords ++ [text])) :
    (Line.ofText s!"crypto map {map} {number} {setting}").crypto?
      = some (.entry map (.ofNat number) (keywords ++ words text)) := by
  have hline : s!"crypto map {map} {number} {setting}"
      = unwords (["crypto", "map", map, toString number] ++ [setting]) := by
    apply String.toList_inj.1
    simp [unwords, String.intercalate_cons_cons]
  have hword : IsWord (toString number) := (isNumeral_toString number).isWord
  have hwords : ∀ v ∈ ["crypto", "map", map, toString number], IsWord v := by
    simp only [List.forall_mem_cons]
    exact ⟨by decide, by decide, hmap, hword, List.forall_mem_nil _⟩
  have hnumeral := readUInt32_toString hnumber
  have hread (rest : List String) :
      readCryptoMap (toString number) rest = .entry (.ofNat number) rest := by
    unfold readCryptoMap
    split
    · next heq =>
      rw [heq] at hnumeral
      cases hnumeral
    · rw [hnumeral]
  rw [crypto?_of_eq_unwords hwords hline, words_of_eq_unwords hkeywords hsetting]
  exact congrArg (fun line => (Directive.cryptoMap map line).crypto?) (hread _)

/-- The line of a binding says it if the interface is called anything. -/
theorem crypto?_binding (interface : String) :
    (Line.ofText s!"crypto map {map} interface {interface}").crypto?
      = (words interface).head?.map (.bound map) := by
  have hline : s!"crypto map {map} interface {interface}"
      = unwords (["crypto", "map", map, "interface"] ++ [interface]) := by
    apply String.toList_inj.1
    simp [unwords, String.intercalate_cons_cons]
  rw [crypto?_of_eq_unwords (by simp +decide [hmap]) hline]
  cases words interface <;> rfl

end Maps

/-! ## The parts about tunnels -/

/-- The settings of the entry that a tunnel is written as. -/
def entrySettings (c : Config) (t : Tunnel) (sets : String) : List (List String) :=
  (tunnelAcl c t).2.toList.map (fun acl => "match" :: "address" :: words acl)
    ++ t.peer.toList.map (fun peer => "set" :: "peer" :: words peer)
    ++ ["set" :: "ikev1" :: "transform-set" :: words sets]

/-- **The lines of a tunnel say its settings, all of one entry.** -/
theorem factsOf_tunnelLines (c : Config) {t : Tunnel} {position : Nat}
    (hmap : IsWord (mapEntry t position).1) (hnumber : (mapEntry t position).2 < UInt32.size)
    (sets : String) : factsOf (tunnelLines c position t sets)
      = (entrySettings c t sets).map
        (.entry (mapEntry t position).1 (.ofNat (mapEntry t position).2)) := by
  have hbang : ∀ l ∈ t.description.toList.map ("! " ++ ·), Begins ["!"] l :=
    forall_begins_map_append (by decide) _
  have hdescription : factsOf (t.description.toList.map ("! " ++ ·)) = [] :=
    factsOf_eq_nil hbang (by decide)
  have hacl : factsOf (tunnelAcl c t).1 = [] := factsOf_eq_nil (begins_tunnelAcl c t) (by decide)
  unfold tunnelLines entrySettings
  generalize mapEntry t position = entry at hmap hnumber
  generalize tunnelAcl c t = acls at hacl
  obtain ⟨map, number⟩ := entry
  obtain ⟨aclLines, acl⟩ := acls
  dsimp only at hmap hnumber hacl ⊢
  have haddress (acl : String) :
      s!"match address {acl}" = unwords (["match", "address"] ++ [acl]) := by
    apply String.toList_inj.1
    simp [unwords, String.intercalate_cons_cons]
  have hpeer (peer : String) : s!"set peer {peer}" = unwords (["set", "peer"] ++ [peer]) := by
    apply String.toList_inj.1
    simp [unwords, String.intercalate_cons_cons]
  have hsets : s!"set ikev1 transform-set {sets}"
      = unwords (["set", "ikev1", "transform-set"] ++ [sets]) := by
    apply String.toList_inj.1
    simp [unwords, String.intercalate_cons_cons]
  have haddressFacts := factsOf_map fun (text : String) (_ : text ∈ acl.toList) =>
    crypto?_entry hmap hnumber (by decide) text (haddress text)
  have hpeerFacts := factsOf_map fun (text : String) (_ : text ∈ t.peer.toList) =>
    crypto?_entry hmap hnumber (by decide) text (hpeer text)
  have hsetFact := crypto?_entry hmap hnumber (by decide) sets hsets
  rw [factsOf_append, factsOf_append, factsOf_append, factsOf_append, hdescription, hacl,
    haddressFacts, hpeerFacts, factsOf_cons hsetFact, List.map_append, List.map_append,
    List.map_map, List.map_map]
  rfl

/-- **Bindings are said, each whose interface is called anything.** -/
theorem factsOf_mapBindingLines {bindings : List (String × String)}
    (hmaps : ∀ b ∈ bindings, IsWord b.1) : factsOf (mapBindingLines bindings)
      = bindings.filterMap fun b => (words b.2).head?.map (.bound b.1) := by
  have henable (interface : String) : (Line.ofText s!"crypto ikev1 enable {interface}").crypto?
      = none := by
    have hline : s!"crypto ikev1 enable {interface}"
        = unwords (["crypto", "ikev1", "enable"] ++ [interface]) := by
      apply String.toList_inj.1
      simp [unwords, String.intercalate_cons_cons]
    rw [crypto?_of_eq_unwords (by decide) hline]
    rfl
  have hlines : mapBindingLines bindings
      = (bindings.map fun b => s!"crypto map {b.1} interface {b.2}")
        ++ (bindings.map Prod.snd).eraseDups.map fun interface =>
          s!"crypto ikev1 enable {interface}" := rfl
  have hbindings : factsOf (bindings.map fun b => s!"crypto map {b.1} interface {b.2}")
      = bindings.filterMap fun b => (words b.2).head?.map (.bound b.1) := by
    rw [factsOf, List.filterMap_map]
    exact List.filterMap_congr fun b hb => crypto?_binding (hmaps b hb) b.2
  have henables : factsOf ((bindings.map Prod.snd).eraseDups.map fun interface =>
      s!"crypto ikev1 enable {interface}") = [] :=
    List.filterMap_eq_nil_iff.2 (List.forall_mem_map.2 fun interface _ => henable interface)
  rw [hlines, factsOf_append, hbindings, henables, List.append_nil]

/-- The lines of a tunnel group say it if its name is a word. -/
theorem mem_factsOf_tunnelGroupLines {g : TunnelGroup} (hname : IsWord g.name) :
    .group g.name ∈ factsOf (tunnelGroupLines g) := by
  have hheader (kind : String) :
      (Line.ofText s!"tunnel-group {g.name} type {kind}").crypto? = some (.group g.name) := by
    have hline : s!"tunnel-group {g.name} type {kind}"
        = unwords (["tunnel-group", g.name, "type"] ++ [kind]) := by
      apply String.toList_inj.1
      simp [unwords, String.intercalate_cons_cons]
    rw [crypto?_of_eq_unwords (by simp +decide [hname]) hline]
    rfl
  exact List.mem_filterMap.2 ⟨_, List.mem_append_left _ List.mem_cons_self, hheader _⟩

end FirewallConfig.Cisco
