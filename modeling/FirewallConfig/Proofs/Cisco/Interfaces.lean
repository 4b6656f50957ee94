import FirewallConfig.Proofs.Cisco.Blocks
import FirewallConfig.Proofs.Cisco.Foreign
import FirewallConfig.Proofs.Config.Network

/-!
# Proofs/Cisco/Interfaces — the interfaces of a written configuration are read back

The block of an interface is its header, the lines below it, and a line that ends it.  Only such a
block has a header of an interface, and so the interfaces of a written text are those of its blocks
(`records_writeLines`).  The lines below a header each give the record one of its fields, and so an
interface is read back field by field (`foldl_bodyLines`).
-/

namespace FirewallConfig

namespace Cisco

open Text

/-! ## Blocks in a text -/

/-- The line belongs to the block above it: it begins with a blank and a keyword. -/
def IsBody (raw : String) : Prop :=
  isIndented raw = true ∧ ∃ word, (words raw).head? = some word ∧ beginsWith "!" word = false

theorem isBody_below {keyword : String} (hkeyword : IsWord keyword)
    (hbang : beginsWith "!" keyword = false) (text : String) :
    IsBody (" " ++ keyword ++ " " ++ text) :=
  ⟨isIndented_below keyword text, keyword, by rw [words_below hkeyword]; rfl, hbang⟩

namespace IsBody

variable {raw : String} (h : IsBody raw)
include h

theorem endsBlock_eq : endsBlock raw = false := by
  obtain ⟨hindented, word, hword, hbang⟩ := h
  rw [endsBlock, hword, hindented, Option.any_some, hbang]
  rfl

theorem isEmpty_eq : (Line.ofText raw).text.isEmpty = false := by
  obtain ⟨-, word, hword, -⟩ := h
  cases hempty : (Line.ofText raw).text.isEmpty with
  | false => rfl
  | true =>
    rw [words_of_isEmpty_trim hempty] at hword
    cases hword

end IsBody

theorem endsBlock_bang : endsBlock "!" = true := by decide

/-- The lines below a header are read up to the line that ends its block. -/
theorem linesBelow_append_bang {body : List String} (h : ∀ l ∈ body, IsBody l) (ls : List String) :
    linesBelow (body ++ "!" :: ls) = body.map Line.ofText := by
  induction body with
  | nil => exact linesBelow_cons_of_endsBlock endsBlock_bang ls
  | cons raw body ih =>
    obtain ⟨hraw, hbody⟩ := List.forall_mem_cons.1 h
    rw [List.cons_append, linesBelow_cons_of_not_endsBlock hraw.endsBlock_eq, hraw.isEmpty_eq,
      ih hbody]
    rfl

namespace BlockKind

variable {α β : Type} (k : BlockKind α β) (flavor : Flavor)

/-- Lines that are no headers give no records. -/
theorem records_append_of_none {ls : List String} (h : ∀ l ∈ ls, k.headerOf? flavor l = none)
    (ms : List String) : k.records flavor (ls ++ ms) = k.records flavor ms := by
  induction ls with
  | nil => rfl
  | cons l ls ih =>
    obtain ⟨hl, hls⟩ := List.forall_mem_cons.1 h
    rw [List.cons_append, records_cons, hl, ih hls]
    rfl

/-- **A block gives one record**, which the lines below its header build. -/
theorem records_block {header : String} {a : α} (hheader : k.headerOf? flavor header = some a)
    {body : List String} (hbody : ∀ l ∈ body, IsBody l) (ls : List String) :
    k.records flavor (header :: (body ++ "!" :: ls))
      = k.build a (body.map Line.ofText) :: k.records flavor ls := by
  have hnone : ∀ l ∈ body, k.headerOf? flavor l = none := fun l hl =>
    k.headerOf?_eq_none (hbody l hl).endsBlock_eq flavor
  have hbang : k.headerOf? flavor "!" = none := k.headerOf?_of_bang flavor (by decide)
  rw [records_cons, hheader, linesBelow_append_bang hbody, k.records_append_of_none flavor hnone,
    records_cons, hbang]
  rfl

end BlockKind

/-! ## The lines of an interface -/

/-- The lines below the header of an interface. -/
def bodyLines (c : Config) (i : Interface) : List String :=
  i.comment.toList.map (" description " ++ ·)
    ++ (i.vlan.toList.map fun vlan => s!" vlan {vlan}")
    ++ [" nameif " ++ nameif c i]
    ++ ((securityLevel c i).toList.map fun level => s!" security-level {level}")
    ++ [match i.address? with
      | some (ip, mask) => s!" ip address {ip} {mask}"
      | none => " no ip address"]
    ++ (if i.enabled then [] else [" shutdown"])

theorem interfaceLines_eq (c : Config) (i : Interface) :
    interfaceLines c i = s!"interface {i.name}" :: (bodyLines c i ++ ["!"]) := by
  rw [interfaceLines, bodyLines, block]
  rfl

theorem isBody_of_mem_bodyLines (c : Config) (i : Interface) : ∀ l ∈ bodyLines c i, IsBody l := by
  have hbelow {line : String} (keyword text : String) (hline : line = " " ++ keyword ++ " " ++ text)
      (hkeyword : IsWord keyword) (hbang : beginsWith "!" keyword = false) : IsBody line :=
    hline ▸ isBody_below hkeyword hbang text
  rw [bodyLines]
  simp only [List.forall_mem_append, List.forall_mem_map, List.forall_mem_singleton]
  refine ⟨⟨⟨⟨⟨fun d _ => ?_, fun vlan _ => ?_⟩, ?_⟩, fun level _ => ?_⟩, ?_⟩, ?_⟩
  · exact hbelow "description" d rfl (by decide) (by decide)
  · exact hbelow "vlan" (toString vlan) rfl (by decide) (by decide)
  · exact hbelow "nameif" (nameif c i) rfl (by decide) (by decide)
  · exact hbelow "security-level" (toString level) rfl (by decide) (by decide)
  · split
    · next ip mask _ =>
      exact hbelow "ip" s!"address {ip} {mask}" rfl (by decide) (by decide)
    · exact hbelow "no" "ip address" (by decide) (by decide) (by decide)
  · split
    · exact List.forall_mem_nil _
    · exact List.forall_mem_singleton.2 ⟨by decide, "shutdown", by decide, by decide⟩

/-- An interface with an address as it is read back. -/
def interfaceReadBack (c : Config) (i : Interface) : Interface where
  name := i.name
  ip := i.ip
  mask := i.mask
  nickname := (words (nameif c i)).head?
  comment := i.comment.map trim
  securityLevel := securityLevel c i
  vlan := i.vlan
  enabled := i.enabled

/-! ## What the lines say -/

/-- The interface with one more line. -/
def withLine (i : Interface) (raw : String) : Interface :=
  interfaceLine i (Line.ofText raw) (words raw)

theorem withLine_description (i : Interface) (d : String) :
    withLine i (" description " ++ d) = { i with comment := some (trim d) } := by
  rw [withLine, descriptionLine_eq, words_below (by decide), interfaceLine, after_descriptionLine]

theorem withLine_vlan (i : Interface) (vlan : UInt16) :
    withLine i s!" vlan {vlan}" = { i with vlan := some vlan } := by
  have hline : s!" vlan {vlan}" = " " ++ "vlan" ++ " " ++ toString vlan := rfl
  have hword : words (toString vlan) = [toString vlan] :=
    (isNumeral_toString vlan.toNat).isWord.words_eq
  rw [withLine, hline, words_below (by decide), hword, interfaceLine, readUInt16_toString]

theorem withLine_nameif {i : Interface} (hi : i.nickname = none) (name : String) :
    withLine i (" nameif " ++ name) = { i with nickname := (words name).head? } := by
  have hline : " nameif " ++ name = " " ++ "nameif" ++ " " ++ name := rfl
  rw [withLine, hline, words_below (by decide)]
  cases words name with
  | nil => cases i; cases hi; rfl
  | cons word rest => rfl

theorem withLine_securityLevel (i : Interface) (level : UInt8) :
    withLine i s!" security-level {level}" = { i with securityLevel := some level } := by
  have hline : s!" security-level {level}" = " " ++ "security-level" ++ " " ++ toString level := rfl
  have hword : words (toString level) = [toString level] :=
    (isNumeral_toString level.toNat).isWord.words_eq
  rw [withLine, hline, words_below (by decide), hword, interfaceLine, readUInt8_toString]

theorem withLine_address (i : Interface) {ip mask : String} (hip : isIPv4 ip = true)
    (hmask : IsWord mask) :
    withLine i s!" ip address {ip} {mask}" = { i with ip := some ip, mask := some mask } := by
  have hline : s!" ip address {ip} {mask}"
      = " " ++ "ip" ++ " " ++ ("address" ++ " " ++ ip ++ " " ++ mask) := rfl
  have hwords : words ("address" ++ " " ++ ip ++ " " ++ mask) = ["address", ip, mask] := by
    rw [words_append, words_pair (by decide) (isWord_of_isIPv4 hip), hmask.words_eq]
    rfl
  rw [withLine, hline, words_below (by decide), hwords, interfaceLine, if_pos hip]

/-- **The lines of an interface with an address say what the interface is.** -/
theorem foldl_bodyLines {c : Config} {i : Interface} {ip mask : String}
    (haddress : i.address? = some (ip, mask)) (hip : isIPv4 ip = true)
    (hmask : mask ∈ Netmask.table) :
    (bodyLines c i).foldl withLine { name := i.name } = interfaceReadBack c i := by
  have hword : IsWord mask := isWord_of_isIPv4 (Netmask.isIPv4_of_mem_table hmask)
  have hcomment : (i.comment.toList.map (" description " ++ ·)).foldl withLine { name := i.name }
      = { name := i.name, comment := i.comment.map trim } := by
    cases i.comment with
    | none => rfl
    | some d => exact withLine_description _ d
  have hvlan {j : Interface} (hj : j.vlan = none) :
      (i.vlan.toList.map fun vlan => s!" vlan {vlan}").foldl withLine j
        = { j with vlan := i.vlan } := by
    cases i.vlan with
    | none => cases j; cases hj; rfl
    | some vlan => exact withLine_vlan j vlan
  have hlevel {j : Interface} (hj : j.securityLevel = none) :
      ((securityLevel c i).toList.map fun level => s!" security-level {level}").foldl withLine j
        = { j with securityLevel := securityLevel c i } := by
    cases securityLevel c i with
    | none => cases j; cases hj; rfl
    | some level => exact withLine_securityLevel j level
  have hshutdown {j : Interface} (hj : j.enabled = true) :
      (if i.enabled then [] else [" shutdown"]).foldl withLine j
        = { j with enabled := i.enabled } := by
    cases i.enabled with
    | true => cases j; cases hj; rfl
    | false => rfl
  obtain ⟨hip', hmask'⟩ := Interface.address?_eq_some_iff.1 haddress
  rw [bodyLines, haddress, interfaceReadBack, hip', hmask']
  simp only [List.foldl_append, List.foldl_cons, List.foldl_nil]
  rw [hcomment, hvlan rfl, withLine_nameif rfl, hlevel rfl, withLine_address _ hip hword,
    hshutdown rfl]

/-! ## The whole text -/

theorem headerOf?_interface {flavor : Flavor} {name : String} (hname : IsWord name) :
    BlockKind.interface.headerOf? flavor s!"interface {name}" = some name := by
  have hline : s!"interface {name}" = unwords ["interface", name] := rfl
  have hws : ∀ w ∈ ["interface", name], IsWord w := by simp +decide [hname]
  rw [hline, BlockKind.headerOf?, isIndented_unwords (by decide), words_unwords_of_isWord hws]
  rfl

/-- A line that begins with another letter is no header of an interface. -/
theorem headerOf?_of_head (flavor : Flavor) {raw : String} (h : raw.toList.head? ≠ some 'i') :
    BlockKind.interface.headerOf? flavor raw = none := by
  cases hraw : isIndented raw with
  | true => simp [BlockKind.headerOf?, hraw]
  | false =>
    have hwords : (words raw).head? ≠ some "interface" := fun hhead =>
      h (head?_of_words hraw hhead)
    have hheader {ws : List String} (hws : ws.head? ≠ some "interface") :
        BlockKind.interface.header? ws = none := by
      unfold BlockKind.interface
      dsimp only
      split
      · exact absurd rfl hws
      · rfl
    rw [BlockKind.headerOf?, hheader hwords, ite_self]

/-- The record that the block of an interface builds. -/
def blockReadBack (c : Config) (i : Interface) : Interface :=
  (bodyLines c i).foldl withLine { name := i.name }

theorem name_blockReadBack (c : Config) (i : Interface) : (blockReadBack c i).name = i.name := by
  have hfold : ∀ (ls : List String) (j : Interface), (ls.foldl withLine j).name = j.name := by
    intro ls
    induction ls with
    | nil => exact fun _ => rfl
    | cons l ls ih => exact fun j => (ih _).trans (name_interfaceLine j _ _)
  exact hfold _ _

theorem records_flatMap_interfaceLines (c : Config) (flavor : Flavor) {is : List Interface}
    (hnames : ∀ i ∈ is, IsWord i.name) (ls : List String) :
    BlockKind.interface.records flavor (is.flatMap (interfaceLines c) ++ ls)
      = is.map (blockReadBack c) ++ BlockKind.interface.records flavor ls := by
  induction is with
  | nil => rfl
  | cons i is ih =>
    obtain ⟨hname, hnames⟩ := List.forall_mem_cons.1 hnames
    have hbuild : BlockKind.interface.build i.name ((bodyLines c i).map Line.ofText)
        = blockReadBack c i := by
      rw [BlockKind.build, List.foldl_map]
      rfl
    rw [List.flatMap_cons, List.append_assoc, interfaceLines_eq, List.cons_append, List.append_assoc,
      List.singleton_append, BlockKind.interface.records_block flavor (headerOf?_interface hname)
        (isBody_of_mem_bodyLines c i), hbuild, ih hnames]
    rfl

/-- **The interfaces of a written text are those of its blocks**, one for each. -/
theorem records_writeLines {c : Config} (hkinds : ∀ p ∈ c.securityProfiles, p.kind ∈ profileKinds)
    (flavor : Flavor) (origin : Dialect) (hnames : ∀ i ∈ c.interfaces, IsWord i.name) :
    BlockKind.interface.records flavor (writeLines flavor origin c)
      = c.interfaces.map (blockReadBack c) := by
  obtain ⟨before, between, after, hlines, hbefore, hbetween, hafter⟩ :=
    exists_writeLines_eq_network hkinds flavor origin
  have hroutes : ∀ l ∈ part (c.routes.map (routeLine c)), l.toList.head? ≠ some 'i' := by
    refine forall_mem_part (by decide) (List.forall_mem_map.2 fun r _ => ?_)
    unfold routeLine
    generalize nameifOr c egress r.interface = interface
    dsimp only
    split <;> simp [notConverted]
  have hrest : ∀ l ∈ between ++ (part (c.routes.map (routeLine c)) ++ after),
      BlockKind.interface.headerOf? flavor l = none := by
    simp only [List.forall_mem_append]
    exact ⟨fun l hl => headerOf?_of_head flavor (hbetween l hl).1,
      fun l hl => headerOf?_of_head flavor (hroutes l hl),
      fun l hl => headerOf?_of_head flavor (hafter l hl).1⟩
  have hnone := BlockKind.interface.records_append_of_none flavor hrest []
  rw [List.append_nil] at hnone
  rw [hlines, BlockKind.interface.records_append_of_none flavor fun l hl =>
      headerOf?_of_head flavor (hbefore l hl).1,
    records_flatMap_interfaceLines c flavor hnames, hnone]
  exact List.append_nil _

theorem interfaces_read (flavor : Flavor) (text : String) : (read flavor text).interfaces
    = BlockKind.interface.stored ((Reading.start flavor).run (lines text)).closeBlock.kept := rfl

/-- **Under the name of an interface stands what its block says**, if all names differ. -/
theorem interface?_read_write {c : Config} (hc : c.OneLine)
    (hkinds : ∀ p ∈ c.securityProfiles, p.kind ∈ profileKinds) (flavor : Flavor) (origin : Dialect)
    (hnodup : (c.interfaces.map (·.name)).Nodup) (hnames : ∀ i ∈ c.interfaces, IsWord i.name)
    {i : Interface} (hi : i ∈ c.interfaces) :
    (read flavor (write flavor origin c)).interface? i.name = some (blockReadBack c i) := by
  have hkeys : ((c.interfaces.map (blockReadBack c)).map (·.name)).Nodup := by
    have hname : (·.name) ∘ blockReadBack c = (·.name) := funext (name_blockReadBack c)
    rwa [List.map_map, hname]
  have hput : (c.interfaces.map (blockReadBack c)).foldl (fun is i => putBy (·.name) i is) []
      = c.interfaces.map (blockReadBack c) := foldl_putBy_of_nodup Interface.name hkeys
  have hlines := oneLine_of_mem_writeLines groupKind hc hkinds flavor origin
  have hstored : (read flavor (write flavor origin c)).interfaces
      = c.interfaces.map (blockReadBack c) := by
    rw [write, interfaces_read, Reading.run_lines_unlines _ hlines, BlockKind.stored_read,
      records_writeLines hkinds flavor origin hnames]
    exact hput
  rw [Config.interface?, hstored]
  exact find?_map_of_nodup Interface.name (name_blockReadBack c) hnodup hi

end Cisco

end FirewallConfig
