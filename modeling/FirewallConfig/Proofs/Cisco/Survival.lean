import FirewallConfig.Proofs.Cisco.Header
import FirewallConfig.Proofs.Cisco.Objects
import FirewallConfig.Proofs.Cisco.OneLine
import FirewallConfig.Proofs.Cisco.Profiles

/-!
# Proofs/Cisco/Survival — address objects on the way to the managed product

A written text opens a block of an address object in two places: where the object is defined, and
again where a translation rule stands in it.  The second block holds no value if the rule names its
object, and what is read back under a name is the block that closes last.  So an object is kept
exactly if no rule opens its block again, or the last such block says the same
(`addressObject_kept_iff`).
-/

namespace FirewallConfig.Cisco

open Text

/-! ## Single lines -/

namespace Objects

/-- Blank lines need no case of their own. -/
theorem step_eq (s : Objects) (raw : String) :
    s.step raw
      = match Directive.read (Line.ofText raw) with
        | .bang => s.close
        | d =>
          if (Line.ofText raw).indented || d == .other then s.blockLine (Line.ofText raw)
          else s.close.apply d := by
  rw [step]
  split
  · next hempty =>
    have hwords : (Line.ofText raw).words = [] := words_of_isEmpty_trim hempty
    have hline (o : AddressObject) : objectLine o (Line.ofText raw) [] = o := rfl
    have hread : Directive.read (Line.ofText raw) = .other := by rw [Directive.read, hwords]; rfl
    have hblock : s.blockLine (Line.ofText raw) = s := by
      simp only [blockLine, hwords, hline, Option.map_id']
    rw [hread]
    dsimp only
    rw [if_pos (by simp), hblock]
  · rfl

theorem step_bang (s : Objects) {raw : String}
    (h : (words raw).head?.any (beginsWith "!") = true) : s.step raw = s.close := by
  have hwords : (Line.ofText raw).words.head?.any (beginsWith "!") = true := h
  rw [step_eq, Directive.read, if_pos hwords]

/-- A line below a header is a line of the open block. -/
theorem step_of_isIndented (s : Objects) {raw : String} (hraw : isIndented raw = true)
    (hbang : (words raw).head?.any (beginsWith "!") = false) :
    s.step raw = s.blockLine (Line.ofText raw) := by
  have hindented : (Line.ofText raw).indented = true := hraw
  have hread : Directive.read (Line.ofText raw) ≠ .bang := Directive.read_ne_bang hbang
  rw [step_eq, hindented]
  split
  · next h => exact absurd h hread
  · rfl

/-- The header of an address object. -/
theorem step_header {name : String} (hname : IsWord name) (os : List AddressObject) :
    step ⟨os, none⟩ s!"object network {name}" = ⟨os, some { name }⟩ := by
  have heq : s!"object network {name}" = unwords ["object", "network", name] := by
    apply String.toList_inj.1
    simp [unwords, String.intercalate_cons_cons]
  have hws : ∀ w ∈ ["object", "network", name], IsWord w := by simp +decide [hname]
  have hindented : (Line.ofText (unwords ["object", "network", name])).indented = false :=
    isIndented_unwords (by decide) _
  have hwords : (Line.ofText (unwords ["object", "network", name])).words
      = ["object", "network", name] := words_unwords_of_isWord hws
  rw [heq, step_eq, Directive.read, hwords, hindented]
  rfl

/-- A line of an open object that begins with a keyword. -/
theorem step_keyword {keyword : String} (hkeyword : IsWord keyword)
    (hbang : beginsWith "!" keyword = false) (text : String) (os : List AddressObject)
    (o : AddressObject) :
    step ⟨os, some o⟩ (" " ++ keyword ++ " " ++ text)
      = ⟨os, some (objectLine o (Line.ofText (" " ++ keyword ++ " " ++ text))
          (keyword :: words text))⟩ := by
  have hwords := words_below hkeyword text
  have hl : (Line.ofText (" " ++ keyword ++ " " ++ text)).words = keyword :: words text := hwords
  rw [step_of_isIndented _ (isIndented_below keyword text) (by rw [hwords]; exact hbang), blockLine,
    hl]
  rfl

end Objects

/-! ## Lines that open no object -/

/-- The line says nothing of address objects where none is open. -/
def Passes (raw : String) : Prop := ∀ os, Objects.step ⟨os, none⟩ raw = ⟨os, none⟩

/-- A line that is not the header of an address object passes. -/
theorem passes_of_not_isHeader {raw : String} (h : ¬ IsHeader "object" "network" raw) :
    Passes raw := fun os => by
  have hread : isIndented raw = true
      ∨ ∀ name, Directive.read (Line.ofText raw) ≠ .objectNetwork name := by
    cases hraw : isIndented raw with
    | true => exact .inl rfl
    | false =>
      refine .inr fun name hname => ?_
      have hreadFrom := Directive.isReadFrom_read (l := Line.ofText raw) (by rw [hname]; nofun)
      rw [hname] at hreadFrom
      obtain ⟨rest, hrest⟩ := hreadFrom
      exact h ⟨hraw, name, rest, hrest⟩
  rw [Objects.step_eq]
  rcases hread with hindented | hread
  · have hindented : (Line.ofText raw).indented = true := hindented
    rw [hindented]
    split <;> rfl
  · generalize Directive.read (Line.ofText raw) = d at hread
    cases d with
    | objectNetwork name => exact absurd rfl (hread name)
    | bang => rfl
    | _ =>
      dsimp only
      split <;> rfl

theorem passes_of_first {raw : String} (h : raw.toList.head? ≠ some 'o') : Passes raw :=
  passes_of_not_isHeader (not_isHeader_of_first (by decide) h)

theorem passes_append {s : String} (hs : s.toList.head? ≠ some 'o' ∧ s ≠ "") (t : String) :
    Passes (s ++ t) := passes_of_first (by rw [head?_toList_append hs.2]; exact hs.1)

theorem passes_bang : Passes "!" := passes_of_first (by decide)

/-! ## What lines store -/

/-- The lines store objects one after the other, whatever is stored before, and leave none open. -/
def Stores (ls : List String) (ns : List AddressObject) : Prop :=
  ∀ os, ls.foldl Objects.step ⟨os, none⟩ = ⟨ns.foldl Objects.put os, none⟩

theorem Stores.append {ls ms : List String} {ns us : List AddressObject} (h : Stores ls ns)
    (h' : Stores ms us) : Stores (ls ++ ms) (ns ++ us) := fun os => by
  rw [List.foldl_append, h os, h', List.foldl_append]

theorem stores_nil_of_passes {ls : List String} (h : ∀ l ∈ ls, Passes l) : Stores ls [] := by
  intro os
  induction ls with
  | nil => rfl
  | cons l ls ih =>
    obtain ⟨hl, hls⟩ := List.forall_mem_cons.1 h
    rw [List.foldl_cons, hl os]
    exact ih hls

theorem stores_nil_of_not_isHeader {ls : List String}
    (h : ∀ l ∈ ls, ¬ IsHeader "object" "network" l) : Stores ls [] :=
  stores_nil_of_passes fun l hl => passes_of_not_isHeader (h l hl)

theorem stores_nil_of_isApart {ls : List String} (h : ∀ l ∈ ls, IsApart l) : Stores ls [] :=
  stores_nil_of_passes fun l hl => passes_of_first (h l hl).2

theorem stores_flatMap {α : Type} {f : α → List String} {g : α → List AddressObject} {as : List α}
    (h : ∀ a ∈ as, Stores (f a) (g a)) : Stores (as.flatMap f) (as.flatMap g) := by
  induction as with
  | nil => exact fun _ => rfl
  | cons a as ih =>
    obtain ⟨ha, has⟩ := List.forall_mem_cons.1 h
    rw [List.flatMap_cons, List.flatMap_cons]
    exact ha.append (ih has)

theorem stores_block {ls : List String} {o : AddressObject}
    (h : ∀ os, ls.foldl Objects.step ⟨os, none⟩ = ⟨os, some o⟩) : Stores (block ls) [o] := fun os => by
  have hbang : (words "!").head?.any (beginsWith "!") = true := by decide
  rw [block, List.foldl_append, h os, List.foldl_cons, Objects.step_bang _ hbang]
  rfl

/-! ## Objects that are written -/

/-- What is read of an object that is written: only a subnet has a mask, and a range that begins
with a dash is no range. -/
def readBack (o : AddressObject) : AddressObject :=
  match o.kind with
  | .subnet => o
  | .range =>
    if beginsWith "-" o.value then { o with kind := .host, value := "", mask := none }
    else { o with mask := none }
  | .host | .fqdn => { o with mask := none }

@[simp] theorem name_readBack (o : AddressObject) : (readBack o).name = o.name := by
  unfold readBack
  split
  · rfl
  · split <;> rfl
  · rfl
  · rfl

/-- A range of words is cut at its first dash, and what stands behind it is a word. -/
theorem exists_rangeEnds {first last : String} (hfirst : IsWord first) (hlast : IsWord last) :
    ∃ a b, rangeEnds (first ++ "-" ++ last) = (a, b) ∧ first ++ "-" ++ last = a ++ "-" ++ b
      ∧ IsWord b ∧ if beginsWith "-" (first ++ "-" ++ last) then a = "" else IsWord a := by
  have hcut : ∃ a b, '-' ∉ a.toList ∧ first ++ "-" ++ last = a ++ "-" ++ b ∧ IsWord b
      ∧ ∀ c ∈ a.toList, isBlank c = false := by
    by_cases hmem : '-' ∈ first.toList
    · obtain ⟨as, bs, hlist, has⟩ := List.eq_append_cons_of_mem hmem
      have hsolid := hfirst.2
      rw [hlist] at hsolid
      obtain ⟨ha, hb⟩ := List.forall_mem_append.1 hsolid
      refine ⟨String.ofList as, String.ofList (bs ++ '-' :: last.toList), ?_, ?_, ?_, ?_⟩
      · rwa [String.toList_ofList]
      · apply String.toList_inj.1
        simp [hlist]
      · rw [IsWord, String.toList_ofList]
        exact ⟨List.append_ne_nil_of_right_ne_nil _ (List.cons_ne_nil _ _),
          List.forall_mem_append.2 ⟨(List.forall_mem_cons.1 hb).2,
            List.forall_mem_cons.2 ⟨by decide, hlast.2⟩⟩⟩
      · rwa [String.toList_ofList]
    · exact ⟨first, last, hmem, rfl, hlast, hfirst.2⟩
  obtain ⟨a, b, hdash, heq, hb, ha⟩ := hcut
  have hends : rangeEnds (a ++ "-" ++ b) = (a, b) := by
    have hcut : cut '-' (a ++ "-" ++ b) = some (a, b) := cut_append hdash b
    rw [rangeEnds, hcut]
    rfl
  refine ⟨a, b, by rw [heq, hends], heq, hb, ?_⟩
  rw [heq]
  cases hlist : a.toList with
  | nil =>
    have hempty : a = "" := String.toList_eq_nil_iff.1 hlist
    split
    · exact hempty
    · next hnot =>
      refine absurd (beginsWith_iff.2 ⟨b.toList, ?_⟩) hnot
      rw [hempty]
      simp
  | cons c cs =>
    rw [if_neg]
    · exact ⟨by rw [hlist]; exact List.cons_ne_nil _ _, ha⟩
    · intro hbegins
      obtain ⟨rest, hrest⟩ := beginsWith_iff.1 hbegins
      simp only [String.toList_append, hlist, List.cons_append] at hrest
      exact hdash (by rw [hlist, (List.cons.inj hrest).1]; exact List.mem_cons_self)

/-- **The line of a value is read back.** -/
theorem step_objectValueLine {o : AddressObject} (ho : IsFilled o) (os : List AddressObject) :
    Objects.step ⟨os, some { name := o.name }⟩ (objectValueLine o)
      = ⟨os, some { readBack o with description := none }⟩ := by
  have hline {keyword text : String} {ws : List String} (hkeyword : IsWord keyword)
      (hbang : beginsWith "!" keyword = false)
      (heq : objectValueLine o = " " ++ keyword ++ " " ++ text) (hws : words text = ws) :
      Objects.step ⟨os, some { name := o.name }⟩ (objectValueLine o)
        = ⟨os, some (objectLine { name := o.name } (Line.ofText (objectValueLine o))
            (keyword :: ws))⟩ := by
    rw [heq, Objects.step_keyword hkeyword hbang text os, hws]
  obtain ⟨name, kind, value, mask, description⟩ := o
  cases kind with
  | host =>
    have heq : s!" host {value}" = " " ++ "host" ++ " " ++ value := by
      apply String.toList_inj.1
      simp
    rcases ho with rfl | hvalue
    · exact hline (by decide) (by decide) heq words_empty
    · exact hline (by decide) (by decide) heq hvalue.words_eq
  | subnet =>
    obtain ⟨hvalue, m, rfl, hm⟩ := ho
    have heq : s!" subnet {value} {m}" = " " ++ "subnet" ++ " " ++ (value ++ " " ++ m) := by
      apply String.toList_inj.1
      simp
    exact hline (by decide) (by decide) heq (words_pair hvalue hm)
  | range =>
    obtain ⟨first, last, hfirst, hlast, rfl⟩ := ho
    obtain ⟨a, b, hends, hab, hb, ha⟩ := exists_rangeEnds hfirst hlast
    have heq : objectValueLine ⟨name, .range, first ++ "-" ++ last, mask, description⟩
        = " " ++ "range" ++ " " ++ (a ++ " " ++ b) := by
      rw [objectValueLine]
      dsimp only
      rw [hends]
      apply String.toList_inj.1
      simp
    have hws : words (a ++ " " ++ b) = words a ++ [b] := by rw [words_append, hb.words_eq]
    rw [hline (by decide) (by decide) heq hws, readBack]
    dsimp only
    split at ha
    · next hbegins =>
      rw [if_pos hbegins, ha]
      rfl
    · next hbegins =>
      rw [if_neg hbegins, ha.words_eq, hab]
      rfl
  | fqdn =>
    have heq : s!" fqdn {value}" = " " ++ "fqdn" ++ " " ++ value := by
      apply String.toList_inj.1
      simp
    have hfqdn (l : Line) :
        objectLine { name } l ["fqdn", value] = { name, kind := .fqdn, value } := by
      simp [objectLine]
    rw [hline (by decide) (by decide) heq (IsWord.words_eq ho), hfqdn]
    rfl

theorem foldl_descriptionLines {description : Option String}
    (hdescription : ∀ d ∈ description, trim d = d) (os : List AddressObject) (o : AddressObject) :
    (descriptionLines description).foldl Objects.step ⟨os, some { o with description := none }⟩
      = ⟨os, some { o with description }⟩ := by
  cases description with
  | none => rfl
  | some d =>
    have hread (l : Line) (ws : List String) :
        objectLine { o with description := none } l ("description" :: ws)
          = { o with description := some (l.after 1) } := rfl
    have hlines : descriptionLines (some d) = [" description " ++ d] := rfl
    rw [hlines, List.foldl_cons, List.foldl_nil, descriptionLine_eq,
      Objects.step_keyword (by decide) (by decide), hread, after_descriptionLine,
      hdescription d rfl]

/-- **The lines of an object store what is read of it.** -/
theorem stores_objectLines {o : AddressObject} (ho : IsRead o) :
    Stores (objectLines o) [readBack o] := by
  have hdescription : (readBack o).description = o.description := by
    unfold readBack
    split
    · rfl
    · split <;> rfl
    · rfl
    · rfl
  have hread (o' : AddressObject) (h : o'.description = o.description) :
      { o' with description := o.description } = o' := by rw [← h]
  rw [objectLines]
  refine stores_block fun os => ?_
  rw [List.foldl_append, List.foldl_cons, List.foldl_cons, List.foldl_nil,
    Objects.step_header ho.name, step_objectValueLine ho.filled,
    foldl_descriptionLines ho.description, hread _ hdescription]

/-! ## Translation rules -/

/-- The object whose block is opened for a rule that translates `source`, as it is read back: one of
its own for an address or a network, and an empty one where the rule names its object. -/
def blockObject? (c : Config) (rule : NatRule) (source : String) : Option AddressObject :=
  match Endpoint.classify source with
  | .any => none
  | .host address => some { name := "nat-" ++ address, kind := .host, value := address }
  | .network n =>
    some { name := "nat-" ++ (n.address ++ "-" ++ toString (Netmask.prefixOrDefault n.mask))
           kind := .subnet, value := n.address, mask := some n.mask }
  | .named name =>
    if c.declares name && (rule.destination.filter fun d => Endpoint.classify d != .any).isNone
    then some { name }
    else none

/-- The object whose block a translation rule opens, as it is read back. -/
def translatedObject? (c : Config) (rule : NatRule) : Option AddressObject :=
  match rule.kind, rule.source with
  | .pool, _ => none
  | _, some source => blockObject? c rule source
  | _, none => none

/-- The rule in an open object changes nothing of it. -/
theorem step_natLine (text : String) (os : List AddressObject) (o : AddressObject) :
    Objects.step ⟨os, some o⟩ (" nat " ++ text) = ⟨os, some o⟩ := by
  have heq : " nat " ++ text = " " ++ "nat" ++ " " ++ text := by
    apply String.toList_inj.1
    simp
  have hline (l : Line) (ws : List String) : objectLine o l ("nat" :: ws) = o := rfl
  rw [heq, Objects.step_keyword (by decide) (by decide), hline]

/-- A block of an object of its own stores its value. -/
theorem stores_natObject {rule : NatRule} (hname : rule.name = none) {label : String}
    (hlabel : IsWord label) {o : AddressObject} (ho : IsFilled o) (hread : readBack o = o)
    (hdescription : o.description = none) (hon : o.name = "nat-" ++ label) (text : String) :
    Stores (block (natObject rule label (objectValueLine o) ++ [" nat " ++ text])) [o] := by
  have hheader : s!"object network nat-{rule.name.getD label}" = s!"object network {o.name}" := by
    rw [hname, hon]
    apply String.toList_inj.1
    simp
  have hword : IsWord o.name := by
    rw [hon]
    exact IsWord.append (by decide) hlabel
  have ho' : { o with description := none } = o := by rw [← hdescription]
  refine stores_block fun os => ?_
  rw [natObject, List.cons_append, List.cons_append, List.nil_append, List.foldl_cons, hheader,
    Objects.step_header hword, List.foldl_cons, step_objectValueLine ho, hread, ho',
    List.foldl_cons, step_natLine, List.foldl_nil]

/-- A block that holds nothing but a rule stores an object without a value. -/
theorem stores_reopened {name : String} (hname : IsWord name) (text : String) :
    Stores (block [s!"object network {name}", " nat " ++ text]) [{ name }] := by
  refine stores_block fun os => ?_
  rw [List.foldl_cons, Objects.step_header hname, List.foldl_cons, step_natLine, List.foldl_nil]

theorem stores_notConverted (what : String) : Stores (block [notConverted what]) [] :=
  stores_nil_of_passes (forall_mem_block passes_bang
    (List.forall_mem_singleton.2 (passes_append (by decide) what)))

/-- **The lines of a rule store the object whose block they open.** -/
theorem stores_natRuleLines (c : Config) {rule : NatRule} (hname : rule.name = none)
    {source : String} (hsource : IsWord source) :
    Stores (block (natRuleLines c rule source)) (blockObject? c rule source).toList := by
  have hspec := Endpoint.classify_spec_of_isWord hsource
  unfold natRuleLines blockObject?
  generalize (rule.translated.or (c.pairedPool? rule)).getD "interface" = translated
  generalize nameifOr c anyText rule.sourceInterface = real
  generalize nameifOr c egress rule.interface = mapped
  dsimp only
  generalize s!"({real},{mapped})" = interfaces
  have hremarks : Stores (rule.description.toList.map ("! " ++ ·)) [] :=
    stores_nil_of_passes (List.forall_mem_map.2 fun d _ => passes_append (by decide) d)
  rw [block, List.append_assoc, ← block]
  refine hremarks.append ?_
  have hline : s!" nat {interfaces} {rule.kind.text} {translated}"
      = " nat " ++ (interfaces ++ " " ++ rule.kind.text ++ " " ++ translated) := by
    apply String.toList_inj.1
    simp
  rw [hline]
  cases hc : Endpoint.classify source with
  | any =>
    refine stores_nil_of_passes (forall_mem_block passes_bang (List.forall_mem_singleton.2 ?_))
    simp only [String.append_assoc, toString_text]
    exact passes_append (by decide) _
  | host address =>
    rw [hc] at hspec
    have hword := isWord_of_isIPv4 hspec
    exact stores_natObject (o := { name := "nat-" ++ address, value := address }) hname hword
      (.inr hword) rfl rfl rfl _
  | network n =>
    rw [hc] at hspec
    have haddress := isWord_of_isIPv4 hspec.1
    have hbits := (isNumeral_toString (Netmask.prefixOrDefault n.mask)).isWord
    have hlabel := (haddress.append (by decide : IsWord "-")).append hbits
    exact stores_natObject
      (o := { name := "nat-" ++ (n.address ++ "-" ++ toString (Netmask.prefixOrDefault n.mask))
              kind := .subnet, value := n.address, mask := some n.mask })
      hname hlabel ⟨haddress, n.mask, rfl, hspec.2⟩ rfl rfl rfl _
  | named name =>
    rw [hc] at hspec
    have hword : IsWord name := hspec
    dsimp only
    cases hdeclares : c.declares name with
    | false => exact stores_notConverted _
    | true =>
      cases hdestination : rule.destination.filter fun d => Endpoint.classify d != .any with
      | some destination =>
        refine stores_nil_of_passes (forall_mem_block passes_bang (List.forall_mem_singleton.2 ?_))
        simp only [String.append_assoc, toString_text]
        exact passes_append (by decide) _
      | none => exact stores_reopened hword _

theorem stores_natLines (c : Config) {rule : NatRule} (hrule : IsUnnamed rule) :
    Stores (natLines c rule) (translatedObject? c rule).toList := by
  have hpool : Stores (part (poolLines c rule)) [] := by
    refine stores_nil_of_passes (forall_mem_part passes_bang ?_)
    rw [poolLines]
    split
    · exact List.forall_mem_nil _
    · exact List.forall_mem_singleton.2 (passes_append (by decide) _)
  unfold natLines translatedObject?
  cases hsource : rule.source with
  | none =>
    cases rule.kind with
    | pool => exact hpool
    | _ => exact stores_notConverted _
  | some source =>
    cases rule.kind with
    | pool => exact hpool
    | _ => exact stores_natRuleLines c hrule.name (hrule.source source hsource)

/-! ## The whole text -/

/-- The objects whose blocks translation rules open, in order. -/
def translatedObjects (c : Config) : List AddressObject :=
  c.nat.flatMap fun rule => (translatedObject? c rule).toList

/-- **What is stored of a written configuration**: its own objects, and then those whose blocks its
translation rules open. -/
theorem stores_writeLines {c : Config} (hc : c.OneLine) (hobjects : ∀ o ∈ c.addressObjects, IsRead o)
    (hnat : ∀ rule ∈ c.nat, IsUnnamed rule) (hprofiles : c.securityProfiles = [])
    (origin : Dialect) :
    Stores (writeLines .ftd origin c) (c.addressObjects.map readBack ++ translatedObjects c) := by
  have hopening := stores_nil_of_isApart fun l hl => (isIdle_openingLines hc origin l hl).isApart
  have hobjects : Stores (c.addressObjects.flatMap objectLines) (c.addressObjects.map readBack) := by
    rw [List.map_eq_flatMap]
    exact stores_flatMap fun o ho => stores_objectLines (hobjects o ho)
  have hgroups : Stores (c.addressGroups.flatMap (groupLines c)) [] :=
    stores_nil_of_not_isHeader (List.forall_mem_flatMap.2 fun g _ =>
      not_isHeader_groupLines (by decide) (by decide) c g)
  have hservices : Stores (c.services.flatMap serviceLines) [] :=
    stores_nil_of_not_isHeader (List.forall_mem_flatMap.2 fun s _ =>
      not_isHeader_serviceLines (by decide) (by decide) s)
  have haccess := stores_nil_of_isApart (isApart_accessLines hc origin)
  have hroutes := stores_nil_of_isApart fun l hl => (isIdle_routeLines hc l hl).isApart
  have hrules : Stores (c.nat.flatMap (natLines c)) (translatedObjects c) :=
    stores_flatMap fun rule hrule => stores_natLines c (hnat rule hrule)
  have hclosing := stores_nil_of_isApart fun l hl => (isIdle_closingLines hc l hl).isApart
  have hall := hopening.append (hobjects.append (hgroups.append (hservices.append
    (haccess.append (hroutes.append (hrules.append hclosing))))))
  rw [writeLines_eq origin hprofiles]
  simpa only [List.nil_append, List.append_nil] using hall

/-! ## What is kept -/

/-- **The address objects that are read back**: those of the text, and then those whose blocks the
translation rules open, each in the place of the one that has its name. -/
theorem addressObjects_read_write (text : String) :
    (read .ftd (write .ftd .ciscoAsa (read .asa text))).addressObjects
      = ((read .asa text).addressObjects.map readBack
          ++ translatedObjects (read .asa text)).foldl Objects.put [] := by
  have hone := oneLine_read .asa text
  have hprofiles := securityProfiles_read_asa text
  have hstores := stores_writeLines hone (fun _ ho => isRead_of_mem_addressObjects ho)
    (fun _ hrule => isUnnamed_of_mem_nat hrule) hprofiles .ciscoAsa
  rw [write, addressObjects_unlines .ftd (oneLine_writeLines hone .ciscoAsa hprofiles), hstores []]
  rfl

/-- **Under the name of an object stands the last block that is opened for it**: that of a
translation rule, or else its own. -/
theorem find?_addressObjects_read_write (text : String) {o : AddressObject}
    (ho : o ∈ (read .asa text).addressObjects) :
    (read .ftd (write .ftd .ciscoAsa (read .asa text))).addressObjects.find? (·.name == o.name)
      = some (((translatedObjects (read .asa text)).reverse.find? (·.name == o.name)).getD
          (readBack o)) := by
  have hnodup := nodup_addressObjects .asa text
  rw [addressObjects_read_write]
  generalize (read .asa text).addressObjects = os at ho hnodup
  generalize translatedObjects (read .asa text) = ns
  have hnames : ((os.map readBack).reverse.map (·.name)).Nodup := by
    have heq : (os.map readBack).map (·.name) = os.map (·.name) := by
      rw [List.map_map]
      exact List.map_congr_left fun o _ => name_readBack o
    rwa [List.map_reverse, (List.reverse_perm _).nodup_iff, heq]
  have hown : (os.map readBack).reverse.find? (·.name == o.name) = some (readBack o) := by
    have hmem := List.mem_reverse.2 (List.mem_map_of_mem (f := readBack) ho)
    have hfind := find?_eq_some_of_nodup (·.name) hnames hmem
    rwa [name_readBack] at hfind
  refine (find?_foldl_putBy (·.name) o.name (os.map readBack ++ ns) []).trans ?_
  rw [List.reverse_append, List.find?_append, hown]
  cases ns.reverse.find? (·.name == o.name) <;> rfl

/-- The two objects say the same. -/
def SaysSame (o o' : AddressObject) : Prop :=
  o'.name = o.name ∧ o'.kind = o.kind ∧ o'.value = o.value ∧ o'.mask = o.mask

instance (o o' : AddressObject) : Decidable (SaysSame o o') :=
  inferInstanceAs (Decidable (_ ∧ _ ∧ _ ∧ _))

/-- What is read back of an object says the same if only a subnet has a mask, and no range begins
with a dash. -/
theorem saysSame_readBack_iff (o : AddressObject) :
    SaysSame o (readBack o) ↔ (o.kind ≠ .subnet → o.mask = none)
      ∧ (o.kind = .range → beginsWith "-" o.value = false) := by
  obtain ⟨name, kind, value, mask, description⟩ := o
  cases kind with
  | subnet => simp [SaysSame, readBack]
  | range =>
    cases hbegins : beginsWith "-" value with
    | true => simp [SaysSame, readBack, hbegins]
    | false => simp [SaysSame, readBack, hbegins, eq_comm (a := none)]
  | _ => simp [SaysSame, readBack, eq_comm (a := none)]

/-- A range that begins with a dash is read back without a value. -/
example : ¬ SaysSame { name := "o", kind := .range, value := "-10.0.0.9" }
    (readBack { name := "o", kind := .range, value := "-10.0.0.9" }) := by decide +kernel

/-- **An object is kept exactly if the last block of its name says the same**: that of the last
translation rule that opens it again, or else its own. -/
theorem addressObject_kept_iff (text : String) {o : AddressObject}
    (ho : o ∈ (read .asa text).addressObjects) :
    (∃ o' ∈ (read .ftd (write .ftd .ciscoAsa (read .asa text))).addressObjects, SaysSame o o')
      ↔ match (translatedObjects (read .asa text)).reverse.find? (·.name == o.name) with
        | some reopened => SaysSame o reopened
        | none => (o.kind ≠ .subnet → o.mask = none)
          ∧ (o.kind = .range → beginsWith "-" o.value = false) := by
  have hfind := find?_addressObjects_read_write text ho
  have hnodup := nodup_addressObjects .ftd (write .ftd .ciscoAsa (read .asa text))
  generalize (read .ftd (write .ftd .ciscoAsa (read .asa text))).addressObjects = os
    at hfind hnodup
  generalize (translatedObjects (read .asa text)).reverse.find? (·.name == o.name) = last at hfind
  have hkept : (∃ o' ∈ os, SaysSame o o') ↔ SaysSame o (last.getD (readBack o)) := by
    constructor
    · rintro ⟨o', hmem, hsame⟩
      have hfind' := find?_eq_some_of_nodup (·.name) hnodup hmem
      rw [hsame.1] at hfind'
      rwa [← Option.some.inj (hfind'.symm.trans hfind)]
    · exact fun hsame => ⟨_, List.mem_of_find?_eq_some hfind, hsame⟩
  rw [hkept]
  cases last with
  | some reopened => exact Iff.rfl
  | none => exact saysSame_readBack_iff o

/-- Two objects, of which only the second has a translation rule of its own. -/
def pairText : String :=
  "object network web\n host 10.0.0.10\nobject network lan\n subnet 10.0.0.0 255.255.255.0\n"
    ++ " nat (inside,outside) dynamic interface\n"

/-- What is read of the first object. -/
def webObject : AddressObject where
  name := "web"
  value := "10.0.0.10"

theorem addressObject_kept_iff_pairText :
    webObject ∈ (read .asa pairText).addressObjects
      ∧ ∃ o' ∈ (read .ftd (write .ftd .ciscoAsa (read .asa pairText))).addressObjects,
        SaysSame webObject o' := by
  have htext : pairText = unlines ["object network web", " host 10.0.0.10", "object network lan",
      " subnet 10.0.0.0 255.255.255.0", " nat (inside,outside) dynamic interface"] := by
    decide +kernel
  have hread : webObject ∈ (read .asa pairText).addressObjects
      ∧ (translatedObjects (read .asa pairText)).reverse.find? (·.name == webObject.name)
        = none := by
    rw [htext, read, Reading.run_lines_unlines _ (by decide +kernel)]
    decide +kernel
  refine ⟨hread.1, (addressObject_kept_iff pairText hread.1).2 ?_⟩
  rw [hread.2]
  exact ⟨fun _ => rfl, nofun⟩

/-- One object that has a translation rule of its own. -/
def natText : String :=
  "object network web\n host 10.0.0.10\n nat (inside,outside) static 203.0.113.10\n"

/-- **The block of a translation rule empties the object** whose block it opens again. -/
theorem not_kept_natText :
    webObject ∈ (read .asa natText).addressObjects ∧ webObject.value ≠ ""
      ∧ (read .ftd (write .ftd .ciscoAsa (read .asa natText))).addressObjects = [{ name := "web" }]
      ∧ ¬ ∃ o' ∈ (read .ftd (write .ftd .ciscoAsa (read .asa natText))).addressObjects,
        SaysSame webObject o' := by
  have htext : natText = unlines ["object network web", " host 10.0.0.10",
      " nat (inside,outside) static 203.0.113.10"] := by
    decide +kernel
  have hread : (read .asa natText).addressObjects = [webObject]
      ∧ translatedObjects (read .asa natText) = [{ name := "web" }] := by
    rw [htext, read, Reading.run_lines_unlines _ (by decide +kernel)]
    decide +kernel
  have hback : (read .ftd (write .ftd .ciscoAsa (read .asa natText))).addressObjects
      = [{ name := "web" }] := by
    rw [addressObjects_read_write, hread.1, hread.2]
    decide +kernel
  refine ⟨?_, by decide, hback, ?_⟩
  · rw [hread.1]
    exact List.mem_singleton_self _
  · rw [hback]
    decide

end FirewallConfig.Cisco
