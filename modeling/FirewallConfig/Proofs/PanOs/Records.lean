import FirewallConfig.Proofs.Config.Network
import FirewallConfig.Proofs.PanOs.Part
import Mathlib.Data.List.TakeWhile

/-!
# Proofs/PanOs/Records — every entry is read back as what it was written of

Rules are read back in `Proofs/PanOs/Rules`; this is the same for everything else that has an entry.
A list may be empty here: it is written as one tag, and read as no list at all.
-/

namespace FirewallConfig.PanOs

open Xml (Node IsName linesOfAll)

/-! ## Lines without their depths -/

theorem map_text_deepLines (depth : Nat) (lines : List String) :
    (deepLines depth lines).map (·.text) = lines := by
  induction lines generalizing depth with
  | nil => rfl
  | cons l ls ih => rw [deepLines, List.map_cons, ih]

theorem hasTag_ofLines (lines : List String) (tag : String) :
    (Block.ofLines lines).hasTag tag
      = lines.any fun l => opensWith tag l || l == emptyTag tag := by
  have hlines : (Block.ofLines lines).lines.map (·.text) = lines := map_text_deepLines 0 lines
  have hany := List.any_map (f := (·.text)) (l := (Block.ofLines lines).lines)
    (p := fun l => opensWith tag l || l == emptyTag tag)
  rw [hlines] at hany
  exact hany.symm

/-- An element of a tag is in an entry just if one of its marks says so. -/
theorem hasTag_ofMarks {tag : String} (htag : IsName tag) {ms : List Mark} (hms : ∀ m ∈ ms, m.Valid) :
    (Block.ofLines (ms.map Mark.line)).hasTag tag
      = ms.any fun m => m.opensTag tag || m.isEmpty tag := by
  rw [hasTag_ofLines, List.any_map, Bool.eq_iff_iff, List.any_eq_true, List.any_eq_true]
  refine exists_congr fun m => and_congr_right fun hm => ?_
  rw [Function.comp_apply, Mark.opensWith_line htag (hms m hm), Mark.line_eq_emptyTag htag (hms m hm)]

/-! ## What stands behind a tag -/

/-- The name of the entry that follows the first opening tag, on its line or on the next one. -/
def nameBehind (tag : String) (ls : List String) : Option String :=
  match ls.dropWhile fun l => !opensWith tag l with
  | [] => none
  | l :: rest =>
    ((Text.withoutPrefix (openTag tag) l).bind entryName).or (rest.head?.bind entryName)

theorem entryAfter_eq (b : Block) (tag : String) :
    b.entryAfter tag = nameBehind tag (b.lines.map (·.text)) := by
  have hcomp : (fun l => !opensWith tag l) ∘ DeepLine.text = fun l => !opensWith tag l.text := rfl
  rw [Block.entryAfter, nameBehind, List.dropWhile_map, hcomp]
  cases b.lines.dropWhile fun l => !opensWith tag l.text with
  | nil => rfl
  | cons l rest => cases rest <;> rfl

theorem entryAfter_ofLines_eq (ls : List String) (tag : String) :
    (Block.ofLines ls).entryAfter tag = nameBehind tag ls := by
  have htexts : (Block.ofLines ls).lines.map (·.text) = ls := map_text_deepLines 0 ls
  rw [entryAfter_eq, htexts]

/-- Lines without the tag are passed over. -/
theorem nameBehind_append {tag : String} {ls : List String}
    (h : ∀ l ∈ ls, opensWith tag l = false) (ms : List String) :
    nameBehind tag (ls ++ ms) = nameBehind tag ms := by
  rw [nameBehind, List.dropWhile_append_of_pos fun l hl => by rw [h l hl]; rfl, ← nameBehind]

theorem nameBehind_cons_of_not_opensWith {tag l : String} (h : opensWith tag l = false)
    (rest : List String) : nameBehind tag (l :: rest) = nameBehind tag rest :=
  nameBehind_append (List.forall_mem_singleton.2 h) rest

theorem nameBehind_eq_none {tag : String} {ls : List String}
    (h : ∀ l ∈ ls, opensWith tag l = false) : nameBehind tag ls = none := by
  rw [← List.append_nil ls, nameBehind_append h]
  rfl

theorem nameBehind_cons_of_opensWith {tag l : String} (h : opensWith tag l = true)
    (rest : List String) : nameBehind tag (l :: rest)
      = ((Text.withoutPrefix (openTag tag) l).bind entryName).or (rest.head?.bind entryName) := by
  rw [nameBehind, List.dropWhile_cons_of_neg (by rw [h]; decide)]

/-- The name of the entry right behind a tag is found, with nothing before it that begins so. -/
theorem entryAfter_ofLines {tag : String} (htag : IsName tag) (hentry : tag ≠ "entry") (name : String)
    {before : List String} (hbefore : ∀ l ∈ before, opensWith tag l = false) (rest : List String) :
    (Block.ofLines (before ++ (Mark.opening tag).line :: (Mark.emptyEntry name).line :: rest)).entryAfter
        tag = some name := by
  have hopens := Mark.opensWith_opening htag hentry
  have hname : entryName (Mark.emptyEntry name).line = some name :=
    Mark.entryName_line (m := .emptyEntry name) trivial
  have hempty : (Text.withoutPrefix (openTag tag) (Mark.opening tag).line).bind entryName = none := by
    have hrest := Text.withoutPrefix_append (openTag tag) ""
    rw [String.append_empty] at hrest
    rw [Mark.line, hrest]
    rfl
  rw [entryAfter_ofLines_eq, nameBehind_append hbefore, nameBehind_cons_of_opensWith hopens, hempty,
    List.head?_cons, Option.bind_some, hname, Option.none_or]

/-! ## Entries inside an entry -/

theorem childLines_none_cons_of_neg {l : DeepLine} {rest : List DeepLine}
    (h : ¬ (1 ≤ l.depth && (entryName l.text).isSome && !isSelfClosed l.text) = true) :
    Block.childLines none (l :: rest) = Block.childLines none rest := by
  rw [Block.childLines, Block.collected, if_neg h]

theorem childLines_none_cons_of_pos {l : DeepLine} {rest : List DeepLine}
    (h : (1 ≤ l.depth && (entryName l.text).isSome && !isSelfClosed l.text) = true)
    (hopen : depthAfter 0 l.text ≠ 0) : Block.childLines none (l :: rest)
      = Block.childLines (some ([l.text], depthAfter 0 l.text)) rest := by
  simp only [Block.childLines, Block.collected, if_pos h, if_neg hopen]

/-- An entry that is open takes in the next line, and may end with it. -/
theorem childLines_some_cons (lines : List String) (depth : Nat) (l : DeepLine)
    (rest : List DeepLine) : Block.childLines (some (lines, depth)) (l :: rest)
      = if depthAfter depth l.text = 0 then (l.text :: lines).reverse :: Block.childLines none rest
        else Block.childLines (some (l.text :: lines, depthAfter depth l.text)) rest := rfl

theorem childLines_eq_nil {ls : List DeepLine}
    (h : ∀ l ∈ ls, (entryName l.text).isSome = true → isSelfClosed l.text = true) :
    Block.childLines none ls = [] := by
  induction ls with
  | nil => rw [Block.childLines]
  | cons l ls ih =>
    obtain ⟨hl, hls⟩ := List.forall_mem_cons.1 h
    rw [childLines_none_cons_of_neg, ih hls]
    simp only [Bool.and_eq_true, Bool.not_eq_true', not_and, Bool.not_eq_false, and_imp]
    exact fun _ hname => hl hname

theorem IsLevel.isSelfClosed {l : String} (h : IsLevel l) (hname : (entryName l).isSome = true) :
    isSelfClosed l = true := by
  obtain ⟨m, hm, hopened, -, rfl⟩ := h
  rw [Mark.entryName_line hm] at hname
  cases m with
  | emptyEntry name => exact Mark.isSelfClosed_emptyEntry name
  | entry name => cases hopened
  | opening _ | closing _ | empty _ | leaf _ _ => cases hname

/-- In a flat entry there is no entry with anything in it. -/
theorem children_ofLines {name : String} {children : List Node} (h : ∀ n ∈ children, Flat n) :
    (Block.ofLines (entry name children).lines).children = [] := by
  by_cases hne : children = []
  · have hlines : (Block.ofLines (entry name []).lines).lines.tail = [] := rfl
    rw [hne, Block.children, hlines, Block.childLines, List.map_nil]
  rw [Block.children, lines_ofLines hne h, List.tail_cons, childLines_eq_nil, List.map_nil]
  intro l hl hname
  obtain ⟨s, hs, rfl⟩ := List.mem_map.1 hl
  rcases List.mem_append.1 hs with hs | hs
  · obtain ⟨n, hn, hs⟩ := mem_linesOfAll hs
    exact ((h n hn).isLevel s hs).isSelfClosed hname
  · have hclosing : entryName s = none := by
      rw [List.mem_singleton.1 hs]
      exact Mark.entryName_line (m := .closing "entry") isName_entry
    rw [hclosing] at hname
    cases hname

/-! ## Shapes -/

theorem flat_leaf? {tag : String} (htag : IsName tag) (hentry : tag ≠ "entry")
    (text : Option String) : ∀ n ∈ leaf? tag text, Flat n := by
  intro n hn
  obtain ⟨s, -, rfl⟩ := List.mem_map.1 hn
  exact .leaf s htag hentry

theorem flat_nested {tag : String} {tags : List String}
    (htags : ∀ t ∈ tag :: tags, IsName t ∧ t ≠ "entry") {children : List Node}
    (h : ∀ n ∈ children, Flat n) : Flat (nested tag tags children) := by
  induction tags generalizing tag with
  | nil =>
    obtain ⟨hname, hentry⟩ := htags tag List.mem_cons_self
    exact .branch hname hentry h
  | cons next rest ih =>
    obtain ⟨hname, hentry⟩ := htags tag List.mem_cons_self
    exact .branch hname hentry
      (List.forall_mem_singleton.2 (ih fun t ht => htags t (List.mem_cons_of_mem _ ht)))

theorem skips_leaf? {t tag : String} (text : Option String) (ht : IsName t) (htag : IsName tag)
    (hentry : tag ≠ "entry") (hne : tag ≠ t) : Skips t (leaf? tag text) := by
  cases text with
  | none => exact skips_nil t
  | some s => exact skips_leaf s ht htag hentry hne

/-- **A list in front of everything else is read back**, also where nothing is in it. -/
theorem members_listEntry (name : String) {tag : String} (members : List String)
    {leaves : List Node} (htag : IsName tag) (hentry : tag ≠ "entry") (hmember : tag ≠ "member")
    (hleaves : ∀ n ∈ leaves, Flat n) (hskips : Skips tag leaves) :
    (Block.ofLines (entry name (memberList tag members :: leaves)).lines).members tag = members := by
  have hflat : ∀ n ∈ memberList tag members :: leaves, Flat n :=
    List.forall_mem_cons.2 ⟨flat_memberList htag hentry members, hleaves⟩
  by_cases hne : members = []
  · -- the tag of an empty list does not open it
    have hempty : opensWith tag (Mark.empty tag).line = false :=
      Mark.opensWith_line htag (m := .empty tag) htag
    have hclosing : opensWith tag (Mark.closing "entry").line = false :=
      Mark.opensWith_line htag (m := .closing "entry") isName_entry
    have hskip : ∀ l ∈ (linesOfAll (memberList tag members :: leaves)
        ++ [(Mark.closing "entry").line]).map (DeepLine.mk 1),
          (!(l.depth == 1 && opensWith tag l.text)) = true := by
      intro l hl
      obtain ⟨s, hs, rfl⟩ := List.mem_map.1 hl
      have hs : opensWith tag s = false := by
        rw [Xml.linesOfAll_cons, hne] at hs
        rcases List.mem_append.1 hs with hs | hs
        · rcases List.mem_append.1 hs with hs | hs
          · rw [memberList, List.map_nil, lines_branch, if_pos (by rfl)] at hs
            rw [List.mem_singleton.1 hs]
            exact hempty
          · exact hskips s hs
        · rw [List.mem_singleton.1 hs]
          exact hclosing
      rw [hs, Bool.and_false]
      rfl
    have hnone := List.dropWhile_eq_nil_iff.2 hskip
    rw [Block.members, lines_ofLines (List.cons_ne_nil _ _) hflat, List.tail_cons, hnone, hne]
  · exact members_ofLines [] leaves htag hentry hmember hflat (skips_nil tag) hne

/-! ## Objects -/

/-- **A zone is read back with its interfaces**, each of them and no other. -/
theorem zoneMembers_zoneEntry (z : Zone) :
    (Block.ofLines (zoneEntry z).lines).zoneMembers = z.interfaces := by
  have hlayer : Flat (memberList "layer3" z.interfaces) := flat_memberList (by decide) (by decide) _
  have hflat : ∀ n ∈ [Node.branch "network" [memberList "layer3" z.interfaces]], Flat n :=
    List.forall_mem_singleton.2
      (.branch (by decide) (by decide) (List.forall_mem_singleton.2 hlayer))
  have hentry : (Mark.entry z.name).line ≠ openTag "network" :=
    beq_eq_false_iff_ne.1 (Mark.line_eq_openTag (by decide) (m := .entry z.name) trivial)
  have hmode : Text.holds (openTag "member") (Mark.opening "layer3").line = false
      ∧ (Block.zoneModes.any fun m => (Mark.opening "layer3").line == openTag m) = true := by decide
  have hempty : Text.holds (openTag "member") (Mark.empty "layer3").line = false
      ∧ (Block.zoneModes.any fun m => (Mark.empty "layer3").line == openTag m) = false := by decide
  have hlist : linesOfAll [Node.branch "network" [memberList "layer3" z.interfaces]]
      = (Mark.opening "network").line :: (memberList "layer3" z.interfaces).lines
        ++ [(Mark.closing "network").line] := by
    rw [Xml.linesOfAll_singleton, lines_branch, Xml.linesOfAll_singleton]
    rfl
  rw [Block.zoneMembers, zoneEntry, lines_ofLines (List.cons_ne_nil _ _) hflat, hlist,
    List.dropWhile_cons_of_pos (by simpa using hentry)]
  have hnetwork : (Mark.opening "network").line = openTag "network" := rfl
  rw [List.cons_append, List.cons_append, List.map_cons, List.dropWhile_cons_of_neg (by simp [hnetwork]),
    memberList, lines_branch]
  by_cases hne : z.interfaces = []
  · simp only [hne, List.map_nil, List.isEmpty_nil, if_true, List.cons_append, List.nil_append,
      List.map_cons, hempty, Bool.false_eq_true, if_false]
  · rw [if_neg (by simpa using hne)]
    simp only [List.cons_append, List.append_assoc, List.map_cons, hmode, Bool.false_eq_true,
      if_false, if_true, map_text_mk]
    exact leadingMembers_linesOfAll (by decide) z.interfaces _

/-- **A group is read back with its members**, those that are spelled out in their normal form. -/
theorem readGroup_groupEntry (g : AddressGroup) :
    readGroup (Block.ofLines (groupEntry g).lines) g.name
      = { g with members := g.members.map Endpoint.normalize } := by
  have hleaves : ∀ n ∈ leaf? "description" g.description, Flat n :=
    flat_leaf? (by decide) (by decide) _
  have hmembers := members_listEntry g.name (g.members.map Endpoint.normalize)
    (by decide : IsName "static") (by decide) (by decide) hleaves
    (skips_leaf? _ (by decide) (by decide) (by decide) (by decide))
  have hdescription : (Block.ofLines (groupEntry g).lines).leaf "description" = g.description := by
    rw [groupEntry, leaf_ofLines (by decide) (List.forall_mem_cons.2
      ⟨flat_memberList (by decide) (by decide) _, hleaves⟩), leafIn_cons,
      leafIn_memberList (by decide) (by decide) (by decide) (by decide), Option.none_or,
      leafIn_leaf? _ (by decide) (by decide) (by decide)]
    rfl
  rw [readGroup, hdescription, groupEntry, hmembers]

/-- The object of what stands in the place of a network. -/
def objectOfNetmask (o : AddressObject) (value : String) : AddressObject :=
  match Network.ofCidr? value with
  | some n => .ofNetwork o.name n o.description
  | none => { name := o.name, kind := .host, value, description := o.description }

/-- An address as it is read back. -/
def addressReadBack (o : AddressObject) : AddressObject :=
  match o.kind with
  | .host => objectOfNetmask o o.value
  | .subnet => objectOfNetmask o o.cidr
  | .range | .fqdn => { o with mask := none }

theorem name_addressReadBack (o : AddressObject) : (addressReadBack o).name = o.name := by
  have hnetmask (value : String) : (objectOfNetmask o value).name = o.name := by
    rw [objectOfNetmask]
    split
    · exact AddressObject.name_ofNetwork ..
    · rfl
  rw [addressReadBack]
  split
  · exact hnetmask _
  · exact hnetmask _
  · rfl
  · rfl

theorem objectOfNetmask_of_isIPv4 {o : AddressObject} {value : String} (h : isIPv4 value = true) :
    objectOfNetmask o value
      = { name := o.name, kind := .host, value, description := o.description } := by
  rw [objectOfNetmask, Network.ofCidr?_of_isIPv4 h]

theorem objectOfNetmask_cidr {o : AddressObject} {n : Network} (ha : isIPv4 n.address = true)
    (hm : n.mask ∈ Netmask.table) :
    objectOfNetmask o n.cidr = .ofNetwork o.name n o.description := by
  rw [objectOfNetmask, Network.ofCidr?_cidr ha hm]

/-- **An address that every dialect can write is read back as it is.** -/
theorem addressReadBack_of_isConcrete {o : AddressObject} (ho : o.IsConcrete) :
    addressReadBack o = o := by
  cases ho with
  | host name description haddress =>
    simp only [addressReadBack, objectOfNetmask_of_isIPv4 haddress]
  | @subnet name address mask description haddress hmask hsingle =>
    have hread (o : AddressObject) : objectOfNetmask o (Network.mk address mask).cidr
        = .ofNetwork o.name ⟨address, mask⟩ o.description := objectOfNetmask_cidr haddress hmask
    have hnetwork : AddressObject.ofNetwork name ⟨address, mask⟩ description
        = { name, kind := .subnet, value := address, mask := some mask, description } :=
      AddressObject.ofNetwork_of_ne hsingle
    simp only [addressReadBack, AddressObject.cidr, hread, hnetwork]
  | range => simp only [addressReadBack]
  | fqdn => simp only [addressReadBack]

/-- The tags of the ways in which an address may be given. -/
def addressTags : List String := ["ip-netmask", "ip-range", "fqdn"]

/-- Of an address, the way in which it is given is found, and its description. -/
theorem leaf_addressEntry {o : AddressObject} {tag value : String} (htag : tag ∈ addressTags)
    (hentry : addressEntry o
      = entry o.name (Node.leaf tag value :: leaf? "description" o.description)) {t : String}
    (ht : t ∈ "description" :: addressTags) :
    (Block.ofLines (addressEntry o).lines).leaf t
      = (if tag = t then some value else none).or
        (if "description" = t then o.description else none) := by
  have hnames : ∀ s ∈ "description" :: addressTags, IsName s ∧ s ≠ "entry" := by decide
  obtain ⟨htagName, htagEntry⟩ := hnames tag (List.mem_cons_of_mem _ htag)
  obtain ⟨htName, -⟩ := hnames t ht
  rw [hentry, leaf_ofLines htName (List.forall_mem_cons.2
      ⟨.leaf value htagName htagEntry, flat_leaf? (by decide) (by decide) _⟩), leafIn_cons,
    leafIn_leaf value htName htagName htagEntry, leafIn_leaf? _ htName (by decide) (by decide)]

/-- **An address is read back from its entry.** -/
theorem readAddress_addressEntry (o : AddressObject) :
    readAddress (Block.ofLines (addressEntry o).lines) o.name = some (addressReadBack o) := by
  have hleaves (tag value : String) (htag : tag ∈ addressTags) (h : addressEntry o
      = entry o.name (Node.leaf tag value :: leaf? "description" o.description)) :=
    fun t (ht : t ∈ "description" :: addressTags) => leaf_addressEntry htag h ht
  have hnetmask {value : String} (h : addressEntry o
      = entry o.name (Node.leaf "ip-netmask" value :: leaf? "description" o.description)) :
      readAddress (Block.ofLines (addressEntry o).lines) o.name
        = some (objectOfNetmask o value) := by
    have hleaf := hleaves "ip-netmask" value (by decide) h
    rw [readAddress, hleaf "description" (by decide), hleaf "ip-netmask" (by decide)]
    rfl
  rw [addressReadBack]
  cases hkind : o.kind with
  | host => exact hnetmask (by rw [addressEntry, hkind])
  | subnet => exact hnetmask (by rw [addressEntry, hkind])
  | range =>
    have hleaf := hleaves "ip-range" o.value (by decide) (by rw [addressEntry, hkind])
    rw [readAddress, hleaf "description" (by decide), hleaf "ip-netmask" (by decide),
      hleaf "ip-range" (by decide)]
    simp
  | fqdn =>
    have hleaf := hleaves "fqdn" o.value (by decide) (by rw [addressEntry, hkind])
    rw [readAddress, hleaf "description" (by decide), hleaf "ip-netmask" (by decide),
      hleaf "ip-range" (by decide), hleaf "fqdn" (by decide)]
    simp

/-- The protocol that a service is read back with: none of those without ports. -/
def protocolReadBack (protocol : String) : String :=
  if protocol = "tcp" ∨ protocol = "udp" then protocol else "ip"

/-- A service, declared or spelled out by a rule. -/
def serviceNode (name protocol ports : String) (description : Option String) : Node :=
  entry name (protocolElement protocol ports :: leaf? "description" description)

/-- The marks that a service is written in. -/
def serviceMarks (name protocol ports : String) (description : Option String) : List Mark :=
  [.entry name, .opening "protocol", .opening protocol, .leaf "port" ports, .closing protocol,
      .closing "protocol"]
    ++ (description.toList.map (Mark.leaf "description") ++ [.closing "entry"])

section Service

variable (name : String) {protocol : String} (hprotocol : IsName protocol)
  (hentry : protocol ≠ "entry") (ports : String) (description : Option String)

theorem lines_serviceNode (protocol : String) : (serviceNode name protocol ports description).lines
    = (serviceMarks name protocol ports description).map Mark.line := by
  have hdescription : linesOfAll (leaf? "description" description)
      = description.toList.map fun s => (Mark.leaf "description" s).line := by
    cases description with
    | none => rfl
    | some s => exact (Xml.linesOfAll_singleton _).trans (lines_leaf _ s)
  rw [serviceNode, lines_entry, if_neg (by simp), Xml.linesOfAll_cons, hdescription,
    protocolElement, nested, nested, lines_branch, if_neg (by simp), Xml.linesOfAll_singleton,
    lines_branch, if_neg (by simp), Xml.linesOfAll_singleton, lines_leaf]
  simp [serviceMarks, Function.comp_def]

include hprotocol hentry

theorem valid_serviceMarks : ∀ m ∈ serviceMarks name protocol ports description, m.Valid := by
  have hnames : (IsName "protocol" ∧ "protocol" ≠ "entry") ∧ (IsName "port" ∧ "port" ≠ "entry")
      ∧ IsName "description" ∧ "description" ≠ "entry" := by decide
  simp only [serviceMarks, List.forall_mem_append, List.forall_mem_cons, List.forall_mem_map]
  exact ⟨⟨trivial, hnames.1, ⟨hprotocol, hentry⟩, hnames.2.1, hprotocol, hnames.1.1,
    List.forall_mem_nil _⟩, fun _ _ => hnames.2.2, isName_entry, List.forall_mem_nil _⟩

/-- The element of a protocol is in a service just if the service has that protocol. -/
theorem hasTag_serviceNode {t : String} (ht : t ∈ ["tcp", "udp"]) :
    (Block.ofLines (serviceNode name protocol ports description).lines).hasTag t
      = (protocol == t) := by
  have hothers : IsName t ∧ ("protocol" == t) = false ∧ ("port" == t) = false
      ∧ ("description" == t) = false := by
    revert t
    decide
  obtain ⟨hname, hprotocolNe, hportNe, hdescriptionNe⟩ := hothers
  rw [lines_serviceNode, hasTag_ofMarks hname (valid_serviceMarks name hprotocol hentry ports _)]
  cases description
    <;> simp [serviceMarks, Mark.opensTag, Mark.isEmpty, hprotocolNe, hportNe, hdescriptionNe]

theorem leaf_serviceNode {t : String} (ht : IsName t) :
    (Block.ofLines (serviceNode name protocol ports description).lines).leaf t
      = (if "port" = t then some ports else none).or
        (if "description" = t then description else none) := by
  have hports : ∀ n ∈ [Node.leaf "port" ports], Flat n :=
    List.forall_mem_singleton.2 (.leaf ports (by decide) (by decide))
  have htags : ∀ t ∈ ["protocol", protocol], IsName t ∧ t ≠ "entry" :=
    List.forall_mem_cons.2 ⟨by decide, List.forall_mem_singleton.2 ⟨hprotocol, hentry⟩⟩
  have hflat : ∀ n ∈ protocolElement protocol ports :: leaf? "description" description, Flat n :=
    List.forall_mem_cons.2 ⟨flat_nested htags hports, flat_leaf? (by decide) (by decide) _⟩
  rw [serviceNode, leaf_ofLines ht hflat, leafIn_cons, protocolElement, nested, nested,
    leafIn_branch ht (by decide) (by decide), leafIn_branch ht hprotocol hentry,
    leafIn_leaf ports ht (by decide) (by decide),
    leafIn_leaf? _ ht (by decide) (by decide)]

/-- **A service is read back with its protocol, its ports and its description.** -/
theorem readService_serviceNode :
    readService (Block.ofLines (serviceNode name protocol ports description).lines) name
      = { name, protocol := protocolReadBack protocol, port := some ports, description } := by
  have htag {t : String} (ht : t ∈ ["tcp", "udp"]) :=
    hasTag_serviceNode name hprotocol hentry ports description ht
  have hleaf {t : String} (ht : IsName t) :=
    leaf_serviceNode name hprotocol hentry ports description ht
  rw [readService, hleaf (by decide), hleaf (by decide)]
  simp only [List.find?_cons, List.find?_nil, htag (t := "tcp") (by decide),
    htag (t := "udp") (by decide), protocolReadBack]
  by_cases htcp : protocol = "tcp"
  · simp [htcp]
  · rw [beq_eq_false_iff_ne.2 htcp]
    by_cases hudp : protocol = "udp"
    · simp [hudp]
    · simp [beq_eq_false_iff_ne.2 hudp, htcp, hudp]

end Service

/-- **An application is read back** with all that is written of it. -/
theorem readApplication_applicationEntry (a : Application) :
    readApplication (Block.ofLines (applicationEntry a).lines) a.name = a := by
  have hleaf {t : String} (ht : IsName t) : (Block.ofLines (applicationEntry a).lines).leaf t
      = (if "category" = t then a.category else none).or
        (if "description" = t then a.description else none) := by
    rw [applicationEntry, leaf_ofLines ht (List.forall_mem_append.2
        ⟨flat_leaf? (by decide) (by decide) _, flat_leaf? (by decide) (by decide) _⟩),
      leafIn_append, leafIn_leaf? _ ht (by decide) (by decide),
      leafIn_leaf? _ ht (by decide) (by decide)]
  rw [readApplication, hleaf (by decide), hleaf (by decide)]
  simp

/-- **A category of web addresses is read back** with all that is written of it. -/
theorem readUrlCategory_urlCategoryEntry (u : UrlCategory) :
    readUrlCategory (Block.ofLines (urlCategoryEntry u).lines) u.name = u := by
  have hleaves : ∀ n ∈ Node.leaf "type" "URL List" :: leaf? "description" u.description, Flat n :=
    List.forall_mem_cons.2 ⟨.leaf _ (by decide) (by decide), flat_leaf? (by decide) (by decide) _⟩
  have hskips : Skips "list" (Node.leaf "type" "URL List" :: leaf? "description" u.description) := by
    rw [skips_cons, ← Xml.linesOfAll_singleton]
    exact ⟨skips_leaf _ (by decide) (by decide) (by decide) (by decide),
      skips_leaf? _ (by decide) (by decide) (by decide) (by decide)⟩
  have hurls := members_listEntry u.name u.urls (by decide : IsName "list") (by decide)
    (by decide) hleaves hskips
  have hdescription : (Block.ofLines (urlCategoryEntry u).lines).leaf "description"
      = u.description := by
    rw [urlCategoryEntry, leaf_ofLines (by decide) (List.forall_mem_cons.2
      ⟨flat_memberList (by decide) (by decide) _, hleaves⟩), leafIn_cons,
      leafIn_memberList (by decide) (by decide) (by decide) (by decide), leafIn_cons,
      leafIn_leaf _ (by decide) (by decide) (by decide),
      leafIn_leaf? _ (by decide) (by decide) (by decide)]
    simp
  rw [readUrlCategory, hdescription, urlCategoryEntry, hurls]

/-! ## Accounts -/

/-- The secret of an account is read back. -/
theorem secret_readUser_userEntry (u : User) :
    (readUser (Block.ofLines (userEntry u).lines) u.username).secret = u.secret := by
  have hroles : ∀ r ∈ "superuser" :: "superreader" :: roles, IsName r ∧ r ≠ "entry" ∧ r ≠ "phash" := by
    decide
  obtain ⟨hname, hentry, hphash⟩ := hroles _ (writtenRole_mem u)
  have hpermissions : Flat (nested "permissions" ["role-based"] [.leaf (writtenRole u) "yes"]) :=
    flat_nested (by decide) (List.forall_mem_singleton.2 (.leaf _ hname hentry))
  show (Block.ofLines (userEntry u).lines).leaf "phash" = u.secret
  rw [userEntry, leaf_ofLines (by decide) (List.forall_mem_append.2
      ⟨flat_leaf? (by decide) (by decide) _, List.forall_mem_singleton.2 hpermissions⟩),
    leafIn_append, leafIn_leaf? _ (by decide) (by decide) (by decide), nested, nested,
    leafIn_branch (by decide) (by decide) (by decide),
    leafIn_branch (by decide) (by decide) (by decide),
    leafIn_leaf _ (by decide) hname hentry, if_neg hphash, Option.or_none, if_pos rfl]

/-! ## Interfaces, routes and tunnels -/

/-- No unit is read from an interface that was written. -/
theorem readUnits_interfaceEntry (i : Interface) :
    readUnits (Block.ofLines (interfaceEntry i).lines) = [] := by
  rw [readUnits, interfaceEntry, children_ofLines, List.filterMap_nil]
  simp only [List.cons_append, List.forall_mem_cons, List.forall_mem_append]
  refine ⟨.branch (by decide) (by decide) (List.forall_mem_append.2 ⟨?_, ?_⟩), ?_, ?_⟩
  · refine List.forall_mem_map.2 fun address _ => ?_
    exact .branch (by decide) (by decide) (List.forall_mem_singleton.2 (.entry _))
  · exact flat_leaf? (by decide) (by decide) _
  · split
    · exact List.forall_mem_nil _
    · exact List.forall_mem_singleton.2 (.leaf _ (by decide) (by decide))
  · exact flat_leaf? (by decide) (by decide) _

/-- What a route is read back as. -/
def routeReadBack (c : Config) (r : Route) (position : Nat) : Route :=
  let destination := (Network.mk r.network r.mask).cidr
  let n := (Network.read? destination).getD ⟨destination, Netmask.single⟩
  { name := some (r.name.getD s!"route-{position + 1}")
    network := n.address
    mask := n.mask
    gateway := r.gateway
    interface := r.interface.map c.deviceName
    distance := r.distance }

/-- **A route is read back with its name, its gateway, its interface and its distance.** -/
theorem readRoute_routeEntry (c : Config) (r : Route) (position : Nat) :
    readRoute (Block.ofLines (routeEntry c r position).lines)
        (r.name.getD s!"route-{position + 1}")
      = some (routeReadBack c r position) := by
  have hgateway : ∀ n ∈ r.gateway.toList.map fun gateway =>
      Node.branch "nexthop" [.leaf "ip-address" gateway], Flat n :=
    List.forall_mem_map.2 fun gateway _ => .branch (by decide) (by decide)
      (List.forall_mem_singleton.2 (.leaf gateway (by decide) (by decide)))
  have hleaf {t : String} (ht : IsName t) :
      (Block.ofLines (routeEntry c r position).lines).leaf t
        = (((if "destination" = t then some (Network.mk r.network r.mask).cidr else none).or
            (if "ip-address" = t then r.gateway else none)).or
            (if "interface" = t then r.interface.map c.deviceName else none)).or
            (if "admin-dist" = t then r.distance.map toString else none) := by
    have hnexthop : leafIn t (r.gateway.toList.map fun gateway =>
        Node.branch "nexthop" [.leaf "ip-address" gateway])
          = if "ip-address" = t then r.gateway else none := by
      cases r.gateway with
      | none => exact (ite_self none).symm
      | some gateway =>
        exact (leafIn_branch ht (by decide) (by decide)).trans
          (leafIn_leaf gateway ht (by decide) (by decide))
    rw [routeEntry, leaf_ofLines ht, leafIn_append, leafIn_append, leafIn_cons, hnexthop,
      leafIn_leaf _ ht (by decide) (by decide), leafIn_leaf? _ ht (by decide) (by decide),
      leafIn_leaf? _ ht (by decide) (by decide)]
    simp only [List.forall_mem_append, List.forall_mem_cons]
    exact ⟨⟨⟨.leaf _ (by decide) (by decide), hgateway⟩, flat_leaf? (by decide) (by decide) _⟩,
      flat_leaf? (by decide) (by decide) _⟩
  have hdistance : (r.distance.map toString).bind Text.readUInt16 = r.distance := by
    cases r.distance with
    | none => rfl
    | some d => exact Text.readUInt16_toString d
  rw [readRoute, hleaf (by decide), hleaf (by decide), hleaf (by decide), hleaf (by decide)]
  simp [routeReadBack, hdistance]

/-- **A tunnel is read back with its gateway**, whatever selectors stand in it. -/
theorem exists_readSelector_tunnelEntry (c : Config) (t : Tunnel) (position : Nat) :
    ∃ read, readSelector (Block.ofLines (tunnelEntry c t position).lines) s!"{t.label}-tunnel"
        = some read
      ∧ read.name = s!"{t.label}-tunnel" ∧ read.tunnel = t.label := by
  have hgateway : (Block.ofLines (tunnelEntry c t position).lines).entryAfter "ike-gateway"
      = some t.label := by
    have hkey (more : List Node) :
        (Node.branch "auto-key" (Node.branch "ike-gateway" [entry t.label []] :: more)).lines
          = (Mark.opening "auto-key").line :: (Mark.opening "ike-gateway").line
            :: (Mark.emptyEntry t.label).line :: ((Mark.closing "ike-gateway").line
              :: (linesOfAll more ++ [(Mark.closing "auto-key").line])) := by
      rw [lines_branch, if_neg (by simp), Xml.linesOfAll_cons, lines_branch, if_neg (by simp),
        Xml.linesOfAll_singleton, lines_entry, if_pos (by rfl)]
      simp only [List.cons_append, List.nil_append]
    obtain ⟨rest, hlines⟩ : ∃ rest, (tunnelEntry c t position).lines
        = [(Mark.entry s!"{t.label}-tunnel").line, (Mark.opening "auto-key").line]
          ++ (Mark.opening "ike-gateway").line :: (Mark.emptyEntry t.label).line :: rest := by
      rw [tunnelEntry, lines_entry, if_neg (by simp), Xml.linesOfAll_cons]
      simp only [List.cons_append, List.nil_append, hkey, List.append_assoc]
      exact ⟨_, rfl⟩
    have hbefore : ∀ l ∈ [(Mark.entry s!"{t.label}-tunnel").line, (Mark.opening "auto-key").line],
        opensWith "ike-gateway" l = false := by
      have hentry : opensWith "ike-gateway" (Mark.entry s!"{t.label}-tunnel").line = false :=
        Mark.opensWith_line (by decide) (m := .entry _) trivial
      exact List.forall_mem_cons.2 ⟨hentry, by decide⟩
    rw [hlines]
    exact entryAfter_ofLines (by decide) (by decide) t.label hbefore rest
  rw [readSelector, hgateway]
  exact ⟨_, rfl, rfl, rfl⟩

end FirewallConfig.PanOs
