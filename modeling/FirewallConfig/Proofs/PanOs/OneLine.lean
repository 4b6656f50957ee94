import FirewallConfig.PanOs.Reader
import FirewallConfig.Proofs.Config.Put
import FirewallConfig.Proofs.Xml.Entity

/-!
# Proofs/PanOs/OneLine — what is read of a document holds no line feed

A document is read line by line, and entities stand for no line feed.  Each line of an entry holds
none (`Block.OneLine`), and so neither does anything that the entry means; reading keeps that of the
configuration and of the entry that is being collected (`oneLine_read`).
-/

namespace FirewallConfig.PanOs

open Text

/-! ## Lines -/

theorem oneLine_leafText {tag line : String} (h : OneLine line) :
    ∀ s ∈ leafText tag line, OneLine s := by
  intro s hs
  obtain ⟨t, ht, rfl⟩ := Option.map_eq_some_iff.1 hs
  obtain ⟨u, hu, ht⟩ := Option.bind_eq_some_iff.1 ht
  exact Xml.oneLine_unescape ((h.withoutPrefix hu).withoutSuffix ht)

theorem oneLine_entryName {line : String} (h : OneLine line) : ∀ s ∈ entryName line, OneLine s := by
  intro s hs
  obtain ⟨attributes, hattributes, hs⟩ := Option.bind_eq_some_iff.1 hs
  obtain ⟨⟨before, value⟩, hvalue, hs⟩ := Option.bind_eq_some_iff.1 hs
  obtain ⟨⟨name, after⟩, hname, rfl⟩ := Option.map_eq_some_iff.1 hs
  exact Xml.oneLine_unescape (((h.trim.withoutPrefix hattributes).cutAt hvalue).2.cut hname).1

theorem oneLine_inlineMembers {line : String} (h : OneLine line) :
    ∀ s ∈ inlineMembers line, OneLine s := by
  refine List.forall_mem_filterMap.2 fun piece hpiece s hs => ?_
  obtain ⟨⟨value, after⟩, hvalue, rfl⟩ := Option.map_eq_some_iff.1 hs
  exact Xml.oneLine_unescape ((h.of_mem_piecesAt (List.mem_of_mem_tail hpiece)).cutAt hvalue).1

theorem oneLine_leadingMembers {lines : List String} (h : ∀ l ∈ lines, OneLine l) :
    ∀ s ∈ leadingMembers lines, OneLine s := by
  induction lines with
  | nil => exact List.forall_mem_nil _
  | cons l lines ih =>
    obtain ⟨hl, hlines⟩ := List.forall_mem_cons.1 h
    rw [leadingMembers]
    split
    · next value hvalue =>
      exact List.forall_mem_cons.2 ⟨oneLine_leafText hl value hvalue, ih hlines⟩
    · exact List.forall_mem_nil _

/-! ## Blocks -/

/-- No line of the block holds a line feed, and its name holds none. -/
structure Block.OneLine (b : Block) : Prop where
  name : ∀ s ∈ b.name, Text.OneLine s
  lines : ∀ l ∈ b.lines, Text.OneLine l.text

theorem oneLine_of_mem_deepLines {depth : Nat} {ls : List String} (h : ∀ l ∈ ls, OneLine l) :
    ∀ l ∈ deepLines depth ls, OneLine l.text := by
  induction ls generalizing depth with
  | nil => exact List.forall_mem_nil _
  | cons l ls ih =>
    obtain ⟨hl, hls⟩ := List.forall_mem_cons.1 h
    exact List.forall_mem_cons.2 ⟨hl, ih hls⟩

theorem Block.oneLine_ofLines {ls : List String} (h : ∀ l ∈ ls, Text.OneLine l) :
    (ofLines ls).OneLine where
  name s hs := by
    obtain ⟨l, hl, hs⟩ := Option.bind_eq_some_iff.1 hs
    exact oneLine_entryName (h l (List.mem_of_mem_head? hl)) s hs
  lines := oneLine_of_mem_deepLines h

namespace Block.OneLine

variable {b : Block} (hb : b.OneLine)
include hb

theorem own : ∀ l ∈ b.own, Text.OneLine l :=
  List.forall_mem_map.2 fun l hl => hb.lines l (List.mem_of_mem_tail (List.mem_filter.1 hl).1)

theorem leaf (tag : String) : ∀ s ∈ b.leaf tag, Text.OneLine s := by
  intro s hs
  obtain ⟨l, hl, hs⟩ := List.exists_of_findSome?_eq_some hs
  exact oneLine_leafText (hb.own l hl) s hs

theorem anyLeaf (tag : String) : ∀ s ∈ b.anyLeaf tag, Text.OneLine s := by
  intro s hs
  obtain ⟨l, hl, hs⟩ := List.exists_of_findSome?_eq_some hs
  exact oneLine_leafText (hb.lines l hl) s hs

theorem members (tag : String) : ∀ s ∈ b.members tag, Text.OneLine s := by
  rw [Block.members]
  split
  · exact List.forall_mem_nil _
  · next l rest heq =>
    have hlines : ∀ m ∈ l :: rest, Text.OneLine m.text := fun m hm =>
      hb.lines m (List.mem_of_mem_tail ((List.dropWhile_sublist _).subset (heq ▸ hm)))
    split
    · exact oneLine_inlineMembers (hlines l List.mem_cons_self)
    · exact oneLine_leadingMembers (List.forall_mem_map.2 fun m hm =>
        hlines m (List.mem_cons_of_mem _ hm))

theorem entryAfter (tag : String) : ∀ s ∈ b.entryAfter tag, Text.OneLine s := by
  rw [Block.entryAfter]
  split
  · exact forall_mem_none
  · next l rest heq =>
    have hlines : ∀ m ∈ l :: rest, Text.OneLine m.text := fun m hm =>
      hb.lines m ((List.dropWhile_sublist _).subset (heq ▸ hm))
    intro s hs
    rcases Option.or_eq_some_iff.1 hs with hs | ⟨-, hs⟩
    · obtain ⟨t, ht, hs⟩ := Option.bind_eq_some_iff.1 hs
      exact oneLine_entryName ((hlines l List.mem_cons_self).withoutPrefix ht) s hs
    · obtain ⟨m, hm, hs⟩ := Option.bind_eq_some_iff.1 hs
      exact oneLine_entryName
        (hlines m (List.mem_cons_of_mem _ (List.mem_of_mem_head? hm))) s hs

theorem zoneMembers : ∀ s ∈ b.zoneMembers, Text.OneLine s := by
  rw [Block.zoneMembers]
  split
  · next l mode rest heq =>
    have hlines : ∀ m ∈ l :: mode :: rest, Text.OneLine m.text := fun m hm =>
      hb.lines m ((List.dropWhile_sublist _).subset (heq ▸ hm))
    split
    · exact oneLine_inlineMembers (hlines mode (List.mem_cons_of_mem _ List.mem_cons_self))
    · split
      · exact oneLine_leadingMembers (List.forall_mem_map.2 fun m hm =>
          hlines m (List.mem_cons_of_mem _ (List.mem_cons_of_mem _ hm)))
      · exact List.forall_mem_nil _
  · exact List.forall_mem_nil _

end Block.OneLine

/-- The entries in some lines are made of these lines. -/
theorem oneLine_of_mem_childLines {opened : Option (List String × Nat)} {ls : List DeepLine}
    (hopened : ∀ o ∈ opened, ∀ l ∈ o.1, OneLine l) (hls : ∀ l ∈ ls, OneLine l.text) :
    ∀ block ∈ Block.childLines opened ls, ∀ l ∈ block, OneLine l := by
  have hreverse {lines : List String} (h : ∀ l ∈ lines, OneLine l) :
      ∀ l ∈ lines.reverse, OneLine l := fun l hl => h l (List.mem_reverse.1 hl)
  induction ls generalizing opened with
  | nil =>
    unfold Block.childLines
    split
    · exact List.forall_mem_singleton.2 (hreverse (hopened _ rfl))
    · exact List.forall_mem_nil _
  | cons l ls ih =>
    obtain ⟨hl, hls⟩ := List.forall_mem_cons.1 hls
    have hcollected : ∀ o ∈ Block.collected opened l, ∀ m ∈ o.1, OneLine m := by
      unfold Block.collected
      split
      · exact forall_mem_some (List.forall_mem_cons.2 ⟨hl, hopened _ rfl⟩)
      · split
        · exact forall_mem_some (List.forall_mem_singleton.2 hl)
        · exact forall_mem_none
    rw [Block.childLines]
    split
    · next lines depth heq =>
      have hlines := hcollected _ heq
      split
      · exact List.forall_mem_cons.2 ⟨hreverse hlines, ih forall_mem_none hls⟩
      · exact ih (forall_mem_some hlines) hls
    · exact ih forall_mem_none hls

theorem Block.OneLine.children {b : Block} (hb : b.OneLine) : ∀ d ∈ b.children, d.OneLine :=
  List.forall_mem_map.2 fun ls hls => Block.oneLine_ofLines
    (oneLine_of_mem_childLines (fun o ho => by cases ho)
      (fun l hl => hb.lines l (List.mem_of_mem_tail hl)) ls hls)

/-! ## Entries -/

section Entries

variable {b : Block} (hb : b.OneLine) {name : String} (hname : OneLine name)
include hb hname

theorem oneLine_readInterface : (readInterface b name).OneLine := by
  have hnetwork : ∀ n ∈ (b.entryAfter "ip").bind Network.read?,
      OneLine n.address ∧ OneLine n.mask := by
    intro n hn
    obtain ⟨ip, hip, hn⟩ := Option.bind_eq_some_iff.1 hn
    exact Network.oneLine_of_read? (hb.entryAfter _ ip hip) hn
  refine
    { name := hname
      ip := fun s hs => ?_
      mask := fun s hs => ?_
      nickname := hb.leaf _
      comment := nofun
      zone := nofun }
  · obtain ⟨n, hn, rfl⟩ := Option.map_eq_some_iff.1 hs
    exact (hnetwork n hn).1
  · obtain ⟨n, hn, rfl⟩ := Option.map_eq_some_iff.1 hs
    exact (hnetwork n hn).2

omit hname in
theorem oneLine_readUnits : ∀ i ∈ readUnits b, i.OneLine := by
  refine List.forall_mem_filterMap.2 fun unit hunit i hi => ?_
  obtain ⟨name, hname, rfl⟩ := Option.map_eq_some_iff.1 hi
  have hunit := hb.children unit hunit
  exact { oneLine_readInterface hunit (hunit.name name hname) with }

theorem oneLine_readAddress : ∀ o ∈ readAddress b name, o.OneLine := by
  have hdescription := hb.leaf "description"
  intro o ho
  rw [readAddress] at ho
  split at ho
  · next value hvalue =>
    have hvalue := hb.leaf _ value hvalue
    cases ho
    split
    · next n hn =>
      obtain ⟨haddress, hmask⟩ := Network.oneLine_of_ofCidr? hvalue hn
      split
      · exact ⟨hname, haddress, nofun, hdescription⟩
      · refine ⟨hname, haddress, ?_, hdescription⟩
        rintro s ⟨⟩
        exact hmask
    · exact ⟨hname, hvalue, nofun, hdescription⟩
  · next value _ hvalue =>
    cases ho
    exact ⟨hname, hb.leaf _ value hvalue, nofun, hdescription⟩
  · next value _ _ hvalue =>
    cases ho
    exact ⟨hname, hb.leaf _ value hvalue, nofun, hdescription⟩
  · cases ho

theorem oneLine_readService : (readService b name).OneLine where
  name := hname
  protocol := by
    rw [readService]
    cases hfind : ["tcp", "udp"].find? b.hasTag with
    | none => exact (by decide : OneLine "ip")
    | some protocol =>
      have hall : ∀ p ∈ ["tcp", "udp"], OneLine p := by decide
      exact hall protocol (List.mem_of_find?_eq_some hfind)
  port := hb.leaf _
  description := hb.leaf _

omit hname in
theorem oneLine_readZone (tag : String) : ∀ s ∈ readZone b tag, OneLine s := fun s hs =>
  hb.members tag s (List.mem_of_find?_eq_some hs)

theorem oneLine_readPolicy : (readPolicy b name).OneLine where
  name := by simpa [readPolicy] using hname
  protocol := (by decide : OneLine "ip")
  source := hb.members _
  destination := hb.members _
  service := fun s hs => hb.members _ s (List.mem_filter.1 hs).1
  sourceZone := oneLine_readZone hb _
  destinationZone := oneLine_readZone hb _
  application := fun s hs => hb.members _ s (List.mem_filter.1 hs).1
  description := hb.leaf _

theorem oneLine_readNat : (readNat b name).OneLine := by
  have hhead (tag : String) : ∀ s ∈ (b.members tag).head?, OneLine s := fun s hs =>
    hb.members tag s (List.mem_of_mem_head? hs)
  refine
    { name := by simpa [readNat] using hname
      source := hhead _
      destination := hhead _
      translated := fun s hs => ?_
      sourceInterface := hhead _
      interface := hhead _
      natId := nofun
      description := hb.leaf _ }
  rcases Option.or_eq_some_iff.1 hs with hs | ⟨-, hs⟩
  · exact hb.anyLeaf _ s hs
  · rcases Option.or_eq_some_iff.1 hs with hs | ⟨-, hs⟩
    · exact hhead _ s hs
    · split at hs
      · cases hs
        decide
      · cases hs

theorem oneLine_readRoute : ∀ r ∈ readRoute b name, r.OneLine := by
  intro r hr
  obtain ⟨destination, hdestination, rfl⟩ := Option.map_eq_some_iff.1 hr
  have hdestination := hb.leaf _ destination hdestination
  have hnetwork : ∀ n, n = (Network.read? destination).getD ⟨destination, Netmask.single⟩ →
      OneLine n.address ∧ OneLine n.mask := by
    rintro n rfl
    cases hn : Network.read? destination with
    | none => exact ⟨hdestination, Netmask.oneLine_single⟩
    | some n => exact Network.oneLine_of_read? hdestination hn
  exact
    { name := by simpa using hname
      network := (hnetwork _ rfl).1
      mask := (hnetwork _ rfl).2
      gateway := hb.leaf _
      interface := hb.leaf _
      description := nofun }

theorem oneLine_readTunnel : (readTunnel b name).OneLine where
  name := hname
  interface := hb.leaf _
  peer := fun s hs => hb.leaf _ s (Option.filter_eq_some_iff.1 hs).1
  proposal := hb.leaf _
  preSharedKey := hb.leaf _
  acl := nofun
  description := nofun

theorem oneLine_readSelector : ∀ s ∈ readSelector b name, s.OneLine := by
  intro s hs
  obtain ⟨gateway, hgateway, rfl⟩ := Option.map_eq_some_iff.1 hs
  have hproxy (tag : String) : ∀ s ∈ b.children.head?.bind (·.leaf tag), OneLine s := by
    intro s hs
    obtain ⟨d, hd, hs⟩ := Option.bind_eq_some_iff.1 hs
    exact (hb.children d (List.mem_of_mem_head? hd)).leaf tag s hs
  exact
    { name := hname
      tunnel := hb.entryAfter _ gateway hgateway
      proposal := hb.leaf _
      source := hproxy _
      destination := hproxy _ }

theorem oneLine_readUser : (readUser b name).OneLine where
  username := hname
  secret := hb.leaf _
  role := fun s hs => by
    have hroles : ∀ r ∈ roles, OneLine r := by decide
    have hfind : roles.find? (fun r => b.hasTag r || (b.anyLeaf r).isSome) = some s := hs
    exact hroles s (List.mem_of_find?_eq_some hfind)

/-- **An entry adds nothing with a line feed.** -/
theorem oneLine_addEntry {c : Config} (hc : c.OneLine) (a : Area) :
    (addEntry c b name a).OneLine := by
  cases a with
  | interfaces =>
    exact (hc.putInterface (oneLine_readInterface hb hname)).foldl_putInterface
      (oneLine_readUnits hb)
  | zones =>
    exact { hc with zones := forall_mem_concat hc.zones ⟨hname, hb.zoneMembers, nofun⟩ }
  | addresses =>
    exact hc.foldl_putAddressObject fun o ho =>
      oneLine_readAddress hb hname o (Option.mem_toList.1 ho)
  | addressGroups =>
    exact { hc with
      addressGroups := forall_mem_concat hc.addressGroups ⟨hname, hb.members _, hb.leaf _⟩ }
  | services =>
    exact { hc with services := forall_mem_concat hc.services (oneLine_readService hb hname) }
  | security =>
    exact { hc with policies := forall_mem_concat hc.policies (oneLine_readPolicy hb hname) }
  | nat => exact { hc with nat := forall_mem_concat hc.nat (oneLine_readNat hb hname) }
  | routes =>
    exact { hc with routes := forall_mem_append_toList hc.routes (oneLine_readRoute hb hname) }
  | ikeGateways =>
    exact { hc with
      vpn := { hc.vpn with
        tunnels := forall_mem_concat hc.vpn.tunnels (oneLine_readTunnel hb hname) } }
  | ipsecTunnels =>
    exact { hc with
      vpn := { hc.vpn with
        selectors := forall_mem_append_toList hc.vpn.selectors (oneLine_readSelector hb hname) } }
  | admins => exact { hc with users := forall_mem_concat hc.users (oneLine_readUser hb hname) }
  | applications =>
    exact { hc with
      applications := forall_mem_concat hc.applications ⟨hname, hb.leaf _, hb.leaf _⟩ }
  | urlCategories =>
    exact { hc with
      urlCategories := forall_mem_concat hc.urlCategories ⟨hname, hb.members _, hb.leaf _⟩ }

end Entries

/-! ## The scan -/

theorem oneLine_settingLine {c : Config} (hc : c.OneLine) {line : String} (h : OneLine line) :
    (Reading.settingLine c line).OneLine := by
  have hleaf {tag value : String} (hvalue : leafText tag line = some value) :
      ∀ s ∈ some value, OneLine s := by
    rintro s ⟨⟩
    exact oneLine_leafText h value hvalue
  rw [Reading.settingLine]
  split
  · next hvalue => exact { hc with hostname := hleaf hvalue }
  · next hvalue => exact { hc with device := { hc.device with timezone := hleaf hvalue } }
  · next hvalue => exact { hc with device := { hc.device with domain := hleaf hvalue } }
  · exact hc

/-- Nothing that has been read holds a line feed. -/
structure Reading.OneLine (r : Reading) : Prop where
  config : r.config.OneLine
  entry : ∀ e ∈ r.entry, ∀ l ∈ e.1, Text.OneLine l

namespace Reading.OneLine

variable {r : Reading} (hr : r.OneLine)
include hr

theorem takeEntry {ls : List String} (h : ∀ l ∈ ls, Text.OneLine l) :
    (r.takeEntry ls).OneLine := by
  have hb := Block.oneLine_ofLines h
  rw [Reading.takeEntry]
  split
  · next name _ hname =>
    exact ⟨oneLine_addEntry hb (hb.name name hname) hr.config _, nofun⟩
  · exact ⟨hr.config, nofun⟩

theorem idleLine {line : String} (h : Text.OneLine line) : (r.idleLine line).OneLine := by
  rw [Reading.idleLine]
  split
  · exact ⟨hr.config, hr.entry⟩
  · exact ⟨oneLine_settingLine hr.config h, hr.entry⟩
  · split
    · exact ⟨hr.config, hr.entry⟩
    · split
      · exact hr
      · split
        · exact hr.takeEntry (List.forall_mem_singleton.2 h)
        · refine ⟨hr.config, ?_⟩
          rintro e ⟨⟩
          exact List.forall_mem_singleton.2 h

theorem step {raw : String} (h : Text.OneLine raw) : (r.step raw).OneLine := by
  rw [Reading.step]
  split
  · exact hr.idleLine h.trim
  · next lines depth hentry =>
    have hlines : ∀ l ∈ trim raw :: lines, Text.OneLine l :=
      List.forall_mem_cons.2 ⟨h.trim, hr.entry _ hentry⟩
    dsimp only
    split
    · exact hr.takeEntry fun l hl => hlines l (List.mem_reverse.1 hl)
    · refine ⟨hr.config, ?_⟩
      rintro e ⟨⟩
      exact hlines

theorem run {ls : List String} (h : ∀ l ∈ ls, Text.OneLine l) : (r.run ls).OneLine := by
  induction ls generalizing r with
  | nil => exact hr
  | cons l ls ih =>
    obtain ⟨hl, hls⟩ := List.forall_mem_cons.1 h
    exact ih (hr.step hl) hls

end Reading.OneLine

/-- **No text of a configuration that was read holds a line feed.** -/
theorem oneLine_read (text : String) : (read text).OneLine := by
  have hstart : Reading.OneLine {} := ⟨{}, nofun⟩
  have hc := (hstart.run fun _ h => oneLine_of_mem_lines h : (Reading.run {} (lines text)).OneLine)
    |>.config
  refine { hc with interfaces := List.forall_mem_map.2 fun i hi => ?_ }
  have hi := hc.interfaces i hi
  refine { hi with zone := fun s hs => ?_ }
  rcases Option.or_eq_some_iff.1 hs with hs | ⟨-, hs⟩
  · obtain ⟨z, hz, rfl⟩ := Option.map_eq_some_iff.1 hs
    exact (hc.zones z (List.mem_reverse.1 (List.mem_of_find?_eq_some hz))).name
  · exact hi.zone s hs

end FirewallConfig.PanOs
