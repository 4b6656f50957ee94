import FirewallConfig.Proofs.Address.Endpoint
import FirewallConfig.Proofs.FortiOs.Concatenation
import FirewallConfig.Proofs.FortiOs.OneLine
import FirewallConfig.Proofs.PanOs.Sections
import Mathlib.Data.List.TakeDrop

/-!
# Proofs/PanOs/Selectors — the selectors of a tunnel, written and read back

All selectors of a tunnel are written into its entry, and each is a child of the block that the
entry is collected in (`children_tunnelEntry`).  The reader takes the first child only: a tunnel is
read back with the networks of its first selector and no others (`networksOf_read_write`).
-/

namespace FirewallConfig

/-- The networks at both ends of a selector. -/
def Selector.networks? (s : Selector) : Option (Network × Network) :=
  (s.source.bind Network.read?).bind fun source =>
    (s.destination.bind Network.read?).map fun destination => (source, destination)

/-- The selectors that name a tunnel. -/
def Vpn.selectorsOf (v : Vpn) (tunnel : String) : List Selector :=
  v.selectors.filter (·.tunnel == tunnel)

/-- The networks that the selectors of a tunnel join. -/
def Vpn.networksOf (v : Vpn) (tunnel : String) : List (Network × Network) :=
  (v.selectorsOf tunnel).filterMap Selector.networks?

/-- A network of IPv4 whose mask is in the table. -/
def Network.IsTabled (n : Network) : Prop := isIPv4 n.address = true ∧ n.mask ∈ Netmask.table

/-- Both ends of a selector are networks of IPv4 with masks of the table. -/
def Selector.JoinsNetworks (s : Selector) : Prop :=
  ∃ source destination, s.networks? = some (source, destination)
    ∧ source.IsTabled ∧ destination.IsTabled

namespace PanOs

open Xml (Node IsName linesOfAll)

/-! ## The children of a block -/

section ChildLines

variable (depth : Nat) (rest : List String)

theorem childLines_append_of_isLevel {ls : List String} (h : ∀ l ∈ ls, IsLevel l) :
    Block.childLines none (deepLines depth (ls ++ rest))
      = Block.childLines none (deepLines depth rest) := by
  induction ls with
  | nil => rfl
  | cons l ls ih =>
    obtain ⟨hl, hls⟩ := List.forall_mem_cons.1 h
    rw [List.cons_append, deepLines, childLines_none_cons_of_neg, hl.depthAfter_eq, ih hls]
    simp only [Bool.and_eq_true, Bool.not_eq_true', not_and, Bool.not_eq_false, and_imp]
    exact fun _ hname => hl.isSelfClosed hname

/-- An entry that is open takes in every line that closes none. -/
theorem childLines_some_append_of_isLevel {ls : List String} (h : ∀ l ∈ ls, IsLevel l)
    (lines : List String) {inner : Nat} (hinner : inner ≠ 0) :
    Block.childLines (some (lines, inner)) (deepLines depth (ls ++ rest))
      = Block.childLines (some (ls.reverse ++ lines, inner)) (deepLines depth rest) := by
  induction ls generalizing lines with
  | nil => rfl
  | cons l ls ih =>
    obtain ⟨hl, hls⟩ := List.forall_mem_cons.1 h
    rw [List.cons_append, deepLines, childLines_some_cons, hl.depthAfter_eq, hl.depthAfter_eq,
      if_neg hinner, ih hls, List.reverse_cons, List.append_assoc]
    rfl

/-- **An entry with something flat in it is one child**, at whatever depth it stands. -/
theorem childLines_entry (name : String) {children : List Node} (hne : children ≠ [])
    (h : ∀ n ∈ children, Flat n) :
    Block.childLines none (deepLines depth ((entry name children).lines ++ rest))
      = (entry name children).lines :: Block.childLines none (deepLines depth rest) := by
  have hlevel : ∀ l ∈ linesOfAll children, IsLevel l := by
    intro l hl
    obtain ⟨n, hn, hl⟩ := mem_linesOfAll hl
    exact (h n hn).isLevel l hl
  have hopening (d : Nat) : depthAfter d (Mark.entry name).line = d + 1 :=
    Mark.depthAfter_line (m := .entry name) trivial d
  have hclosing (d : Nat) : depthAfter (d + 1) (Mark.closing "entry").line = d :=
    Mark.depthAfter_line (m := .closing "entry") isName_entry (d + 1)
  have hname : (entryName (Mark.entry name).line).isSome = true := by
    rw [Mark.entryName_line (m := .entry name) trivial]
    rfl
  have hlines : (entry name children).lines
      = (Mark.entry name).line :: (linesOfAll children ++ [(Mark.closing "entry").line]) := by
    rw [lines_entry, if_neg (by simpa using hne)]
    rfl
  rw [hlines, List.cons_append, List.append_assoc, deepLines, hopening, childLines_none_cons_of_pos,
    hopening, childLines_some_append_of_isLevel _ _ hlevel _ (by decide), List.singleton_append,
    deepLines, hclosing, childLines_some_cons, hclosing, if_pos rfl]
  · simp
  · simp [hname, Mark.isSelfClosed_entry]
  · rw [hopening]
    decide

/-- Entries that follow one another are one child each. -/
theorem childLines_linesOfAll {α : Type} (as : List α) (name : α → String)
    (content : α → List Node) (hne : ∀ a, content a ≠ []) (h : ∀ a, ∀ n ∈ content a, Flat n) :
    Block.childLines none
        (deepLines depth (linesOfAll (as.map fun a => entry (name a) (content a)) ++ rest))
      = (as.map fun a => (entry (name a) (content a)).lines)
        ++ Block.childLines none (deepLines depth rest) := by
  induction as with
  | nil => rfl
  | cons a as ih =>
    rw [List.map_cons, Xml.linesOfAll_cons, List.append_assoc,
      childLines_entry _ _ _ (hne a) (h a), ih]
    rfl

end ChildLines

/-! ## The entry of a tunnel -/

variable (c : Config) (t : Tunnel) (position : Nat)

/-- Around the selectors of a tunnel, no line opens or closes an entry. -/
theorem exists_lines_tunnelEntry : ∃ before after : List String,
    (∀ l ∈ before, IsLevel l) ∧ (∀ l ∈ after, IsLevel l)
      ∧ (tunnelEntry c t position).lines
        = (Mark.entry s!"{t.label}-tunnel").line
          :: (before ++ linesOfAll ((c.vpn.selectorsOf t.name).map selectorEntry)
            ++ (after ++ [(Mark.closing "entry").line])) := by
  let key : List String := [(Mark.opening "auto-key").line, (Mark.opening "ike-gateway").line,
    (Mark.emptyEntry t.label).line, (Mark.closing "ike-gateway").line,
    (Mark.leaf "ipsec-crypto-profile" defaultProfile).line]
  let interface : List String := [(Mark.closing "auto-key").line,
    (Mark.leaf "tunnel-interface" s!"tunnel.{position + 1}").line]
  have hlines : (tunnelEntry c t position).lines
      = (Mark.entry s!"{t.label}-tunnel").line
        :: (key
          ++ linesOfAll (branch? "proxy-id" ((c.vpn.selectorsOf t.name).map selectorEntry))
          ++ (interface ++ [(Mark.closing "entry").line])) := by
    have hgateway : (Node.branch "ike-gateway" [entry t.label []]).lines
        = [(Mark.opening "ike-gateway").line, (Mark.emptyEntry t.label).line,
          (Mark.closing "ike-gateway").line] := by
      rw [lines_branch, if_neg (by simp), Xml.linesOfAll_singleton, lines_entry, if_pos (by rfl)]
      rfl
    rw [tunnelEntry, lines_entry, if_neg (by simp), Xml.linesOfAll_cons, lines_branch,
      if_neg (by simp), Xml.linesOfAll_singleton, lines_leaf]
    simp only [List.cons_append, List.nil_append, Xml.linesOfAll_cons, hgateway, lines_leaf, key,
      interface, List.append_assoc, Vpn.selectorsOf]
  have hnames : ∀ tag ∈ ["auto-key", "ike-gateway", "ipsec-crypto-profile", "tunnel-interface",
      "proxy-id"], IsName tag ∧ tag ≠ "entry" := by decide
  have hopening {tag : String} (htag : IsName tag ∧ tag ≠ "entry") :
      IsLevel (Mark.opening tag).line := isLevel_line htag rfl rfl
  have hclosing {tag : String} (htag : IsName tag ∧ tag ≠ "entry") :
      IsLevel (Mark.closing tag).line := isLevel_line htag.1 rfl (if_neg htag.2)
  have hleaf {tag : String} (text : String) (htag : IsName tag ∧ tag ≠ "entry") :
      IsLevel (Mark.leaf tag text).line := isLevel_line htag rfl rfl
  have hempty : IsLevel (Mark.emptyEntry t.label).line := isLevel_line trivial rfl rfl
  simp only [List.forall_mem_cons] at hnames
  obtain ⟨hauto, hgateway, hprofile, hinterface, hproxy, -⟩ := hnames
  have hkey : ∀ l ∈ key, IsLevel l := by
    simp only [key, List.forall_mem_cons]
    exact ⟨hopening hauto, hopening hgateway, hempty, hclosing hgateway, hleaf _ hprofile,
      List.forall_mem_nil _⟩
  have hinterface : ∀ l ∈ interface, IsLevel l := by
    simp only [interface, List.forall_mem_cons]
    exact ⟨hclosing hauto, hleaf _ hinterface, List.forall_mem_nil _⟩
  rw [hlines]
  cases (c.vpn.selectorsOf t.name).map selectorEntry with
  | nil => exact ⟨key, interface, hkey, hinterface, rfl⟩
  | cons n ns =>
    refine ⟨key ++ [(Mark.opening "proxy-id").line], (Mark.closing "proxy-id").line :: interface,
      List.forall_mem_append.2 ⟨hkey, List.forall_mem_singleton.2 (hopening hproxy)⟩,
      List.forall_mem_cons.2 ⟨hclosing hproxy, hinterface⟩, ?_⟩
    rw [branch?, if_neg (by simp), Xml.linesOfAll_singleton, lines_branch, if_neg (by simp)]
    simp

/-- **Every selector of a tunnel is a child of its entry**, in order. -/
theorem children_tunnelEntry : (Block.ofLines (tunnelEntry c t position).lines).children
    = (c.vpn.selectorsOf t.name).map fun s => Block.ofLines (selectorEntry s).lines := by
  obtain ⟨before, after, hbefore, hafter, hlines⟩ := exists_lines_tunnelEntry c t position
  have hentries := childLines_linesOfAll 1 (after ++ [(Mark.closing "entry").line])
    (c.vpn.selectorsOf t.name) (·.name)
    (fun s => [.leaf "local" (selectorNetwork s.source),
      .leaf "remote" (selectorNetwork s.destination)])
    (fun _ => List.cons_ne_nil _ _) fun s => List.forall_mem_cons.2
      ⟨.leaf _ (by decide) (by decide),
        List.forall_mem_singleton.2 (.leaf _ (by decide) (by decide))⟩
  have hopening : depthAfter 0 (Mark.entry s!"{t.label}-tunnel").line = 1 :=
    Mark.depthAfter_line (m := .entry _) trivial 0
  have hclosing : Block.childLines none (deepLines 1 [(Mark.closing "entry").line]) = [] := by
    refine childLines_eq_nil (List.forall_mem_singleton.2 fun hname => ?_)
    rw [Mark.entryName_line (m := .closing "entry") isName_entry] at hname
    cases hname
  have hchildren : Block.childLines none (deepLines 0 (tunnelEntry c t position).lines).tail
      = (c.vpn.selectorsOf t.name).map fun s => (selectorEntry s).lines := by
    rw [hlines, deepLines, hopening, List.tail_cons, List.append_assoc,
      childLines_append_of_isLevel 1 _ hbefore]
    refine hentries.trans ?_
    rw [childLines_append_of_isLevel 1 _ hafter, hclosing, List.append_nil]
    rfl
  rw [Block.children]
  exact (congrArg (List.map Block.ofLines) hchildren).trans List.map_map

/-- The two ends of a selector are read from its child. -/
theorem leaf_selectorEntry (s : Selector) :
    (Block.ofLines (selectorEntry s).lines).leaf "local" = some (selectorNetwork s.source)
      ∧ (Block.ofLines (selectorEntry s).lines).leaf "remote"
        = some (selectorNetwork s.destination) := by
  have hflat : ∀ n ∈ [Node.leaf "local" (selectorNetwork s.source),
      .leaf "remote" (selectorNetwork s.destination)], Flat n :=
    List.forall_mem_cons.2 ⟨.leaf _ (by decide) (by decide),
      List.forall_mem_singleton.2 (.leaf _ (by decide) (by decide))⟩
  constructor
  · rw [selectorEntry, leaf_ofLines (by decide) hflat, leafIn_cons,
      leafIn_leaf _ (by decide) (by decide) (by decide), if_pos rfl, Option.some_or]
  · rw [selectorEntry, leaf_ofLines (by decide) hflat, leafIn_cons,
      leafIn_leaf _ (by decide) (by decide) (by decide), if_neg (by decide), Option.none_or,
      leafIn_leaf _ (by decide) (by decide) (by decide), if_pos rfl]

/-- **A tunnel is read back with the ends of its first selector.** -/
theorem exists_readSelector_tunnelEntry_head : ∃ read,
    readSelector (Block.ofLines (tunnelEntry c t position).lines) s!"{t.label}-tunnel" = some read
      ∧ read.tunnel = t.label
      ∧ read.source = (c.vpn.selectorsOf t.name).head?.map (selectorNetwork ·.source)
      ∧ read.destination = (c.vpn.selectorsOf t.name).head?.map (selectorNetwork ·.destination) := by
  obtain ⟨read, hread, -, htunnel⟩ := exists_readSelector_tunnelEntry c t position
  refine ⟨read, hread, htunnel, ?_⟩
  obtain ⟨gateway, -, rfl⟩ := Option.map_eq_some_iff.1 hread
  dsimp only
  rw [children_tunnelEntry, List.head?_map]
  cases (c.vpn.selectorsOf t.name).head? with
  | none => exact ⟨rfl, rfl⟩
  | some s =>
    simp only [Option.map_some, Option.bind_some]
    exact leaf_selectorEntry s

/-- A written end of a selector is read as the network it was written of. -/
theorem read?_selectorNetwork {text : Option String} {n : Network}
    (hread : text.bind Network.read? = some n) (hn : n.IsTabled) :
    Network.read? (selectorNetwork text) = some n := by
  rw [selectorNetwork, hread]
  exact Network.read?_cidr hn.1 hn.2

/-- The networks of a selector survive being written and read. -/
theorem networks?_of_selectorNetwork {s read : Selector} (hs : s.JoinsNetworks)
    (hsource : read.source = some (selectorNetwork s.source))
    (hdestination : read.destination = some (selectorNetwork s.destination)) :
    read.networks? = s.networks? := by
  obtain ⟨source, destination, hnetworks, hsourceTabled, hdestinationTabled⟩ := hs
  obtain ⟨n, hn, h⟩ := Option.bind_eq_some_iff.1 hnetworks
  obtain ⟨m, hm, h⟩ := Option.map_eq_some_iff.1 h
  obtain ⟨rfl, rfl⟩ := Prod.mk.inj h
  rw [hnetworks, Selector.networks?, hsource, hdestination, Option.bind_some, Option.bind_some,
    read?_selectorNetwork hn hsourceTabled, read?_selectorNetwork hm hdestinationTabled]
  rfl

section Document

variable {c} {t} {peer : String} (hc : c.OneLine)
  (hlabels : (c.vpn.peeredTunnels.map fun (t, _) => t.label).Nodup)
  (ht : (t, peer) ∈ c.vpn.peeredTunnels)
include hc hlabels ht

/-- **One selector of a written tunnel is read**, with the ends of the first one. -/
theorem exists_selectorsOf_read_write {origin : Dialect} {r : Config}
    (hr : r = PanOs.read (write origin c)) : ∃ read : Selector,
    r.vpn.selectorsOf t.label = [read]
      ∧ read.source = (c.vpn.selectorsOf t.name).head?.map (selectorNetwork ·.source)
      ∧ read.destination = (c.vpn.selectorsOf t.name).head?.map (selectorNetwork ·.destination) := by
  choose record hrecord htunnel hends using exists_readSelector_tunnelEntry_head c
  have hread : r.vpn.selectors
      = c.vpn.peeredTunnels.zipIdx.map fun p => record p.1.1 p.2 :=
    selectorsPart.get_read_write_eq_map hc hr c.vpn.peeredTunnels.zipIdx
      (fun p => tunnelEntry c p.1.1 p.2) (fun p => record p.1.1 p.2) rfl rfl (fun _ _ => rfl)
      fun p _ s => (selectorsPart.take_entry s _ _).trans
        (congrArg (s ++ ·.toList) (hrecord p.1.1 p.2))
  obtain ⟨position, hget⟩ := List.getElem?_of_mem ht
  have hposition : ((t, peer), position) ∈ c.vpn.peeredTunnels.zipIdx :=
    List.mem_zipIdx_iff_getElem?.2 hget
  have hlabel : Selector.tunnel ∘ (fun p : (Tunnel × String) × Nat => record p.1.1 p.2)
      = (fun p : Tunnel × String => p.1.label) ∘ Prod.fst :=
    funext fun p => htunnel p.1.1 p.2
  have hnames : (r.vpn.selectors.map Selector.tunnel).Nodup := by
    rwa [hread, List.map_map, hlabel, ← List.map_map, List.zipIdx_map_fst]
  have hmem : record t position ∈ r.vpn.selectors := by
    rw [hread]
    exact List.mem_map.2 ⟨_, hposition, rfl⟩
  have halone := filter_eq_singleton_of_nodup Selector.tunnel hnames hmem
  rw [htunnel] at halone
  exact ⟨record t position, halone, hends t position⟩

/-- The networks that a written tunnel is read with are those of its first selector. -/
theorem networksOf_read_write_eq_take (origin : Dialect)
    (hselectors : ∀ s ∈ c.vpn.selectorsOf t.name, s.JoinsNetworks) :
    (PanOs.read (write origin c)).vpn.networksOf t.label
      = (c.vpn.networksOf t.name).take 1 := by
  obtain ⟨read, halone, hsource, hdestination⟩ :=
    exists_selectorsOf_read_write (r := PanOs.read (write origin c)) hc hlabels ht rfl
  rw [Vpn.networksOf, Vpn.networksOf, halone]
  cases hwritten : c.vpn.selectorsOf t.name with
  | nil =>
    rw [hwritten] at hsource
    have hnone : read.networks? = none := by rw [Selector.networks?, hsource]; rfl
    rw [List.filterMap_cons_none hnone]
    rfl
  | cons s ss =>
    rw [hwritten] at hsource hdestination hselectors
    have hs := hselectors s List.mem_cons_self
    have hnetworks := networks?_of_selectorNetwork hs hsource hdestination
    obtain ⟨n, m, hnm, -⟩ := hs
    rw [hnm] at hnetworks
    rw [List.filterMap_cons_some hnetworks, List.filterMap_cons_some hnm]
    rfl

end Document

end PanOs

namespace FortiOs

/-- Every tunnel that is read has a peer, and no sequence number. -/
theorem peer_of_mem_tunnels_read {text : String} {t : Tunnel}
    (ht : t ∈ (read text).vpn.tunnels) : t.peer.isSome = true ∧ t.sequence = none := by
  rw [read, ofForest_eq] at ht
  obtain ⟨e, -, he⟩ := List.mem_filterMap.1 ht
  obtain ⟨peer, -, rfl⟩ := Option.map_eq_some_iff.1 he
  exact ⟨rfl, rfl⟩

/-- All tunnels that are read are peered, and their labels are their names. -/
theorem labels_peeredTunnels_read (text : String) :
    ((read text).vpn.peeredTunnels.map fun (t, _) => t.label)
      = (read text).vpn.tunnels.map (·.name) := by
  have htunnels (ts : List Tunnel) (h : ∀ t ∈ ts, t.peer.isSome = true ∧ t.sequence = none) :
      ((ts.filterMap fun t => t.peer.map fun peer => (t, peer)).map fun (t, _) => t.label)
        = ts.map (·.name) := by
    induction ts with
    | nil => rfl
    | cons t ts ih =>
      obtain ⟨⟨hpeer, hsequence⟩, hts⟩ := List.forall_mem_cons.1 h
      obtain ⟨peer, hpeer⟩ := Option.isSome_iff_exists.1 hpeer
      have hlabel : t.label = t.name := by rw [Tunnel.label, hsequence]
      rw [List.filterMap_cons, hpeer, List.map_cons, ← ih hts, ← hlabel]
      rfl
  exact htunnels _ fun t ht => peer_of_mem_tunnels_read ht

end FortiOs

namespace PanOs

/-- **A tunnel with several selectors is read back with the first of them alone**: its networks are
those of the first selector, so they are the written ones just if there is at most one. -/
theorem networksOf_read_write (text : String)
    (hnames : ((FortiOs.read text).vpn.tunnels.map (·.name)).Nodup) {t : Tunnel}
    (ht : t ∈ (FortiOs.read text).vpn.tunnels)
    (hselectors : ∀ s ∈ (FortiOs.read text).vpn.selectorsOf t.name, s.JoinsNetworks) :
    (read (write .fortiGate (FortiOs.read text))).vpn.networksOf t.name
        = ((FortiOs.read text).vpn.networksOf t.name).take 1
      ∧ ((read (write .fortiGate (FortiOs.read text))).vpn.networksOf t.name
          = (FortiOs.read text).vpn.networksOf t.name
        ↔ ((FortiOs.read text).vpn.selectorsOf t.name).length ≤ 1) := by
  have hlabel : t.label = t.name := by
    rw [Tunnel.label, (FortiOs.peer_of_mem_tunnels_read ht).2]
  obtain ⟨peer, hpeer⟩ := Option.isSome_iff_exists.1 (FortiOs.peer_of_mem_tunnels_read ht).1
  have hpeered : (t, peer) ∈ (FortiOs.read text).vpn.peeredTunnels :=
    List.mem_filterMap.2 ⟨t, ht, by rw [hpeer]; rfl⟩
  have htake := networksOf_read_write_eq_take (FortiOs.oneLine_read text)
    ((FortiOs.labels_peeredTunnels_read text).symm ▸ hnames) hpeered .fortiGate hselectors
  -- every selector of the tunnel joins networks, so there are as many of these
  have hlength : ((FortiOs.read text).vpn.networksOf t.name).length
      = ((FortiOs.read text).vpn.selectorsOf t.name).length := by
    rw [Vpn.networksOf, List.length_filterMap_eq_countP, List.countP_eq_length]
    intro s hs
    obtain ⟨source, destination, hnetworks, -⟩ := hselectors s hs
    rw [hnetworks]
    rfl
  rw [hlabel] at htake
  rw [htake, ← hlength, List.take_eq_self_iff]
  exact ⟨rfl, Iff.rfl⟩

/-- Two tunnels, one with two selectors and one with a single selector. -/
def selectorsLines : List String :=
  ["config vpn ipsec phase1-interface",
   "edit branch", "set remote-gw 192.0.2.1", "next",
   "edit office", "set remote-gw 192.0.2.2", "end",
   "config vpn ipsec phase2-interface",
   "edit a", "set phase1name branch", "set src-subnet 10.1.0.0 255.255.0.0",
   "set dst-subnet 10.9.0.0 255.255.0.0", "next",
   "edit b", "set phase1name branch", "set src-subnet 10.2.0.0 255.255.255.0",
   "set dst-subnet 10.9.0.0 255.255.0.0", "next",
   "edit c", "set phase1name office", "set src-subnet 10.3.0.0 255.255.0.0",
   "set dst-subnet 10.9.0.0 255.255.0.0", "end"]

/-- The text of these lines. -/
def selectorsText : String := Text.unlines selectorsLines

/-- The tunnels of the text and the networks that their selectors join. -/
theorem vpn_read_selectorsText : (FortiOs.read selectorsText).vpn
    = { tunnels :=
          [{ name := "branch", peer := some "192.0.2.1" },
           { name := "office", peer := some "192.0.2.2" }]
        selectors :=
          [{ name := "a", tunnel := "branch", source := some "10.1.0.0 255.255.0.0"
             destination := some "10.9.0.0 255.255.0.0" },
           { name := "b", tunnel := "branch", source := some "10.2.0.0 255.255.255.0"
             destination := some "10.9.0.0 255.255.0.0" },
           { name := "c", tunnel := "office", source := some "10.3.0.0 255.255.0.0"
             destination := some "10.9.0.0 255.255.0.0" }] } := by
  rw [FortiOs.read, selectorsText, FortiOs.readForest_unlines_eq (by decide +kernel)]
  decide +kernel

theorem joinsNetworks_selectorsText :
    ∀ s ∈ (FortiOs.read selectorsText).vpn.selectors, s.JoinsNetworks := by
  have hjoins {s : Selector} (n m : Network) (h : s.networks? = some (n, m))
      (htables : (isIPv4 n.address && isIPv4 m.address && Netmask.table.contains n.mask
        && Netmask.table.contains m.mask) = true) : s.JoinsNetworks := by
    simp only [Bool.and_eq_true, List.contains_iff_mem] at htables
    exact ⟨n, m, h, ⟨htables.1.1.1, htables.1.2⟩, htables.1.1.2, htables.2⟩
  rw [vpn_read_selectorsText]
  simp only [List.forall_mem_cons]
  exact ⟨hjoins ⟨"10.1.0.0", "255.255.0.0"⟩ ⟨"10.9.0.0", "255.255.0.0"⟩
      (by decide +kernel) (by decide +kernel),
    hjoins ⟨"10.2.0.0", "255.255.255.0"⟩ ⟨"10.9.0.0", "255.255.0.0"⟩
      (by decide +kernel) (by decide +kernel),
    hjoins ⟨"10.3.0.0", "255.255.0.0"⟩ ⟨"10.9.0.0", "255.255.0.0"⟩
      (by decide +kernel) (by decide +kernel), List.forall_mem_nil _⟩

/-- The single selector of a tunnel survives. -/
theorem networksOf_read_write_selectorsText :
    ((FortiOs.read selectorsText).vpn.tunnels.map (·.name)).Nodup
      ∧ (read (write .fortiGate (FortiOs.read selectorsText))).vpn.networksOf "office"
        = [(⟨"10.3.0.0", "255.255.0.0"⟩, ⟨"10.9.0.0", "255.255.0.0"⟩)] := by
  have hnames : ((FortiOs.read selectorsText).vpn.tunnels.map (·.name)).Nodup := by
    rw [vpn_read_selectorsText]
    decide
  have hoffice : { name := "office", peer := some "192.0.2.2" }
      ∈ (FortiOs.read selectorsText).vpn.tunnels := by
    rw [vpn_read_selectorsText]
    decide
  refine ⟨hnames, (networksOf_read_write selectorsText hnames hoffice fun s hs =>
    joinsNetworks_selectorsText s (List.mem_filter.1 hs).1).1.trans ?_⟩
  rw [vpn_read_selectorsText]
  decide +kernel

/-- **The second selector of a tunnel is lost.** -/
theorem not_kept_selectorsText :
    (read (write .fortiGate (FortiOs.read selectorsText))).vpn.networksOf "branch"
        = [(⟨"10.1.0.0", "255.255.0.0"⟩, ⟨"10.9.0.0", "255.255.0.0"⟩)]
      ∧ (FortiOs.read selectorsText).vpn.networksOf "branch"
        = [(⟨"10.1.0.0", "255.255.0.0"⟩, ⟨"10.9.0.0", "255.255.0.0"⟩),
          (⟨"10.2.0.0", "255.255.255.0"⟩, ⟨"10.9.0.0", "255.255.0.0"⟩)] := by
  have hlabels : ((FortiOs.read selectorsText).vpn.peeredTunnels.map fun (t, _) => t.label).Nodup := by
    rw [vpn_read_selectorsText]
    decide
  have hbranch : ({ name := "branch", peer := some "192.0.2.1" }, "192.0.2.1")
      ∈ (FortiOs.read selectorsText).vpn.peeredTunnels := by
    rw [vpn_read_selectorsText]
    decide
  have hwritten : (FortiOs.read selectorsText).vpn.networksOf "branch"
      = [(⟨"10.1.0.0", "255.255.0.0"⟩, ⟨"10.9.0.0", "255.255.0.0"⟩),
        (⟨"10.2.0.0", "255.255.255.0"⟩, ⟨"10.9.0.0", "255.255.0.0"⟩)] := by
    rw [vpn_read_selectorsText]
    decide +kernel
  refine ⟨(networksOf_read_write_eq_take (FortiOs.oneLine_read selectorsText) hlabels hbranch
    .fortiGate fun s hs => joinsNetworks_selectorsText s (List.mem_filter.1 hs).1).trans ?_, hwritten⟩
  exact congrArg (List.take 1) hwritten

end PanOs

end FirewallConfig
