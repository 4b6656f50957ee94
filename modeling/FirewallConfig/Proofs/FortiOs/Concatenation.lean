import FirewallConfig.Proofs.FortiOs.Rules
import FirewallConfig.Proofs.Text.Lines

/-!
# Proofs/FortiOs/Concatenation — a configuration that is read in two parts

A text that leaves no section open may be followed by another one: its sections come first, and then
those of the other (`readForest_append_of_closed`).  What is read of the sections follows them, list
by list (`Follows`); only the hostname does not, of which the last `system global` decides, also
where it gives none (`read_append`).
-/

namespace FirewallConfig.FortiOs

/-! ## The sections of two texts -/

namespace Reading

/-- The same reading, with sections that are complete in front. -/
def behind (forest : List (Section String)) (r : Reading) : Reading :=
  { r with forest := forest ++ r.forest }

variable (forest : List (Section String))

theorem apply_behind (r : Reading) (d : Directive) :
    (r.behind forest).apply d = (r.apply d).behind forest := by
  obtain ⟨stack, complete⟩ := r
  cases d with
  | config path => rfl
  | edit name => cases stack <;> rfl
  | set s => cases stack <;> rfl
  | next => cases stack <;> rfl
  | finish =>
    match stack with
    | [] => rfl
    | [top] => exact congrArg (Reading.mk []) (List.append_assoc _ _ _)
    | _ :: _ :: _ => rfl
  | other => rfl

theorem run_behind (r : Reading) (lines : List String) :
    (r.behind forest).run lines = (r.run lines).behind forest := by
  induction lines generalizing r with
  | nil => rfl
  | cons l lines ih =>
    have hstep : (r.behind forest).step l = (r.step l).behind forest := apply_behind forest r _
    rw [run, List.foldl_cons, hstep]
    exact ih (r.step l)

theorem closeAll_append (complete : List (Section String)) (top : Section String)
    (fs : List Frame) :
    closeAll (forest ++ complete) top fs = forest ++ closeAll complete top fs := by
  induction fs generalizing top with
  | nil => exact List.append_assoc _ _ _
  | cons f fs ih => exact ih (f.attach top).close

theorem finish_behind (r : Reading) : (r.behind forest).finish = forest ++ r.finish := by
  obtain ⟨stack, complete⟩ := r
  cases stack with
  | nil => rfl
  | cons top below => exact closeAll_append forest complete top.close below

end Reading

/-- The text leaves no section open. -/
def IsClosed (text : String) : Prop := (Reading.run {} (Text.lines text)).stack = []

/-- **The sections of a closed text come first**, and then those of the text behind it. -/
theorem readForest_append_of_closed {a : String} (hline : Text.EndsLine a) (hclosed : IsClosed a)
    (b : String) : readForest (a ++ b) = readForest a ++ readForest b := by
  have hread : Reading.run {} (Text.lines a) = Reading.behind (readForest a) {} := by
    rw [IsClosed] at hclosed
    rw [readForest]
    generalize Reading.run {} (Text.lines a) = r at hclosed
    obtain ⟨stack, complete⟩ := r
    cases hclosed
    exact congrArg (Reading.mk []) (List.append_nil complete).symm
  have hrun : Reading.run {} (Text.lines a ++ Text.lines b)
      = (Reading.run {} (Text.lines a)).run (Text.lines b) := List.foldl_append
  rw [readForest, Text.lines_append hline, hrun, hread, Reading.run_behind, Reading.finish_behind]
  rfl

/-- Two closed sections, one behind the other. -/
example : (readForest ("config a\nend\n" ++ "config b\nend\n")).map Section.path = ["a", "b"] := by
  decide +kernel

/-! ## What is read of them -/

theorem sectionsAt_append (path : String) (ss ts : List (Section String)) :
    sectionsAt path (ss ++ ts) = sectionsAt path ss ++ sectionsAt path ts := by
  rw [sectionsAt, allSections_append, List.filter_append]
  rfl

/-- The configuration `e` is `c` with `d` behind it: lists follow one another, what has a name takes
the place of what had it, and a time zone counts if there is one. -/
structure Follows (c d e : Config) : Prop where
  addressGroups : e.addressGroups = c.addressGroups ++ d.addressGroups
  services : e.services = c.services ++ d.services
  policies : e.policies = c.policies ++ d.policies
  routes : e.routes = c.routes ++ d.routes
  tunnels : e.vpn.tunnels = c.vpn.tunnels ++ d.vpn.tunnels
  selectors : e.vpn.selectors = c.vpn.selectors ++ d.vpn.selectors
  aaaServers : e.aaaServers = c.aaaServers ++ d.aaaServers
  logging : e.management.logging = c.management.logging ++ d.management.logging
  snmp : e.management.snmp = c.management.snmp ++ d.management.snmp
  interfaces : e.interfaces = d.interfaces.foldl (fun is i => putBy (·.name) i is) c.interfaces
  addressObjects : e.addressObjects
    = d.addressObjects.foldl (fun os o => putBy (·.name) o os) c.addressObjects
  timezone : e.device.timezone = d.device.timezone.or c.device.timezone

section Forests

variable (f g : List (Section String))

/-- Interfaces and address objects are put in one after the other. -/
theorem ofForest_eq : ofForest f =
    { hostname := readHostname f
      device := { timezone := readTimezone f }
      interfaces := ((entriesAt "system interface" f).filterMap readInterface).foldl
        (fun is i => putBy (·.name) i is) []
      addressObjects := ((entriesAt "firewall address" f).filterMap readAddress).foldl
        (fun os o => putBy (·.name) o os) []
      addressGroups := (entriesAt "firewall addrgrp" f).filterMap readGroup
      services := (entriesAt "firewall service custom" f).map readService
      policies := (entriesAt "firewall policy" f).map readPolicy
      nat :=
        (entriesAt "firewall vip" f).filterMap readVip
          ++ (entriesAt "firewall ippool" f).filterMap readPool
      routes := (entriesAt "router static" f).filterMap readRoute
      vpn :=
        { tunnels := (entriesAt "vpn ipsec phase1-interface" f).filterMap readTunnel
          selectors := (entriesAt "vpn ipsec phase2-interface" f).filterMap readSelector }
      users :=
        (entriesAt "system admin" f).map readAdmin ++ (entriesAt "user local" f).map readLocalUser
      aaaServers := (entriesAt "user ldap" f).map readLdapServer
      management :=
        { logging := (sectionsAt "log syslogd setting" f).filterMap readSyslog
          snmp := (entriesAt "system snmp community" f).flatMap readCommunity } } := by
  rw [ofForest, foldl_putAddressObject_eq, foldl_putInterface_eq]

theorem hostname_read (text : String) : (read text).hostname = readHostname (readForest text) := by
  rw [read, ofForest_eq]

/-- The last time zone counts. -/
theorem readTimezone_append : readTimezone (f ++ g) = (readTimezone g).or (readTimezone f) := by
  rw [readTimezone, sectionsAt_append, List.filterMap_append, List.getLast?_append]
  rfl

/-- **The last `system global` decides on the hostname.** -/
theorem readHostname_append : readHostname (f ++ g)
    = if (sectionsAt "system global" g).isEmpty then readHostname f else readHostname g := by
  rw [readHostname, sectionsAt_append, List.getLast?_append, readHostname, readHostname]
  cases hlast : (sectionsAt "system global" g).getLast? with
  | none => rw [List.getLast?_eq_none_iff.1 hlast]; rfl
  | some s =>
    have hne : (sectionsAt "system global" g).isEmpty = false := by
      rw [List.isEmpty_eq_false_iff]
      rintro hnil
      rw [hnil] at hlast
      cases hlast
    rw [hne]
    rfl

/-- **What is read of the sections of two texts follows them.** -/
theorem follows_ofForest_append : Follows (ofForest f) (ofForest g) (ofForest (f ++ g)) where
  addressGroups := by
    simp only [ofForest_eq, entriesAt_append, List.filterMap_append]
  services := by
    simp only [ofForest_eq, entriesAt_append, List.map_append]
  policies := by
    simp only [ofForest_eq, entriesAt_append, List.map_append]
  routes := by
    simp only [ofForest_eq, entriesAt_append, List.filterMap_append]
  tunnels := by
    simp only [ofForest_eq, entriesAt_append, List.filterMap_append]
  selectors := by
    simp only [ofForest_eq, entriesAt_append, List.filterMap_append]
  aaaServers := by
    simp only [ofForest_eq, entriesAt_append, List.map_append]
  logging := by
    simp only [ofForest_eq, sectionsAt_append, List.filterMap_append]
  snmp := by
    simp only [ofForest_eq, entriesAt_append, List.flatMap_append]
  interfaces := by
    simp only [ofForest_eq, entriesAt_append, List.filterMap_append, List.foldl_append]
    rw [foldl_putBy_foldl_putBy]
  addressObjects := by
    simp only [ofForest_eq, entriesAt_append, List.filterMap_append, List.foldl_append]
    rw [foldl_putBy_foldl_putBy]
  timezone := by
    simp only [ofForest_eq, readTimezone_append]

end Forests

/-- **A configuration that is read in two parts** follows its parts, if the first one leaves no
section open; its hostname is that of the second part where this has a `system global` at all, also
one without a hostname, and so one that the first part gives may be lost. -/
theorem read_append {a b : String} (hline : Text.EndsLine a) (hclosed : IsClosed a) :
    Follows (read a) (read b) (read (a ++ b))
      ∧ (read (a ++ b)).hostname
        = (if (sectionsAt "system global" (readForest b)).isEmpty then (read a).hostname
          else (read b).hostname)
      ∧ ((read (a ++ b)).hostname = (read b).hostname.or (read a).hostname
        ↔ sectionsAt "system global" (readForest b) = [] ∨ (read b).hostname.isSome = true
          ∨ (read a).hostname = none) := by
  have hforest := readForest_append_of_closed hline hclosed b
  have hhostname : (read (a ++ b)).hostname
      = if (sectionsAt "system global" (readForest b)).isEmpty then (read a).hostname
        else (read b).hostname := by
    simp only [hostname_read, hforest, readHostname_append]
  refine ⟨?_, hhostname, ?_⟩
  · rw [read, read, read, hforest]
    exact follows_ofForest_append (readForest a) (readForest b)
  · have hnone (h : sectionsAt "system global" (readForest b) = []) :
        (read b).hostname = none := by
      rw [hostname_read, readHostname, h]
      rfl
    rw [hhostname]
    split
    · next hempty =>
      have hempty := List.isEmpty_iff.1 hempty
      rw [hnone hempty]
      exact iff_of_true rfl (.inl hempty)
    · next hne =>
      rw [List.isEmpty_iff] at hne
      cases (read b).hostname with
      | none => simp [hne, eq_comm]
      | some h => simp

/-- A configuration that is complete. -/
def firstText : String :=
  "config system global\nset hostname fw1\nend\nconfig firewall policy\nedit 1\nset name a\nend\n"

/-- More rules. -/
def secondText : String := "config firewall policy\nedit 1\nset name b\n"

theorem firstText_eq : firstText = Text.unlines ["config system global", "set hostname fw1", "end",
    "config firewall policy", "edit 1", "set name a", "end"] := by
  decide +kernel

theorem endsLine_firstText : Text.EndsLine firstText := by
  rw [firstText_eq]
  exact Text.endsLine_unlines _

theorem isClosed_firstText : IsClosed firstText := by
  rw [IsClosed, firstText_eq, Reading.run_lines_unlines _ (by decide +kernel)]
  decide +kernel

/-- What is read of the first text. -/
theorem read_firstText : (read firstText).hostname = some "fw1"
    ∧ (read firstText).policies.map (·.name) = [some "a"] := by
  rw [read, firstText_eq, readForest_unlines_eq (by decide +kernel)]
  decide +kernel

/-- Rules follow one another, also under one number. -/
theorem read_append_secondText : Text.EndsLine firstText ∧ IsClosed firstText
    ∧ (read (firstText ++ secondText)).policies.map (·.name) = [some "a", some "b"]
    ∧ (read (firstText ++ secondText)).hostname = some "fw1" := by
  obtain ⟨hfollows, hhostname, -⟩ :=
    read_append endsLine_firstText isClosed_firstText (b := secondText)
  have htext : secondText
      = Text.unlines ["config firewall policy", "edit 1", "set name b"] := by
    decide +kernel
  have hsecond : (ofForest (readForest secondText)).policies.map (·.name) = [some "b"]
      ∧ (sectionsAt "system global" (readForest secondText)).isEmpty = true := by
    rw [htext, readForest_unlines_eq (by decide +kernel)]
    decide +kernel
  refine ⟨endsLine_firstText, isClosed_firstText, ?_, ?_⟩
  · rw [hfollows.policies, List.map_append, read_firstText.2]
    exact congrArg ([some "a"] ++ ·) hsecond.1
  · rw [hhostname, if_pos hsecond.2]
    exact read_firstText.1

/-- A configuration that gives a time zone only. -/
def zoneText : String := "config system global\nset timezone 04\nend\n"

/-- **A hostname may be lost**: the second part gives none, and none is left. -/
theorem hostname_lost_zoneText : Text.EndsLine firstText ∧ IsClosed firstText
    ∧ (read firstText).hostname = some "fw1" ∧ (read zoneText).hostname = none
    ∧ (read (firstText ++ zoneText)).hostname = none := by
  have htext : zoneText = Text.unlines ["config system global", "set timezone 04", "end"] := by
    decide +kernel
  have hzone : readHostname (readForest zoneText) = none
      ∧ (sectionsAt "system global" (readForest zoneText)).isEmpty = false := by
    rw [htext, readForest_unlines_eq (by decide +kernel)]
    decide +kernel
  refine ⟨endsLine_firstText, isClosed_firstText, read_firstText.1, ?_, ?_⟩
  · rw [hostname_read]
    exact hzone.1
  · rw [hostname_read, readForest_append_of_closed endsLine_firstText isClosed_firstText,
      readHostname_append, hzone.2, if_neg Bool.false_ne_true]
    exact hzone.1

end FirewallConfig.FortiOs
