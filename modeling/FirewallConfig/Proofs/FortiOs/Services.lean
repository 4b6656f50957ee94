import FirewallConfig.Proofs.FortiOs.Rules
import FirewallConfig.Proofs.Service.PortList

/-!
# Proofs/FortiOs/Services — the services of a written configuration are read back

The ports of a list are written one behind the other, as words of their own, and of the words of a
setting only the first counts.  So a service keeps its name, its protocol and its place, and of its
ports the first (`services_read_write`).
-/

namespace FirewallConfig.FortiOs

open Text

/-- What a service is read back as: of its ports, the first. -/
def serviceReadBack (s : ServiceObject) : ServiceObject := { s with port := s.port.map firstPorts }

/-- The services that are read are the entries of one path. -/
theorem services_read (text : String) : (read text).services
    = (entriesAt "firewall service custom" (readForest text)).map readService := by
  rw [read, ofForest]
  dsimp only
  rw [foldl_putAddressObject_eq, foldl_putInterface_eq]

theorem isBareWord_of_isPorts {ports : String} (h : IsPorts ports) : IsBareWord ports.toList :=
  isBareWord_of_isWord h.isWord (h.not_mem (by decide) (by decide))

/-- Words that are written as one value are read as words of their own. -/
theorem readBack_bareSetting_unwords (key : String) {ws : List String}
    (h : ∀ w ∈ ws, IsBareWord w.toList) : (bareSetting key [unwords ws]).readBack = ⟨key, ws⟩ := by
  have hvalues : readValues [.bare (unwords ws)] = readValues (ws.map .bare) := by
    have hspelling : (ws.map Value.bare).map Value.spelling = ws :=
      (List.map_map ..).trans (List.map_id ws)
    rw [readValues, readValues, hspelling, List.map_singleton, Value.spelling, unwords,
      String.intercalate_singleton]
  rw [bareSetting, Setting.readBack, List.map_singleton, hvalues]
  exact readBack_bareSetting_words key h

/-- The settings of a service with listed ports. -/
theorem settings_serviceEntry {s : ServiceObject} (hprotocol : s.protocol = "tcp" ∨ s.protocol = "udp")
    {ports : String} (hport : s.port = some ports) (hlist : ListsPorts ports) :
    (serviceEntry s).readBack.settings
      = [⟨s!"{s.protocol}-portrange", pieces ',' ports⟩]
        ++ s.description.toList.map fun d => ⟨"comment", [d]⟩ := by
  have hsettings : protocolSettings s
      = [bareSetting s!"{s.protocol}-portrange" [unwords (pieces ',' ports)]] := by
    have hportList : portList ports = unwords (pieces ',' ports) := by
      rw [portList, hlist.pieces_eq]
    rw [← hportList, protocolSettings, hport]
    rcases hprotocol with h | h <;> rw [h] <;> rfl
  rw [serviceEntry, Entry.readBack, List.map_append, hsettings, List.map_singleton,
    readBack_bareSetting_unwords _ fun w hw => isBareWord_of_isPorts (hlist w hw),
    map_readBack_quotedSetting?]

/-- **A service with listed ports is read back with the first of them.** -/
theorem readService_serviceEntry {s : ServiceObject} (hs : s.IsPlain) :
    readService (serviceEntry s).readBack = serviceReadBack s := by
  obtain ⟨ports, hport, hlist⟩ := hs.port
  have hsettings := settings_serviceEntry hs.protocol hport hlist
  have hother : s!"{s.protocol}-portrange" ≠ "comment" := by
    rcases hs.protocol with h | h <;> rw [h] <;> decide
  have hkeys : ((serviceEntry s).readBack.settings.map Setting.key).Nodup := by
    rw [hsettings]
    generalize s!"{s.protocol}-portrange" = key at hother
    cases s.description <;> simp [hother]
  have hrange {key : String} (hkey : s!"{s.protocol}-portrange" = key) :
      valueOf (serviceEntry s).readBack.settings key = some (firstPorts ports) := by
    rw [valueOf, ← head?_pieces, valuesOf_eq hkeys (s := ⟨key, pieces ',' ports⟩)
      (by rw [hsettings, hkey]; exact List.mem_cons_self)]
  have hcolon : destinationPorts (firstPorts ports) = firstPorts ports := by
    rw [destinationPorts, cut_eq_none (hlist.isPorts_firstPorts.not_mem (by decide) (by decide))]
    rfl
  have hports : readServicePorts (serviceEntry s).readBack.settings
      = (s.protocol, some (firstPorts ports)) := by
    rw [readServicePorts]
    rcases hs.protocol with htcp | hudp
    · rw [hrange (by rw [htcp]; rfl), htcp]
      exact congrArg (Prod.mk "tcp" ∘ some) hcolon
    · have hnone : valueOf (serviceEntry s).readBack.settings "tcp-portrange" = none := by
        rw [valueOf, hsettings, hudp, valuesOf_eq_nil (by cases s.description <;> simp)]
        rfl
      rw [hnone, hrange (by rw [hudp]; rfl), hudp]
      exact congrArg (Prod.mk "udp" ∘ some) hcolon
  have hdescription : valueOf (serviceEntry s).readBack.settings "comment" = s.description := by
    rw [hsettings]
    exact valueOf_append_toList (fun hmem => hother (List.mem_singleton.1 hmem).symm) s.description
  have hname : (serviceEntry s).readBack.name = s.name := rfl
  rw [readService, hports, hdescription, hname, serviceReadBack, hport]
  rfl

/-- **The services of a written configuration are read back** in order, and those that its rules
spell out behind them. -/
theorem services_read_write (origin : Dialect) {c : Config} (hc : c.OneLine)
    (hservices : ∀ s ∈ c.services, s.IsPlain) :
    (read (write origin c)).services = c.services.map serviceReadBack
      ++ (c.literalServices predefinedService).map fun s =>
        readService (impliedServiceEntry s).readBack := by
  have hentries : entriesAt "firewall service custom" ((document c).map Section.readBack)
      = (serviceEntries c).map Entry.readBack := by
    rw [entriesAt_listings (by decide) (by decide)]
    simp [listings]
  rw [services_read, readForest_write hc, hentries, serviceEntries, List.map_map, List.map_append,
    List.map_map, List.map_map]
  exact congrArg (· ++ _) (List.map_congr_left fun s hs => readService_serviceEntry (hservices s hs))

end FirewallConfig.FortiOs
