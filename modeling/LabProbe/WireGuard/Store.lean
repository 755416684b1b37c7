import LabProbe.WireGuard.Clean

/-!
# The documents of the WireGuard service

`put`, `delete` and `update_endpoint` on what the Hub has saved: the
document with the server as JSON, the rules of the STUN service, and the
queue. Read back, they act as the operations of the protocol do.
-/

namespace LabProbe.WireGuard

open Py Py.Json Hub Check
open Rows (updateFirst)

structure Stored where
  revision : Nat := 0
  endpointRevision : Nat := 0
  updatedAt : String := ""
  server : Option Entries := none
  tombstone : Option Entries := none

def Stored.toJson (d : Stored) : Entries :=
  [("version", .int 1), ("revision", .int d.revision),
   ("endpointRevision", .int d.endpointRevision), ("updatedAt", .str d.updatedAt),
   ("server", (d.server.map Json.dict).getD .null),
   ("tombstone", (d.tombstone.map Json.dict).getD .null)]

structure HubState where
  document : Stored := {}
  rules : Stun.Document := {}
  commands : List Command := []

/-- The identifier and the router of a command to queue. -/
structure Address where
  id : String
  router : String

-- ---------------------------------------------------------------------------
-- Reading the document
-- ---------------------------------------------------------------------------

def rawText : Json → String
  | .str s => s
  | _ => ""

def readProfile (row : Entries) : Profile where
  id := rawText (get row "id")
  endpointSource := rawText (get row "endpointSource")
  owner := rawText (get row "owner")
  port := intOf 0 (get row "port")
  endpointRevision := (intOf 0 (get row "endpointRevision")).toNat
  resolvedEndpoint := rawText (get row "resolvedEndpoint")

def storedProfiles (server : Entries) : List Entries :=
  ((get server "endpointProfiles").list?.getD []).filterMap dict?

def readServer (server : Entries) : Server where
  interfaceName := rawText (get server "interfaceName")
  endpointProfiles := (storedProfiles server).map readProfile
  revision := (intOf 0 (get server "revision")).toNat

def Stored.read (d : Stored) : Document where
  revision := d.revision
  endpointRevision := d.endpointRevision
  server := d.server.map readServer
  tombstone := d.tombstone.map fun t => rawText (get t "interfaceName")

-- ---------------------------------------------------------------------------
-- Operations
-- ---------------------------------------------------------------------------

def saveServer (now : String) (server : Entries) (d : Stored) : Stored :=
  { d with revision := d.revision + 1
           updatedAt := now
           server := some (Dict.set server "revision" (.int (d.revision + 1)))
           tombstone := none }

def buryServer (now : String) (d : Stored) : Stored :=
  let old := (d.server.map fun server => text (rawText (get server "interfaceName"))).getD ""
  { d with revision := d.revision + 1
           updatedAt := now
           server := none
           tombstone := some [("revision", .int (d.revision + 1)), ("deletedAt", .str now),
             ("interfaceName", .str (defaultInterface old))] }

def renewRow (now endpoint : String) (row : Entries) : Entries :=
  let revision := intOf 0 (get row "endpointRevision") + 1
  let row := Dict.set row "resolvedEndpoint" (.str endpoint)
  let row := Dict.set row "endpointRevision" (.int revision)
  Dict.set row "endpointUpdatedAt" (.str now)

/-- The server with a new endpoint in the first profile of an identifier. -/
def renewProfiles (now profileId endpoint : String) (server : Entries) : Entries :=
  let rows := updateFirst (fun row => text (rawText (get row "id")) == profileId)
    (renewRow now endpoint) (storedProfiles server)
  Dict.set server "endpointProfiles" (.list (rows.map .dict))

def renewEndpoint (now profileId endpoint : String) (d : Stored) : Stored :=
  { d with endpointRevision := d.endpointRevision + 1
           updatedAt := now
           server := d.server.map (renewProfiles now profileId endpoint) }

-- ---------------------------------------------------------------------------
-- Documents the Hub has saved
-- ---------------------------------------------------------------------------

structure Holds (row : Entries) (p : Profile) : Prop where
  id : get row "id" = .str p.id
  trimmed : text p.id = p.id
  endpointSource : get row "endpointSource" = .str p.endpointSource
  sources : p.endpointSource ∈ endpointSources
  owner : get row "owner" = .str p.owner
  port : get row "port" = .int p.port
  endpointRevision : Dict.get? row "endpointRevision" = some (.int p.endpointRevision)
  resolvedEndpoint : get row "resolvedEndpoint" = .str p.resolvedEndpoint

theorem Holds.readProfile {row : Entries} {p : Profile} (h : Holds row p) : readProfile row = p := by
  have hrevision : get row "endpointRevision" = .int p.endpointRevision := by
    rw [Json.get, h.endpointRevision, Option.getD_some]
  rw [WireGuard.readProfile, h.id, h.endpointSource, h.owner, h.port, hrevision, h.resolvedEndpoint]
  rfl

/-- A server as the Hub saves it: its profiles can be read back, and have
identifiers of their own. -/
structure WellStored (server : Entries) : Prop where
  rows : get server "endpointProfiles" = .list ((storedProfiles server).map .dict)
  holds : ∀ row ∈ storedProfiles server, Holds row (readProfile row)
  nodup : ((readServer server).endpointProfiles.map Profile.id).Nodup

theorem storedProfiles_eq {server : Entries} {rows : List Entries}
    (h : get server "endpointProfiles" = .list (rows.map .dict)) : storedProfiles server = rows := by
  rw [storedProfiles, h, list?, Option.getD_some, List.filterMap_map]
  exact List.filterMap_some

theorem text_of_isWord {extra : List Char} {limit : Nat} {s : String}
    (hextra : extra.all (fun c => !isSpace c) = true) (h : isWord extra limit s = true) : text s = s := by
  simp only [isWord, Bool.and_eq_true, List.all_eq_true, Bool.or_eq_true,
    List.contains_eq_mem, decide_eq_true_eq] at h
  refine strip_of_noSpace fun c hc => ?_
  rcases h.2 c hc with halnum | hmem
  · exact isSpace_of_isAlphanum halnum
  · simpa using List.all_eq_true.mp hextra c hmem

def EndpointProfile.toProfile (p : EndpointProfile) : Profile :=
  ⟨p.id, p.endpointSource, p.owner, p.port, p.endpointRevision.toNat, p.resolvedEndpoint⟩

def CleanedServer.toServer (s : CleanedServer) (revision : Nat) : Server :=
  ⟨s.interfaceName, s.endpointProfiles.map EndpointProfile.toProfile, revision⟩

theorem holds_renewRow {row : Entries} {p : Profile} (h : Holds row p) (now endpoint : String) :
    Holds (renewRow now endpoint row) (p.renew endpoint) := by
  have hget : ∀ key, key ≠ "endpointUpdatedAt" → key ≠ "endpointRevision" →
      key ≠ "resolvedEndpoint" → get (renewRow now endpoint row) key = get row key := by
    intro key hnow hrevision hendpoint
    simp only [renewRow, get_set, hnow.symm, hrevision.symm, hendpoint.symm, if_false]
  have hrevision : get row "endpointRevision" = .int p.endpointRevision := by
    rw [Json.get, h.endpointRevision, Option.getD_some]
  exact {
    id := (hget _ (by decide) (by decide) (by decide)).trans h.id
    trimmed := h.trimmed
    endpointSource := (hget _ (by decide) (by decide) (by decide)).trans h.endpointSource
    sources := h.sources
    owner := (hget _ (by decide) (by decide) (by decide)).trans h.owner
    port := (hget _ (by decide) (by decide) (by decide)).trans h.port
    endpointRevision := by
      simp [renewRow, Dict.get?_set, hrevision, intOf, Profile.renew]
    resolvedEndpoint := by
      simp [renewRow, get_set, Profile.renew] }

theorem renewProfiles_wellStored {server : Entries} (h : WellStored server)
    (now profileId endpoint : String) :
    WellStored (renewProfiles now profileId endpoint server) ∧
      readServer (renewProfiles now profileId endpoint server) =
        (readServer server).renew profileId endpoint := by
  have hrows : storedProfiles (renewProfiles now profileId endpoint server) =
      updateFirst (fun row => text (rawText (get row "id")) == profileId) (renewRow now endpoint)
        (storedProfiles server) := by
    apply storedProfiles_eq
    rw [renewProfiles, get_set, if_pos rfl]
  have hread : readServer (renewProfiles now profileId endpoint server) =
      (readServer server).renew profileId endpoint := by
    have hname : get (renewProfiles now profileId endpoint server) "interfaceName" =
        get server "interfaceName" := by
      rw [renewProfiles, get_set, if_neg (by decide)]
    have hrevision : get (renewProfiles now profileId endpoint server) "revision" =
        get server "revision" := by
      rw [renewProfiles, get_set, if_neg (by decide)]
    have hprofiles : (storedProfiles (renewProfiles now profileId endpoint server)).map readProfile =
        updateFirst (fun row => text row.id == profileId) (Profile.renew endpoint)
          ((storedProfiles server).map readProfile) := by
      rw [hrows]
      exact Rows.updateFirst_map (fun _ => rfl) fun row hrow =>
        (holds_renewRow (h.holds row hrow) now endpoint).readProfile
    rw [readServer, hname, hrevision, hprofiles]
    rfl
  refine ⟨⟨?_, ?_, ?_⟩, hread⟩
  · rw [hrows, renewProfiles, get_set, if_pos rfl]
  · intro row hrow
    rw [hrows] at hrow
    rcases Rows.mem_updateFirst hrow with hrow | ⟨row, hfind, rfl⟩
    · exact h.holds row hrow
    · have hnew := holds_renewRow (h.holds row (List.mem_of_find?_eq_some hfind)) now endpoint
      rwa [hnew.readProfile]
  · rw [hread]
    have hids : ((readServer server).renew profileId endpoint).endpointProfiles.map Profile.id =
        (readServer server).endpointProfiles.map Profile.id :=
      @Rows.map_updateFirst _ _ _ (Profile.renew endpoint) _ (fun _ _ => rfl) _
    rw [hids]
    exact h.nodup

section
variable [Unicode]

theorem CleanedProfile.holds {o : Opening} {fresh : String} {raw : Entries} {p : EndpointProfile}
    (h : CleanedProfile o fresh raw p) : Holds p.toJson p.toProfile where
  id := rfl
  trimmed := text_of_isWord (by decide) h.word
  endpointSource := rfl
  sources := h.sources
  owner := rfl
  port := rfl
  endpointRevision := by
    have hnonneg : 0 ≤ p.endpointRevision := by
      rw [h.revision]
      exact le_max_left _ _
    have hback : (p.toProfile.endpointRevision : Int) = p.endpointRevision := Int.toNat_of_nonneg hnonneg
    rw [hback]
    rfl
  resolvedEndpoint := rfl

theorem Cleaned.wellStored {r : Readings} {payload old : Entries} {server : CleanedServer}
    {o : Opening} (h : Cleaned r payload old server o) (revision : Nat) :
    WellStored (Dict.set server.toJson "revision" (.int (revision + 1))) ∧
      readServer (Dict.set server.toJson "revision" (.int (revision + 1))) =
        server.toServer (revision + 1) := by
  have hget : ∀ key, key ≠ "revision" →
      get (Dict.set server.toJson "revision" (.int (revision + 1))) key = get server.toJson key := by
    intro key hkey
    rw [get_set, if_neg hkey.symm]
  have hlist : get (Dict.set server.toJson "revision" (.int (revision + 1))) "endpointProfiles" =
      .list ((server.endpointProfiles.map EndpointProfile.toJson).map .dict) := by
    rw [hget _ (by decide), List.map_map]
    rfl
  have hrows := storedProfiles_eq hlist
  have hholds : ∀ p ∈ server.endpointProfiles, Holds p.toJson p.toProfile := by
    intro p hp
    obtain ⟨raws, -, hlen, hall⟩ := h.profiles
    obtain ⟨i, hi, rfl⟩ := List.mem_iff_getElem.mp hp
    exact (hall i raws[i] _ (List.getElem?_eq_getElem (hlen ▸ hi))
      (List.getElem?_eq_getElem hi)).1.holds
  have hread : readServer (Dict.set server.toJson "revision" (.int (revision + 1))) =
      server.toServer (revision + 1) := by
    have hname : get (Dict.set server.toJson "revision" (.int (revision + 1))) "interfaceName" =
        .str server.interfaceName := hget _ (by decide)
    have hprofiles : server.endpointProfiles.map (readProfile ∘ EndpointProfile.toJson) =
        server.endpointProfiles.map EndpointProfile.toProfile :=
      List.map_congr_left fun p hp => (hholds p hp).readProfile
    rw [readServer, hrows, hname, List.map_map, hprofiles, get_set, if_pos rfl]
    rfl
  refine ⟨⟨by rw [hrows, hlist], ?_, ?_⟩, hread⟩
  · intro row hrow
    rw [hrows] at hrow
    obtain ⟨p, hp, rfl⟩ := List.mem_map.mp hrow
    rw [(hholds p hp).readProfile]
    exact hholds p hp
  · rw [hread, CleanedServer.toServer, List.map_map]
    exact h.profileIds

-- ---------------------------------------------------------------------------
-- The operations
-- ---------------------------------------------------------------------------

/-- `_save_document`. -/
def HubState.save (document : Stored) (s : HubState) : Except String Stored × HubState :=
  if hasSecret (.dict document.toJson) then (.error "Hub 不允许保存 WireGuard 私钥或预共享密钥", s)
  else (.ok document, { s with document := document })

def HubState.queue (a : Address) (action : Action) (revision : Nat) (scope : Scope)
    (s : HubState) : HubState :=
  { s with commands := WireGuard.queue a.id a.router action revision scope s.commands }

def HubState.conflict (expected : Option Int) (s : HubState) : Bool :=
  expected.any fun n => n != (s.document.revision : Int)

/-- The server that a request replaces. -/
def HubState.old (s : HubState) : Entries := s.document.server.getD []

def HubState.clean (r : Readings) (payload : Entries) (s : HubState) :
    Except String CleanedServer × HubState :=
  let result := cleanServer r payload s.old s.rules
  (result.1, { s with rules := result.2 })

/-- `put`; the firewall is left out. -/
def HubState.put (r : Readings) (a : Address) (expected : Option Int) (payload : Entries)
    (s : HubState) : Except String Stored × HubState :=
  if s.conflict expected then (.error "revision conflict", s)
  else andThen (s.clean r payload) fun server s =>
    andThen (s.save (saveServer r.now server.toJson s.document)) fun saved s =>
      (.ok saved, s.queue a (.apply (readServer (saved.server.getD []))) saved.revision .server)

def HubState.delete (now : String) (a : Address) (expected : Option Int) (s : HubState) :
    Except String Stored × HubState :=
  if s.conflict expected then (.error "revision conflict", s)
  else andThen (s.save (buryServer now s.document)) fun saved s =>
    let interfaceName := (saved.read.tombstone).getD ""
    (.ok saved, s.queue a (.delete interfaceName) saved.revision .server)

/-- `update_endpoint`; the checks are those of the protocol. -/
def HubState.updateEndpoint (now : String) (a : Address)
    (profileId source owner endpoint : String) (expected : Option Int) (s : HubState) :
    Except String EndpointUpdate × HubState :=
  andThen (WireGuard.updateEndpoint s.document.read profileId source owner endpoint expected, s)
    fun (_, update) s =>
      andThen (s.save (renewEndpoint now profileId update.endpoint s.document)) fun _ s =>
        (.ok update, s.queue a (.endpoint update) update.endpointRevision (.endpoint profileId))

-- ---------------------------------------------------------------------------
-- The operations as those of the protocol
-- ---------------------------------------------------------------------------

theorem save_ok {document saved : Stored} {s s' : HubState}
    (h : s.save document = (.ok saved, s')) :
    saved = document ∧ s' = { s with document := document } := by
  unfold HubState.save at h
  split at h
  · cases h
  · cases h
    exact ⟨rfl, rfl⟩

theorem put_ok {r : Readings} {a : Address} {expected : Option Int} {payload : Entries}
    {s s' : HubState} {saved : Stored} (h : s.put r a expected payload = (.ok saved, s')) :
    s.conflict expected = false ∧ s'.document = saved ∧ ∃ server o,
      Cleaned r payload s.old server o ∧ saved = saveServer r.now server.toJson s.document := by
  unfold HubState.put at h
  split at h
  · cases h
  · rename_i hconflict
    obtain ⟨server, s₁, hclean, h⟩ := andThen_eq_ok.mp h
    obtain ⟨saved', s₂, hsave, h⟩ := andThen_eq_ok.mp h
    obtain ⟨rfl, rfl⟩ := save_ok hsave
    cases h
    obtain ⟨hserver, rfl⟩ := Prod.mk.inj hclean
    obtain ⟨o, ho⟩ := cleanServer_ok (Prod.ext hserver rfl)
    exact ⟨by simpa using hconflict, rfl, server, o, ho, rfl⟩

/-- The saved server, if any, is as the Hub saves servers. -/
def HubState.WellStored (s : HubState) : Prop :=
  ∀ server ∈ s.document.server, WireGuard.WellStored server

theorem put_refines {r : Readings} {a : Address} {expected : Option Int} {payload : Entries}
    {s s' : HubState} {saved : Stored} (h : s.put r a expected payload = (.ok saved, s')) :
    s'.WellStored ∧ ∃ server : CleanedServer,
      WireGuard.put s.document.read expected (server.toServer 0) = .ok s'.document.read := by
  obtain ⟨hconflict, hdocument, server, o, hcleaned, rfl⟩ := put_ok h
  obtain ⟨hwell, hread⟩ := hcleaned.wellStored s.document.revision
  constructor
  · intro stored hstored
    rw [hdocument] at hstored
    cases hstored
    exact hwell
  · refine ⟨server, ?_⟩
    have hpass : (expected.any fun n => n != (s.document.read.revision : Int)) = false := hconflict
    rw [WireGuard.put, hpass, if_neg Bool.false_ne_true, hdocument]
    simp only [Stored.read, saveServer, CleanedServer.toServer, Option.map_some, hread,
      Option.map_none]

theorem updateEndpoint_refines {now : String} {a : Address}
    {profileId source owner endpoint : String} {expected : Option Int} {s s' : HubState}
    {update : EndpointUpdate} (hs : s.WellStored)
    (h : s.updateEndpoint now a profileId source owner endpoint expected = (.ok update, s')) :
    s'.WellStored ∧
      WireGuard.updateEndpoint s.document.read profileId source owner endpoint expected =
        .ok (s'.document.read, update) := by
  obtain ⟨⟨saved, update'⟩, s₁, hresult, h⟩ := andThen_eq_ok.mp h
  obtain ⟨hupdate, rfl⟩ := Prod.mk.inj hresult
  dsimp only at h
  obtain ⟨_, s₂, hsave, h⟩ := andThen_eq_ok.mp h
  obtain ⟨-, rfl⟩ := save_ok hsave
  cases h
  obtain ⟨server, profile, resolved, hserver, -, -, -, -, rfl, rfl⟩ := updateEndpoint_ok hupdate
  obtain ⟨stored, hstored, rfl⟩ := Option.map_eq_some_iff.mp hserver
  obtain ⟨hwell, hread⟩ := renewProfiles_wellStored (hs stored hstored) now profileId resolved
  constructor
  · intro stored' hstored'
    simp only [HubState.queue, renewEndpoint, hstored, Option.map_some] at hstored'
    cases hstored'
    exact hwell
  · rw [hupdate]
    simp only [HubState.queue, renewEndpoint, Stored.read, hstored, Option.map_some, hread]

end

end LabProbe.WireGuard
