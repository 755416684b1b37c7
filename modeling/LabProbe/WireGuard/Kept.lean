import LabProbe.Lib.Run
import LabProbe.WireGuard.Store

/-!
# What a put keeps of the endpoints

A put writes the revision and the endpoint of a profile as its body gives
them, and is compared with the revision of the server only, which endpoint
updates do not raise. The endpoints that updates have set stay in the runs
where every put carries them.
-/

namespace LabProbe.WireGuard

open Py Py.Json Hub Check Runs

inductive HubRequest where
  | put (r : Readings) (a : Address) (expected : Option Int) (payload : Entries)
  | delete (now : String) (a : Address) (expected : Option Int)
  | update (now : String) (a : Address) (profileId source owner endpoint : String)
    (expected : Option Int)

/-- The profiles of DDNS and STUN that keep identifier and source keep the
revision and the endpoint. -/
def EndpointsKept (before after : Document) : Prop :=
  ∀ old ∈ before.profiles, ∀ new ∈ after.profiles, new.id = old.id →
    new.endpointSource = old.endpointSource → old.endpointSource ≠ "manual" →
      new.endpointRevision = old.endpointRevision ∧ new.resolvedEndpoint = old.resolvedEndpoint

section
variable [Unicode]

def HubState.step (s : HubState) : HubRequest → HubState
  | .put r a expected payload => (s.put r a expected payload).2
  | .delete now a expected => (s.delete now a expected).2
  | .update now a profileId source owner endpoint expected =>
    (s.updateEndpoint now a profileId source owner endpoint expected).2

/-- A put that is accepted keeps the endpoints. -/
def HubState.KeepsEndpoints (s : HubState) : HubRequest → Prop
  | .put r a expected payload => ∀ saved s', s.put r a expected payload = (.ok saved, s') →
    EndpointsKept s.document.read saved.read
  | _ => True

/-- The row gives the endpoint of the profile, and its revision or none. -/
def Carries (raw : Entries) (profile : Profile) : Prop :=
  (∀ revision ∈ Dict.get? raw "endpointRevision",
      max 0 (intOf 0 revision) = profile.endpointRevision) ∧
    Hub.text (get raw "resolvedEndpoint") = profile.resolvedEndpoint

/-- The rows for stored profiles of DDNS and STUN give what is stored. -/
def HubState.CarriesEndpoints (s : HubState) (r : Readings) (payload : Entries) : Prop :=
  ∀ i raw, (profileRows payload s.old)[i]? = some (.dict raw) →
    ∀ profile ∈ s.document.read.profiles, profile.id = rowId (r.profileId i) raw →
      profile.endpointSource = rowSource raw → profile.endpointSource ≠ "manual" →
        Carries raw profile

/-- A put that is accepted carries the endpoints. -/
def HubState.PutCarries (s : HubState) : HubRequest → Prop
  | .put r a expected payload =>
    (s.put r a expected payload).1.isOk = true → s.CarriesEndpoints r payload
  | _ => True

-- ---------------------------------------------------------------------------
-- The stored profiles
-- ---------------------------------------------------------------------------

theorem delete_wellStored {now : String} {a : Address} {expected : Option Int} {s : HubState}
    (h : s.WellStored) : (s.delete now a expected).2.WellStored := by
  cases hresult : s.delete now a expected with
  | mk result s' =>
    unfold HubState.delete HubState.save at hresult
    split at hresult
    · cases hresult
      exact h
    · split at hresult
      · cases hresult
        exact h
      · cases hresult
        exact nofun

theorem put_error_document {r : Readings} {a : Address} {expected : Option Int}
    {payload : Entries} {s s' : HubState} {message : String}
    (h : s.put r a expected payload = (.error message, s')) : s'.document = s.document := by
  unfold HubState.put at h
  split at h
  · cases h
    rfl
  · have hclean : (s.clean r payload).2.document = s.document := rfl
    generalize s.clean r payload = cleaned at h hclean
    obtain ⟨result, left⟩ := cleaned
    cases result with
    | error => exact (Prod.mk.inj h).2 ▸ hclean
    | ok server =>
      rw [andThen_ok, HubState.save] at h
      split at h
      · exact (Prod.mk.inj h).2 ▸ hclean
      · cases h

theorem updateEndpoint_error {now : String} {a : Address}
    {profileId source owner endpoint message : String} {expected : Option Int} {s s' : HubState}
    (h : s.updateEndpoint now a profileId source owner endpoint expected = (.error message, s')) :
    s' = s := by
  unfold HubState.updateEndpoint at h
  cases hupdate : updateEndpoint s.document.read profileId source owner endpoint expected with
  | error =>
    rw [hupdate] at h
    exact (Prod.mk.inj h).2.symm
  | ok result =>
    obtain ⟨saved, update⟩ := result
    rw [hupdate, andThen_ok] at h
    unfold HubState.save at h
    dsimp only at h
    split at h
    · exact (Prod.mk.inj h).2.symm
    · cases h

theorem step_wellStored (s : HubState) (e : HubRequest) (h : s.WellStored) :
    (s.step e).WellStored := by
  cases e with
  | put r a expected payload =>
    cases hresult : s.put r a expected payload with
    | mk result s' =>
      rw [HubState.step, hresult]
      cases result with
      | error message =>
        rw [HubState.WellStored, put_error_document hresult]
        exact h
      | ok saved => exact (put_refines hresult).1
  | delete now a expected => exact delete_wellStored h
  | update now a profileId source owner endpoint expected =>
    cases hresult : s.updateEndpoint now a profileId source owner endpoint expected with
    | mk result s' =>
      rw [HubState.step, hresult]
      cases result with
      | error message => exact updateEndpoint_error hresult ▸ h
      | ok update => exact (updateEndpoint_refines h hresult).1

theorem get?_profilesById {server : Entries} (h : WellStored server) {row : Entries}
    (hrow : row ∈ storedProfiles server) :
    Dict.get? (profilesById ((storedProfiles server).map .dict)) (readProfile row).id = some row := by
  have hrows : ((storedProfiles server).map Json.dict).filterMap
      (fun row => row.dict?.map fun d => (Hub.text (get d "id"), d)) =
      (storedProfiles server).map fun row => ((readProfile row).id, row) := by
    rw [List.filterMap_map, ← List.filterMap_eq_map]
    refine List.filterMap_congr fun row hrow => ?_
    have hholds := h.holds row hrow
    have hid : Hub.text (get row "id") = (readProfile row).id := by
      rw [hholds.id, text_str]
      exact hholds.trimmed
    change some (Hub.text (get row "id"), row) = some ((readProfile row).id, row)
    rw [hid]
  have hnodup : (Dict.keys ((storedProfiles server).map fun row => ((readProfile row).id, row))).Nodup := by
    have hkeys : Dict.keys ((storedProfiles server).map fun row => ((readProfile row).id, row)) =
        (readServer server).endpointProfiles.map Profile.id := by
      simp only [Dict.keys, readServer, List.map_map]
      rfl
    rw [hkeys]
    exact h.nodup
  rw [profilesById, hrows, Dict.get?_ofEntries]
  apply Dict.get?_of_mem
  · rw [Dict.keys, List.map_reverse, List.nodup_reverse]
    exact hnodup
  · rw [List.mem_reverse]
    exact List.mem_map_of_mem hrow

omit [Unicode] in
theorem rowRevision_stored {oldProfiles : List (String × Entries)} {id : String}
    {row : Entries} {profile : Profile} (raw : Entries) (hget : Dict.get? oldProfiles id = some row)
    (hholds : Holds row profile) : rowRevision oldProfiles id raw = profile.endpointRevision ↔
      ∀ revision ∈ Dict.get? raw "endpointRevision",
        max 0 (intOf 0 revision) = profile.endpointRevision := by
  have hkept : Json.getD row "endpointRevision" (.int 0) = .int profile.endpointRevision := by
    rw [Json.getD, hholds.endpointRevision, Option.getD_some]
  rw [rowRevision, hget, Option.map_some, Option.getD_some, hkept]
  cases hrevision : Dict.get? raw "endpointRevision" with
  | none => simp [Json.getD, hrevision, intOf]
  | some revision => simp [Json.getD, hrevision]

-- ---------------------------------------------------------------------------
-- Puts
-- ---------------------------------------------------------------------------

theorem put_kept_iff {r : Readings} {a : Address} {expected : Option Int} {payload : Entries}
    {s s' : HubState} {saved : Stored} (hs : s.WellStored)
    (h : s.put r a expected payload = (.ok saved, s')) :
    EndpointsKept s.document.read saved.read ↔ s.CarriesEndpoints r payload := by
  obtain ⟨-, -, server, o, hcleaned, rfl⟩ := put_ok h
  have hread := (hcleaned.wellStored s.document.revision).2
  have hafter : (saveServer r.now server.toJson s.document).read.profiles =
      server.endpointProfiles.map EndpointProfile.toProfile := by
    simp only [Document.profiles, Stored.read, saveServer, Option.map_some, hread,
      Option.getD_some]
    rfl
  have hopened := opening_ok hcleaned.opening
  have hrows := hopened.rows
  obtain ⟨oldRows, hold, holdProfiles⟩ := hopened.oldProfiles
  obtain ⟨raws, hraws, hlen, hall⟩ := hcleaned.profiles
  -- a row and the profile made of it say the same of a stored profile
  have hsame : ∀ (i : Nat) (raw : Entries) (p : EndpointProfile), raws[i]? = some raw → server.endpointProfiles[i]? = some p →
      ∀ profile ∈ s.document.read.profiles, profile.id = p.id →
        ((p.toProfile.endpointRevision = profile.endpointRevision ∧
          p.toProfile.resolvedEndpoint = profile.resolvedEndpoint) ↔ Carries raw profile) := by
    intro i raw p hraw hp profile hprofile hid
    obtain ⟨hrow, -⟩ := hall i raw p hraw hp
    obtain ⟨stored, hstored, row, hmem, rfl⟩ : ∃ stored, s.document.server = some stored ∧
        ∃ row ∈ storedProfiles stored, readProfile row = profile := by
      cases hserver : s.document.server with
      | none => simp [Document.profiles, Stored.read, hserver] at hprofile
      | some stored =>
        simp only [Document.profiles, Stored.read, hserver, Option.map_some, Option.getD_some,
          readServer, List.mem_map] at hprofile
        exact ⟨stored, rfl, hprofile⟩
    have hwell := hs stored hstored
    have hholds := hwell.holds row hmem
    have holdRows : oldRows = (storedProfiles stored).map .dict := by
      rw [HubState.old, hstored, Option.getD_some, hwell.rows, iterate_list] at hold
      exact (Except.ok.inj hold).symm
    have hget : Dict.get? o.oldProfiles p.id = some row := by
      rw [holdProfiles, holdRows, ← hid]
      exact get?_profilesById hwell hmem
    have hrevision := rowRevision_stored raw hget hholds
    rw [← hrow.revision] at hrevision
    have hnat : p.toProfile.endpointRevision = (readProfile row).endpointRevision ↔
        p.endpointRevision = ((readProfile row).endpointRevision : Int) := by
      have hnonneg : 0 ≤ p.endpointRevision := by
        rw [hrow.revision]
        exact le_max_left _ _
      change p.endpointRevision.toNat = _ ↔ _
      omega
    have hendpoint : p.toProfile.resolvedEndpoint = Hub.text (get raw "resolvedEndpoint") :=
      hrow.endpoint
    rw [Carries, hnat, hrevision, hendpoint]
  constructor
  · intro hkept i raw hraw profile hprofile hid hsource hauto
    rw [hrows, hraws, List.getElem?_map, Option.map_eq_some_iff] at hraw
    obtain ⟨raw', hraw, heq⟩ := hraw
    cases heq
    have hi : i < server.endpointProfiles.length := by
      rw [← hlen]
      exact (List.getElem?_eq_some_iff.mp hraw).1
    have hp := List.getElem?_eq_getElem hi
    obtain ⟨hrow, -⟩ := hall i raw _ hraw hp
    have hmem : server.endpointProfiles[i].toProfile ∈
        (saveServer r.now server.toJson s.document).read.profiles := by
      rw [hafter]
      exact List.mem_map_of_mem (List.getElem_mem hi)
    refine (hsame i raw _ hraw hp profile hprofile (hid.trans hrow.id.symm)).mp ?_
    exact hkept profile hprofile _ hmem (hrow.id.trans hid.symm) (hrow.source.trans hsource.symm)
      hauto
  · intro hcarries old hold new hnew hid hsource hauto
    rw [hafter, List.mem_map] at hnew
    obtain ⟨p, hp, rfl⟩ := hnew
    obtain ⟨i, hi, rfl⟩ := List.mem_iff_getElem.mp hp
    have hp := List.getElem?_eq_getElem hi
    have hraw := List.getElem?_eq_getElem (hlen ▸ hi)
    obtain ⟨hrow, -⟩ := hall i _ _ hraw hp
    refine (hsame i _ _ hraw hp old hold hid.symm).mpr ?_
    have hread : (profileRows payload s.old)[i]? = some (.dict raws[i]) := by
      rw [hrows, hraws, List.getElem?_map, hraw, Option.map_some]
    exact hcarries i _ hread old hold (hid.symm.trans hrow.id) (hsource.symm.trans hrow.source) hauto

/-- Along every run from a new Hub, every put keeps the endpoints just when
every put carries them. -/
theorem endpoints_kept_iff (es : List HubRequest) :
    Along HubState.step HubState.KeepsEndpoints {} es ↔
      Along HubState.step HubState.PutCarries {} es := by
  have hinit : HubState.WellStored {} := nofun
  refine along_iff hinit (fun s e hs _ => step_wellStored s e hs) fun s e hs => ?_
  cases e with
  | put r a expected payload =>
    simp only [HubState.KeepsEndpoints, HubState.PutCarries]
    cases hresult : s.put r a expected payload with
    | mk result s' =>
      cases result with
      | error message => simp [Except.isOk, Except.toBool]
      | ok saved =>
        have hiff := put_kept_iff hs hresult
        simp [Except.isOk, Except.toBool, hiff]
  | delete | update => exact Iff.rfl

end

section
local instance asciiKept : Unicode := .ascii

def homeReadings : Readings := ⟨"2026-01-01T00:00:00Z", fun n => n, fun n => n⟩

/-- A server with one DDNS profile, the body as a client has read it before
any endpoint update. -/
def homeBody : Entries :=
  [("interfaceName", .str "labwg0"), ("address", .str "10.77.0.1/24"), ("listenPort", .int 51820),
   ("endpointProfiles", .list [.dict [("id", .str "home"), ("endpointSource", .str "ddns"),
     ("hostname", .str "home.example"), ("endpointRevision", .int 0),
     ("resolvedEndpoint", .str "")]])]

def homePut (expected : Option Int) : HubRequest :=
  .put homeReadings ⟨"wg-1", "router"⟩ expected homeBody

def homeHub : HubState :=
  HubState.step (HubState.step {} (homePut none))
    (.update "2026-01-01T00:01:00Z" ⟨"wg-2", "router"⟩ "home" "ddns" "ddns:home" "203.0.113.9"
      (some 0))

def homeRow (revision : Nat) (endpoint : String) : Profile :=
  ⟨"home", "ddns", "ddns:home", 51820, revision, endpoint⟩

theorem homeHub_profiles :
    homeHub.document.read.profiles = [homeRow 1 "203.0.113.9:51820"] := by
  decide +kernel

/-- The body is put again, under the revision of the server that the client
has read: the endpoint update is rolled back. -/
theorem stale_put_rolls_back :
    ¬ ∀ es : List HubRequest, Along HubState.step HubState.KeepsEndpoints {} es := by
  intro hall
  obtain ⟨-, -, hkeeps, -⟩ := hall [homePut none,
    .update "2026-01-01T00:01:00Z" ⟨"wg-2", "router"⟩ "home" "ddns" "ddns:home" "203.0.113.9"
      (some 0), homePut (some 1)]
  have hread : ((homeHub.put homeReadings ⟨"wg-1", "router"⟩ (some 1) homeBody).1.toOption.map
      fun saved => saved.read.profiles) = some [homeRow 0 ""] := by
    decide +kernel
  cases hresult : homeHub.put homeReadings ⟨"wg-1", "router"⟩ (some 1) homeBody with
  | mk result s' =>
    rw [hresult] at hread
    cases result with
    | error message => cases hread
    | ok saved =>
      have hprofiles : saved.read.profiles = [homeRow 0 ""] := Option.some.inj hread
      have hkept := hkeeps saved s' hresult (homeRow 1 "203.0.113.9:51820")
        (by change _ ∈ homeHub.document.read.profiles; simp [homeHub_profiles])
        (homeRow 0 "") (by simp [hprofiles]) rfl rfl (by decide)
      exact absurd hkept.1 (by decide)

end

end LabProbe.WireGuard
