import LabProbe.Storage.Monotone
import LabProbe.Storage.View

/-!
# The snapshot of `build_sync_snapshot`

The Hub reads the documents of a snapshot one after the other, between two
readings of the revision, and starts anew where these differ, three times at
most. A request holds `DATA_LOCK` from `lock_request_data` to
`unlock_request_data`, and `save_json` takes it for each commit, so no commit
comes between the looks of a snapshot.

The threads of the Hub go on step by step, in any order; a thread that waits
for the lock leaves the state as it is.
-/

namespace LabProbe.Storage

open Py Py.Json Logs Runs

-- ---------------------------------------------------------------------------
-- Reading
-- ---------------------------------------------------------------------------

/-- The looks at the database, in order; `status_document` takes those from
`state` to `statusDevices`, and `install_hub0934_fixes` the last three. -/
inductive Look where
  | before | state | vpn | statusDevices | devices | archive | events | after
  | offlineArchive | watchedDevices | watchedArchive
  deriving DecidableEq, Repr

def Look.pass : List Look :=
  [.before, .state, .vpn, .statusDevices, .devices, .archive, .events, .after]

def Look.closing : List Look := [.offlineArchive, .watchedDevices, .watchedArchive]

def Look.returned : Look → Option String
  | .state => some "state.json"
  | .vpn => some "vpn_stun_addresses.json"
  | .devices | .watchedDevices => some "devices.json"
  | .archive | .offlineArchive | .watchedArchive => some "device_archive.json"
  | .events => some "events.json"
  | .before | .statusDevices | .after => none

/-- What a snapshot is made of. -/
structure Snapshot where
  revision : Nat
  state : Json
  vpn : Json
  devicesUpdatedAt : Json
  devices : Json
  archive : Json
  events : List Json
  offlineArchive : Json
  watchedDevices : Json
  watchedArchive : Json

def loadJson (s : Store) (key : String) (default : Json) : Json :=
  (Dict.get? s.documents key).getD default

def buildSyncSnapshot (found : Look → History) : Snapshot where
  revision := (found .after).revision
  state := loadJson (found .state).store "state.json" (.dict [])
  vpn := loadJson (found .vpn).store "vpn_stun_addresses.json" (.dict [])
  devicesUpdatedAt := get (asDict (loadJson (found .statusDevices).store "devices.json"
    (.dict []))) "updatedAt"
  devices := loadJson (found .devices).store "devices.json" (.dict [])
  archive := loadJson (found .archive).store "device_archive.json" (.dict [])
  events := ((loadJson (found .events).store "events.json" (.list [])).list?.getD []).filter
    fun event => !(get (asDict event) "deleted").truthy
  offlineArchive := loadJson (found .offlineArchive).store "device_archive.json" (.dict [])
  watchedDevices := loadJson (found .watchedDevices).store "devices.json" (.dict [])
  watchedArchive := loadJson (found .watchedArchive).store "device_archive.json" (.dict [])

/-- How far a snapshot is: its pass, the looks to come, and what the last look
of each kind found. -/
structure Reading where
  pass : Nat
  todo : List Look
  found : Look → History

def Reading.start (h : History) : Reading := ⟨1, Look.pass, fun _ => h⟩

/-- A pass in which the revision has advanced is repeated, up to the third. -/
def Reading.look (r : Reading) (l : Look) (rest : List Look) (h : History) : Reading :=
  let found := Function.update r.found l h
  if l = .after then
    if (found .before).revision = (found .after).revision ∨ 3 ≤ r.pass then
      { r with todo := Look.closing, found := found }
    else ⟨r.pass + 1, Look.pass, found⟩
  else { r with todo := rest, found := found }

-- ---------------------------------------------------------------------------
-- The threads
-- ---------------------------------------------------------------------------

structure Holder where
  thread : Nat
  snapshot : Option Reading := none

/-- The Hub; what the looks of each snapshot found is kept with it. -/
structure HubProcess where
  history : History
  holder : Option Holder := none
  answers : List (Look → History) := []

def HubProcess.created (files : List (String × Value)) : HubProcess := { history := .created files }

/-- A request enters and leaves, reads a snapshot, look by look; a thread,
of a request or not, saves a document; the Hub is started anew. -/
inductive Act where
  | enter (thread : Nat)
  | snapshot (thread : Nat)
  | look (thread : Nat)
  | save (thread : Nat) (key : String) (value : Value) (clock : Clock)
  | leave (thread : Nat)
  | restart (clock : Clock)

/-- The next look of the holder's snapshot; after the last it is answered. -/
def HubProcess.look (p : HubProcess) (holder : Holder) (r : Reading) : HubProcess :=
  match r.todo with
  | [] => { p with holder := some { holder with snapshot := none }
                   answers := p.answers ++ [r.found] }
  | l :: rest => { p with holder := some { holder with snapshot := r.look l rest p.history } }

section
variable (keep : Retention) [Unicode]

def HubProcess.commit (p : HubProcess) (e : Event) : HubProcess :=
  { p with history := p.history.step keep e }

/-- A thread that reads a snapshot saves nothing. -/
def HubProcess.step (p : HubProcess) : Act → HubProcess
  | .enter thread =>
    match p.holder with
    | none => { p with holder := some ⟨thread, none⟩ }
    | some _ => p
  | .snapshot thread =>
    match p.holder with
    | some ⟨owner, none⟩ =>
      if owner = thread then { p with holder := some ⟨owner, some (.start p.history)⟩ } else p
    | _ => p
  | .look thread =>
    match p.holder with
    | some ⟨owner, some r⟩ => if owner = thread then p.look ⟨owner, some r⟩ r else p
    | _ => p
  | .save thread key value clock =>
    match p.holder with
    | none => p.commit keep (.save key value clock)
    | some ⟨owner, none⟩ => if owner = thread then p.commit keep (.save key value clock) else p
    | some ⟨_, some _⟩ => p
  | .leave thread =>
    match p.holder with
    | some holder => if holder.thread = thread then { p with holder := none } else p
    | none => p
  | .restart clock => { p.commit keep (.restart clock) with holder := none }

-- ---------------------------------------------------------------------------
-- The property
-- ---------------------------------------------------------------------------

omit [Unicode] in
/-- Every change of a returned document is later than the revision of the
snapshot, or was there when the document was read. -/
def HubProcess.Reflects (p : HubProcess) : Prop :=
  ∀ found ∈ p.answers, ∀ l key, l.returned = some key → ∀ row ∈ p.history.committed,
    owner (row.entity, row.entityKey) = some key →
      row.revision ≤ (buildSyncSnapshot found).revision → row ∈ (found l).committed

-- ---------------------------------------------------------------------------
-- The looks under the lock
-- ---------------------------------------------------------------------------

variable {keep} {p : HubProcess} {h h' : History}

omit [Unicode] in
theorem mem_of_le_revision (hn : Numbered h) (hn' : Numbered h')
    (hgrown : h.committed <+: h'.committed) {row : Revision} (hrow : row ∈ h'.committed)
    (hle : row.revision ≤ h.revision) : row ∈ h.committed := by
  have hpos := hn'.positive row hrow
  simp only [Revision.number] at hpos
  obtain ⟨kept, hkept, heq⟩ : ∃ kept ∈ h.store.revisions, kept.revision = h.revision :=
    currentRevision_mem (by simp only [History.revision] at hle; omega)
  obtain ⟨later, hlater⟩ := hgrown
  have hordered := hn'.ordered
  rw [← hlater] at hrow hordered
  rcases List.mem_append.mp hrow with hrow | hrow
  · exact hrow
  · have hlt := (List.pairwise_append.mp hordered).2.2 kept (hn.kept.subset hkept) row hrow
    simp only [Revision.number] at hlt
    omega

/-- All looks of a snapshot found one database, whose log has only grown. -/
structure Steady (h : History) (found : Look → History) : Prop where
  same : ∃ g, ∀ l, found l = g
  numbered : ∀ l, Numbered (found l)
  grown : ∀ l, (found l).committed <+: h.committed

/-- The looks of a snapshot under way have found the database as it is. -/
structure HubProcess.Kept (p : HubProcess) : Prop where
  numbered : Numbered p.history
  reading : ∀ holder ∈ p.holder, ∀ r ∈ holder.snapshot, ∀ l, r.found l = p.history
  answers : ∀ found ∈ p.answers, Steady p.history found

omit [Unicode] in
theorem kept_created (files : List (String × Value)) : (HubProcess.created files).Kept where
  numbered := numbered_created files
  reading _ hholder := nomatch hholder
  answers _ hfound := nomatch hfound

omit [Unicode] in
theorem look_found {r : Reading} (hr : ∀ l, r.found l = h) (l : Look) (rest : List Look) :
    ∀ l', (r.look l rest h).found l' = h := by
  have hupdate : ∀ l', Function.update r.found l h l' = h := by
    intro l'
    rw [Function.update_apply]
    split
    · rfl
    · exact hr l'
  intro l'
  unfold Reading.look
  dsimp only
  split
  · split <;> exact hupdate l'
  · exact hupdate l'

theorem HubProcess.Kept.answers_commit (hk : p.Kept) (e : Event) :
    ∀ found ∈ p.answers, Steady (p.commit keep e).history found := by
  intro found hfound
  obtain ⟨hsame, hnumbered, hgrown⟩ := hk.answers found hfound
  exact ⟨hsame, hnumbered, fun l => (hgrown l).trans (List.prefix_append _ _)⟩

theorem HubProcess.Kept.commit (hk : p.Kept) (e : Event)
    (hnone : ∀ holder ∈ p.holder, holder.snapshot = none) : (p.commit keep e).Kept where
  numbered := hk.numbered.step
  reading holder hholder r hr := by
    rw [hnone holder hholder] at hr
    cases hr
  answers := hk.answers_commit e

omit [Unicode] in
theorem HubProcess.Kept.look (hk : p.Kept) {holder : Holder} {r : Reading}
    (hr : ∀ l, r.found l = p.history) : (p.look holder r).Kept := by
  unfold HubProcess.look
  split
  · refine ⟨hk.numbered, ?_, ?_⟩
    · rintro holder hholder r hr
      cases hholder
      cases hr
    · intro found hfound
      rcases List.mem_append.mp hfound with hfound | hfound
      · exact hk.answers found hfound
      · obtain rfl := List.mem_singleton.mp hfound
        exact ⟨⟨p.history, hr⟩, fun l => hr l ▸ hk.numbered, fun l => hr l ▸ List.prefix_refl _⟩
  · refine ⟨hk.numbered, ?_, hk.answers⟩
    rintro holder hholder r' hr'
    cases hholder
    cases hr'
    exact look_found hr _ _

theorem HubProcess.Kept.step (hk : p.Kept) (a : Act) : (p.step keep a).Kept := by
  cases a with
  | enter thread =>
    simp only [HubProcess.step]
    split
    · refine ⟨hk.numbered, ?_, hk.answers⟩
      rintro holder hholder r hr
      cases hholder
      cases hr
    · exact hk
  | snapshot thread =>
    simp only [HubProcess.step]
    split
    · split
      · refine ⟨hk.numbered, ?_, hk.answers⟩
        rintro holder hholder r hr l
        cases hholder
        cases hr
        rfl
      · exact hk
    · exact hk
  | look thread =>
    simp only [HubProcess.step]
    split
    · rename_i owner r hholder
      split
      · exact hk.look (hk.reading _ hholder r rfl)
      · exact hk
    · exact hk
  | save thread key value clock =>
    simp only [HubProcess.step]
    split
    · rename_i hholder
      refine hk.commit _ ?_
      simp [hholder]
    · rename_i owner hholder
      split
      · refine hk.commit _ ?_
        simp [hholder]
      · exact hk
    · exact hk
  | leave thread =>
    simp only [HubProcess.step]
    split
    · split
      · exact ⟨hk.numbered, fun _ hholder => (nomatch hholder), hk.answers⟩
      · exact hk
    · exact hk
  | restart clock =>
    exact ⟨hk.numbered.step, fun _ hholder => (nomatch hholder), hk.answers_commit (.restart clock)⟩

omit [Unicode] in
theorem HubProcess.Kept.reflects (hk : p.Kept) : p.Reflects := by
  intro found hfound l key _ row hrow _ hle
  obtain ⟨⟨g, hg⟩, hnumbered, hgrown⟩ := hk.answers found hfound
  have hafter : (buildSyncSnapshot found).revision = (found l).revision := by
    simp only [buildSyncSnapshot, hg]
  exact mem_of_le_revision (hnumbered l) hk.numbered (hgrown l) hrow (hafter ▸ hle)

def snapshotRequest (thread : Nat) : List Act :=
  [.enter thread, .snapshot thread] ++ List.replicate 12 (.look thread) ++ [.leave thread]

theorem snapshot_answers (hfree : p.holder = none) (thread : Nat) :
    run (HubProcess.step keep) p (snapshotRequest thread) =
      { p with answers := p.answers ++ [fun _ => p.history] } := by
  simp [snapshotRequest, List.replicate, HubProcess.step, hfree, HubProcess.look, Reading.start,
    Reading.look, Look.pass, Look.closing]

end

section
local instance snapshotUnicode : Unicode := .ascii

/-- What another thread would save between the looks waits for the snapshot. -/
example :
    let save := fun text => Act.save 2 "state.json" ⟨.dict [("router", .str text)], rfl⟩ (clockAt 0 0)
    let p := run (HubProcess.step .default) (.created []) ([.restart (clockAt 0 0), save "a", .enter 1,
      .snapshot 1, .look 1, .look 1, save "b"] ++ List.replicate 10 (.look 1) ++ [.leave 1, save "c"])
    (p.answers.map fun found => (buildSyncSnapshot found).revision) = [2] ∧
      p.history.revision = 3 := by
  decide +kernel

end

end LabProbe.Storage
