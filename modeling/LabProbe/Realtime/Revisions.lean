import LabProbe.Devices.Ingest
import LabProbe.Storage.Store

/-!
# Revisions over MQTT

`save_json` and `MqttRevisionPublisher`, for a publisher that is enabled. A
save holds the data lock until its revision is announced, so one announcement
is under way at a time; the callbacks of the connection run in the thread of
the client, one at a time, and greet the broker with the revision of the store.
An announcement and a greeting interleave in any order.

`handed` is what was handed to the client since the connection came up, which
is retained by the broker, and `reported` what the saves that announce have
returned. What the client does with a message is left out.
-/

namespace LabProbe.Realtime

open Py Py.Json Runs Storage

/-- How far `notify_revision` has come: the save has returned, the revision is
the latest, the connection was found up. -/
inductive Notice where
  | saved (revision : Nat)
  | latest (revision : Nat)
  | publishing (revision : Nat)
  deriving DecidableEq

inductive Greeting where
  | started
  | read (revision : Nat)
  deriving DecidableEq

structure Publisher where
  store : Store
  latestRevision : Nat
  connected : Bool := false
  notice : Option Notice := none
  greeting : Option Greeting := none
  handed : List Nat := []
  reported : List Nat := []

inductive PublisherEvent where
  | save (path : String) (data : Json) (clock : Clock)
  | note
  | look
  | publish
  | connect (failure : Bool)
  | readRevision
  | greet
  | disconnect

/-- A process that has just started. -/
def Publisher.start (store : Store) : Publisher :=
  { store, latestRevision := currentRevision store.revisions }

def announcedPaths : List String := ["state.json", "devices.json", "events.json"]

def savedDocument (path : String) (data : Json) : Json :=
  if ["state.json", "devices.json"].contains path then Devices.compact data else data

section
variable (keep : Retention) [Unicode]

def Publisher.step (s : Publisher) : PublisherEvent → Publisher
  | .save path data clock =>
    if s.notice.isSome then s  -- waits for the data lock
    else match save keep s.store path (savedDocument path data) clock with
      | none => s
      | some (revision, store) =>
        if announcedPaths.contains path then
          { s with store, notice := some (.saved revision), reported := s.reported ++ [revision] }
        else { s with store }
  | .note =>
    match s.notice with
    | some (.saved revision) =>
      if revision ≤ s.latestRevision then { s with notice := none }
      else { s with latestRevision := revision, notice := some (.latest revision) }
    | _ => s
  | .look =>
    match s.notice with
    | some (.latest revision) =>
      { s with notice := if s.connected then some (.publishing revision) else none }
    | _ => s
  | .publish =>
    match s.notice with
    | some (.publishing revision) =>
      { s with notice := none, handed := if s.connected then s.handed ++ [revision] else s.handed }
    | _ => s
  | .connect failure =>
    if s.greeting.isSome then s
    else { s with connected := !failure, handed := []
                  greeting := if failure then none else some .started }
  | .readRevision =>
    match s.greeting with
    | some .started =>
      let revision := max s.latestRevision (currentRevision s.store.revisions)
      { s with latestRevision := revision, greeting := some (.read revision) }
    | _ => s
  | .greet =>
    match s.greeting with
    | some (.read revision) => { s with greeting := none, handed := s.handed ++ [revision] }
    | _ => s
  | .disconnect => if s.greeting.isSome then s else { s with connected := false, handed := [] }

def Publisher.announcing (s : Publisher) : Option Nat :=
  match s.notice with
  | some (.latest revision) | some (.publishing revision) => some revision
  | _ => none

def Publisher.AtRest (s : Publisher) : Prop :=
  s.connected = true ∧ s.greeting = none ∧ s.announcing = none

/-- No revision is lost: what a save has reported is announced or about to be,
and at rest the latest revision was handed to the client. -/
structure Publisher.NothingLost (s : Publisher) : Prop where
  reported : ∀ revision ∈ s.reported,
    revision ≤ s.latestRevision ∨ s.notice = some (.saved revision)
  handed : ∀ revision ∈ s.handed, revision ≤ s.latestRevision
  rest : s.AtRest → s.latestRevision ∈ s.handed

/-- The broker retains the latest revision. -/
def Publisher.Retains (s : Publisher) : Prop :=
  s.AtRest → s.handed.getLast? = some s.latestRevision

/-- A greeting hands out a revision after a later one was announced. -/
def Publisher.Overtaken (s : Publisher) : PublisherEvent → Prop
  | .greet => s.announcing = none ∧
      ∃ revision, s.greeting = some (.read revision) ∧ revision < s.latestRevision
  | _ => False

-- ---------------------------------------------------------------------------
-- What a step keeps
-- ---------------------------------------------------------------------------

/-- Where a revision is on its way it is that of the store, and where the
connection is greeted with an earlier one, the latest is handed out by its save. -/
structure Publisher.Sound (s : Publisher) : Prop where
  notice : ∀ revision, s.notice = some (.saved revision) ∨ s.announcing = some revision →
    revision = currentRevision s.store.revisions
  announcing : ∀ revision, s.announcing = some revision → revision = s.latestRevision
  connected : s.greeting.isSome = true → s.connected = true
  read : ∀ revision, s.greeting = some (.read revision) → revision ≤ s.latestRevision ∧
    (revision = s.latestRevision ∨ s.announcing.isSome = true ∨ s.latestRevision ∈ s.handed)
  kept : s.NothingLost

variable {keep} {s : Publisher}

omit [Unicode] in
theorem sound_start (store : Store) : (Publisher.start store).Sound where
  notice revision h := by simp [Publisher.start, Publisher.announcing] at h
  announcing revision h := by cases h
  connected h := by cases h
  read revision h := by cases h
  kept := ⟨by simp [Publisher.start], by simp [Publisher.start], fun h => by cases h.1⟩

theorem save_revision {store store' : Store} {path : String} {data : Json} {clock : Clock}
    {revision : Nat} (h : save keep store path data clock = some (revision, store')) :
    revision = currentRevision store'.revisions := by
  unfold save at h
  split at h
  · cases h
    rfl
  · obtain ⟨rows, -, h⟩ := Option.bind_eq_some_iff.mp h
    cases h
    rfl

theorem sound_save (h : s.Sound) (path : String) (data : Json) (clock : Clock) :
    (s.step keep (.save path data clock)).Sound := by
  unfold Publisher.step
  dsimp only
  split
  · exact h
  · rename_i hidle
    have hnotice : s.notice = none := by simpa using hidle
    have hannouncing : s.announcing = none := by rw [Publisher.announcing, hnotice]
    split
    · exact h
    · rename_i revision store hsave
      obtain ⟨-, -, hconnected, hread, hreported, hhanded, hrest⟩ := h
      have hrevision := save_revision hsave
      split
      · refine ⟨?_, ?_, hconnected, ?_, ?_, hhanded, ?_⟩ <;>
          grind [Publisher.announcing, Publisher.AtRest]
      · refine ⟨?_, ?_, hconnected, ?_, ?_, hhanded, ?_⟩ <;>
          grind [Publisher.announcing, Publisher.AtRest]

/-- The three steps of `notify_revision`. A revision that becomes the latest is
announced, so that an earlier one in a greeting is made up for. -/
theorem sound_notify (h : s.Sound) :
    (s.step keep .note).Sound ∧ (s.step keep .look).Sound ∧ (s.step keep .publish).Sound := by
  obtain ⟨hnotice, hannouncing, hconnected, hread, hreported, hhanded, hrest⟩ := h
  refine ⟨?_, ?_, ?_⟩
  · unfold Publisher.step
    dsimp only
    split
    · rename_i revision hsaved
      split
      · -- an earlier revision, or the one a greeting has read, is not announced
        refine ⟨?_, ?_, hconnected, ?_, ?_, hhanded, ?_⟩ <;>
          grind [Publisher.announcing, Publisher.AtRest]
      · rename_i hlater
        have hlater : s.latestRevision < revision := Nat.lt_of_not_le hlater
        refine ⟨?_, ?_, hconnected, ?_, ?_, ?_, ?_⟩ <;>
          grind [Publisher.announcing, Publisher.AtRest]
    · exact ⟨hnotice, hannouncing, hconnected, hread, hreported, hhanded, hrest⟩
  · unfold Publisher.step
    dsimp only
    split
    · rename_i revision hlatest
      -- where the connection is down, nobody is greeting the broker
      have hgreeting : s.connected = false → s.greeting = none := fun hdown => by
        rw [hdown] at hconnected
        exact Option.not_isSome_iff_eq_none.mp fun hsome => Bool.false_ne_true (hconnected hsome)
      refine ⟨?_, ?_, hconnected, ?_, ?_, hhanded, ?_⟩ <;>
        grind [Publisher.announcing, Publisher.AtRest]
    · exact ⟨hnotice, hannouncing, hconnected, hread, hreported, hhanded, hrest⟩
  · unfold Publisher.step
    dsimp only
    split
    · rename_i revision hpublishing
      have hlatest : revision = s.latestRevision :=
        hannouncing revision (by rw [Publisher.announcing, hpublishing])
      refine ⟨?_, ?_, hconnected, ?_, ?_, ?_, ?_⟩ <;>
        grind [Publisher.announcing, Publisher.AtRest]
    · exact ⟨hnotice, hannouncing, hconnected, hread, hreported, hhanded, hrest⟩

theorem sound_readRevision (h : s.Sound) : (s.step keep .readRevision).Sound := by
  unfold Publisher.step
  dsimp only
  split
  · -- a revision that is being announced is that of the store, and stays the latest
    have hsame : ∀ revision, s.announcing = some revision →
        max s.latestRevision (currentRevision s.store.revisions) = s.latestRevision :=
      fun revision hann => by
        have hlatest := h.announcing revision hann
        have hstore := h.notice revision (.inr hann)
        omega
    obtain ⟨hnotice, hannouncing, hconnected, hread, hreported, hhanded, hrest⟩ := h
    refine ⟨?_, ?_, ?_, ?_, ?_, ?_, ?_⟩ <;> grind [Publisher.announcing, Publisher.AtRest]
  · exact h

theorem sound_greet (h : s.Sound) : (s.step keep .greet).Sound := by
  unfold Publisher.step
  dsimp only
  split
  · rename_i revision hgreeting
    obtain ⟨hle, hread⟩ := h.read revision hgreeting
    refine ⟨h.notice, h.announcing, fun hsome => (by cases hsome), fun _ hsome => (by cases hsome),
      h.kept.reported, ?_, ?_⟩
    · intro other hother
      rcases List.mem_append.mp hother with hmem | hmem
      · exact h.kept.handed other hmem
      · exact (List.mem_singleton.mp hmem).le.trans hle
    · rintro ⟨-, -, hnone⟩
      rcases hread with heq | hannounced | hhanded
      · exact List.mem_append_right _ (List.mem_singleton.mpr heq.symm)
      · change s.announcing = none at hnone
        rw [hnone] at hannounced
        cases hannounced
      · exact List.mem_append_left _ hhanded
  · exact h

theorem sound_link (h : s.Sound) (failure : Bool) :
    (s.step keep (.connect failure)).Sound ∧ (s.step keep .disconnect).Sound := by
  constructor
  · unfold Publisher.step
    dsimp only
    split
    · exact h
    · refine ⟨h.notice, h.announcing, ?_, ?_, h.kept.reported, ?_, ?_⟩ <;>
        grind [Publisher.AtRest]
  · unfold Publisher.step
    dsimp only
    split
    · exact h
    · refine ⟨h.notice, h.announcing, ?_, ?_, h.kept.reported, ?_, ?_⟩ <;>
        grind [Publisher.AtRest]

theorem sound_step (h : s.Sound) (e : PublisherEvent) : (s.step keep e).Sound := by
  cases e with
  | save path data clock => exact sound_save h path data clock
  | note => exact (sound_notify h).1
  | look => exact (sound_notify h).2.1
  | publish => exact (sound_notify h).2.2
  | connect failure => exact (sound_link h failure).1
  | readRevision => exact sound_readRevision h
  | greet => exact sound_greet h
  | disconnect => exact (sound_link h true).2

theorem retains_step_iff (h : s.Sound) (hr : s.Retains) (e : PublisherEvent) :
    (s.step keep e).Retains ↔ ¬ s.Overtaken e := by
  cases e with
  | greet =>
    unfold Publisher.Overtaken Publisher.step
    dsimp only
    split
    · rename_i revision hgreeting
      have hle := (h.read revision hgreeting).1
      have hconnected := h.connected (by rw [hgreeting]; rfl)
      simp only [hgreeting, Option.some.injEq, Greeting.read.injEq, exists_eq_left']
      constructor
      · rintro hlast ⟨hnone, hlt⟩
        have hlast := hlast ⟨hconnected, rfl, hnone⟩
        dsimp only at hlast
        rw [List.getLast?_concat] at hlast
        exact hlt.ne (Option.some.inj hlast)
      · rintro hnot ⟨-, -, hnone⟩
        have heq : revision = s.latestRevision :=
          hle.antisymm (Nat.le_of_not_lt fun hlt => hnot ⟨hnone, hlt⟩)
        dsimp only
        rw [List.getLast?_concat, heq]
    · rename_i hgreeting
      refine iff_of_true hr ?_
      rintro ⟨-, revision, hread, -⟩
      exact hgreeting revision hread
  | _ =>
    -- hands out the latest revision, or none, or leaves somebody about to
    refine iff_of_true ?_ id
    have hann := h.announcing
    unfold Publisher.step Publisher.Retains
    grind [Publisher.announcing, Publisher.AtRest, Publisher.Retains]

/-- In every run no revision is lost, and the broker retains the latest one
whenever nobody is about to announce or greet, exactly if no greeting hands out
a revision that was read before a later one was announced. -/
theorem revisions_announced (store : Store) (events : List PublisherEvent) :
    Along (Publisher.step keep) (fun s e => (s.step keep e).NothingLost) (.start store) events ∧
      (Along (Publisher.step keep) (fun s e => (s.step keep e).Retains) (.start store) events ↔
        Along (Publisher.step keep) (fun s e => ¬ s.Overtaken e) (.start store) events) := by
  have hstart := sound_start store
  have hretains : (Publisher.start store).Retains := fun h => by cases h.1
  constructor
  · exact along_of_invariant hstart (fun _ e h => sound_step h e) fun _ e h => (sound_step h e).kept
  · refine along_iff (I := fun s => s.Sound ∧ s.Retains) ⟨hstart, hretains⟩
      (fun s e h hq => ⟨sound_step h.1 e, ?_⟩) fun s e h => retains_step_iff h.1 h.2 e
    exact (retains_step_iff h.1 h.2 e).mpr hq

end

attribute [local instance] Unicode.ascii in
-- A save is announced while the broker is greeted with the revision before it.
example : (run (Publisher.step .default) (.start {}) [.connect false, .readRevision,
    .save "events.json" (.list [.dict [("id", .int 1)]]) ⟨fun _ => 0, 0, 0⟩, .note, .look, .publish,
    .greet]).handed = [1, 0] := by
  decide +kernel

end LabProbe.Realtime
