import LabProbe.Lib.Log
import LabProbe.Storage.Store

/-!
# What `changes_since` leaves out

`changes_since` compares the number a client asks about with the oldest
surviving one, and so relies on the table being the end of the log. The
theorems here read the pruning that way: the cap always leaves an end, and
the age test does when no row it drops stands behind one it keeps. A wall
clock that went back, or no commit within the age limit, breaks this, and
`changes_since` then passes over committed revisions in silence.
-/

namespace LabProbe.Storage

open Py Py.Json Logs Runs

def Revision.number (row : Revision) : Int := row.revision

-- ---------------------------------------------------------------------------
-- What a client is owed
-- ---------------------------------------------------------------------------

/-- The answer demands a full sync, or is the first page of the revisions
committed after `since`. -/
def Complete (h : History) (since limit : Int) : Prop :=
  let answer := changesSince h.store.revisions since limit
  let later := after Revision.number since h.committed
  answer.fullRequired = true ∨
    answer.changes = later.take (pageSize limit) ∧
    answer.nextRevision = some (nextNumber Revision.number since answer.changes) ∧
    answer.hasMore = decide (pageSize limit < later.length)

/-- A client that pages on from the last revision it received. -/
structure Client where
  since : Int
  received : List Revision := []
  resync : Bool := false

def Client.read (h : History) (limit : Int) (c : Client) : Client :=
  let answer := changesSince h.store.revisions c.since limit
  match answer.nextRevision with
  | none => { c with resync := true }
  | some next => { c with since := next, received := c.received ++ answer.changes }

structure Session where
  history : History
  client : Client

/-- The client reads at any time between the events of the database. -/
inductive Call where
  | commit (e : Event)
  | read (limit : Int)

section
variable (keep : Retention) [Unicode]

def Session.step (s : Session) : Call → Session
  | .commit e => { s with history := s.history.step keep e }
  | .read limit => { s with client := s.client.read s.history limit }

def Session.fresh (files : List (String × Value)) (since : Int) : Session :=
  ⟨.created files, { since := since }⟩

end

/-- Every request is answered in full, and the client that began at `start`
has every committed revision up to its own exactly once or was told to
resynchronise. -/
def Session.Sound (start : Int) (s : Session) : Prop :=
  (∀ since limit, Complete s.history since limit) ∧
    (s.client.resync = true ∨
      s.client.received =
        upTo Revision.number s.client.since (after Revision.number start s.history.committed))

-- ---------------------------------------------------------------------------
-- The log behind the table
-- ---------------------------------------------------------------------------

/-- Numbers grow along the log, none is above the sequence, and the table
holds nothing else. -/
structure Numbered (h : History) : Prop where
  ordered : Ordered Revision.number h.committed
  positive : ∀ row ∈ h.committed, 0 < row.number
  bounded : ∀ row ∈ h.committed, row.number ≤ h.store.sequence
  kept : h.store.revisions.Sublist h.committed

/-- The table is the end of the log, and not empty while the log is not. -/
def Gapless (h : History) : Prop :=
  h.store.revisions <:+ h.committed ∧ (h.committed ≠ [] → h.store.revisions ≠ [])

theorem currentRevision_ge {rows : List Revision} (ho : Ordered Revision.number rows)
    (hrow : row ∈ rows) : row.number ≤ currentRevision rows := by
  rcases List.eq_nil_or_concat' rows with rfl | ⟨rows, last, rfl⟩
  · simp at hrow
  · rcases List.mem_append.mp hrow with h | h
    · have := (List.pairwise_append.mp ho).2.2 row h last (by simp)
      simpa [currentRevision, Revision.number] using Int.le_of_lt this
    · simp [currentRevision, List.mem_singleton.mp h, Revision.number]

theorem oldestRevision_le_current {rows : List Revision} (ho : Ordered Revision.number rows) :
    oldestRevision rows ≤ currentRevision rows := by
  cases rows with
  | nil => exact Nat.le_refl _
  | cons row rows =>
    have := currentRevision_ge ho List.mem_cons_self
    simp only [Revision.number] at this
    simpa [oldestRevision] using this

variable {sequence : Nat} {clock : Clock}

theorem number_mem {rows : List ChangeRow} (h : row ∈ number sequence clock rows) :
    (sequence : Int) < row.number ∧ row.number ≤ (sequence + rows.length : Nat) := by
  obtain ⟨⟨r, i⟩, hi, rfl⟩ := List.mem_map.mp h
  obtain ⟨hlt, -⟩ := List.mem_zipIdx' hi
  simp only [Revision.number]
  omega

theorem length_number (rows : List ChangeRow) :
    (number sequence clock rows).length = rows.length := by
  simp [number]

theorem number_ordered (rows : List ChangeRow) :
    Ordered Revision.number (number sequence clock rows) := by
  rw [Ordered, number, List.pairwise_map, List.pairwise_iff_getElem]
  intro i j hi hj hij
  simp only [List.getElem_zipIdx, Revision.number]
  omega

theorem changesSince_page {rows : List Revision} {since limit : Int} (h0 : 0 ≤ since)
    (hold : oldestRevision rows ≤ since + 1) (hcur : since ≤ currentRevision rows) :
    changesSince rows since limit =
      { oldestRevision := oldestRevision rows, revision := currentRevision rows
        fromRevision := since
        nextRevision := some (nextNumber Revision.number since
          ((after Revision.number since rows).take (pageSize limit)))
        fullRequired := false
        hasMore := decide (pageSize limit < (after Revision.number since rows).length)
        changes := (after Revision.number since rows).take (pageSize limit) } := by
  have hpage : ¬ (since < 0 ∨ (0 < oldestRevision rows ∧ since < (oldestRevision rows : Int) - 1) ∨
      (currentRevision rows : Int) < since) := by omega
  rw [changesSince, if_neg hpage]
  rfl

theorem changesSince_range {rows : List Revision} {since limit : Int}
    (h : (changesSince rows since limit).fullRequired = false) :
    0 ≤ since ∧ (oldestRevision rows : Int) ≤ since + 1 ∧ since ≤ currentRevision rows := by
  rw [changesSince] at h
  split at h
  · simp at h
  · omega

theorem changesSince_full {rows : List Revision} {since limit : Int}
    (h : (changesSince rows since limit).fullRequired = true) :
    (changesSince rows since limit).nextRevision = none := by
  rw [changesSince] at h ⊢
  split
  · rfl
  · rename_i hpage
    simp [if_neg hpage] at h

theorem pageSize_pos (limit : Int) : 0 < pageSize limit := by
  simp only [pageSize]
  omega

-- ---------------------------------------------------------------------------
-- Complete answers and the end of the log
-- ---------------------------------------------------------------------------

theorem Gapless.complete (hn : Numbered h) (hg : Gapless h) (since limit : Int) :
    Complete h since limit := by
  rw [Complete]
  cases hfull : (changesSince h.store.revisions since limit).fullRequired with
  | true => exact .inl rfl
  | false =>
    right
    obtain ⟨h0, hold, hcur⟩ := changesSince_range hfull
    have hafter : after Revision.number since h.store.revisions =
        after Revision.number since h.committed := by
      cases hrows : h.store.revisions with
      | nil =>
        have hlog : h.committed = [] := Classical.byContradiction fun hne => hg.2 hne hrows
        rw [hlog]
      | cons row rows =>
        refine after_suffix hn.ordered (hrows ▸ hg.1) fun other hlt => ?_
        rw [hrows] at hold
        simp only [oldestRevision, List.head?_cons, Option.map_some, Option.getD_some] at hold
        simp only [Revision.number] at hlt ⊢
        omega
    rw [changesSince_page h0 hold hcur, hafter]
    exact ⟨rfl, rfl, rfl⟩

/-- A committed revision the table lost is missing from the answer to the
client that holds the one before it, and that client is not told. -/
theorem mem_of_complete (hn : Numbered h) (hc : ∀ since limit, Complete h since limit)
    (hrow : row ∈ h.committed) (hold : (oldestRevision h.store.revisions : Int) ≤ row.number) :
    row ∈ h.store.revisions := by
  have htable : Ordered Revision.number h.store.revisions := hn.ordered.sublist hn.kept
  have hpos := hn.positive row hrow
  have hle := oldestRevision_le_current htable
  -- the client is one short of the row, or has all the table holds
  obtain ⟨since, hsince⟩ : ∃ since, since = min (row.number - 1)
    (currentRevision h.store.revisions : Int) := ⟨_, rfl⟩
  have hpage : changesSince h.store.revisions since 1 = _ :=
    changesSince_page (by omega) (by omega) (by omega)
  rcases hc since 1 with hfull | ⟨hchanges, -, -⟩
  · simp [hpage] at hfull
  · have htake : (after Revision.number since h.store.revisions).take (pageSize 1) =
        (after Revision.number since h.committed).take (pageSize 1) := by
      rw [← hchanges, hpage]
    have hlater : row ∈ after Revision.number since h.committed := by
      simp only [after, List.mem_filter, decide_eq_true_eq]
      exact ⟨hrow, by omega⟩
    have hlog : Ordered Revision.number (after Revision.number since h.committed) :=
      hn.ordered.sublist List.filter_sublist
    cases hl : after Revision.number since h.committed with
    | nil => simp [hl] at hlater
    | cons first rest =>
      rw [hl] at htake hlater hlog
      have hfirst : first ∈ after Revision.number since h.store.revisions := by
        refine List.mem_of_mem_take (i := pageSize 1) ?_
        rw [htake]
        exact List.mem_take_iff_getElem.mpr ⟨0, by simp [pageSize_pos], rfl⟩
      obtain ⟨hmem, hgt⟩ := List.mem_filter.mp hfirst
      have hcur := currentRevision_ge htable hmem
      have hhead := hlog.head_le hlater
      have heq : first.number = row.number := by
        simp only [decide_eq_true_eq] at hgt
        omega
      exact hn.ordered.inj (hn.kept.subset hmem) hrow heq ▸ hmem

theorem complete_iff (hn : Numbered h) :
    (∀ since limit, Complete h since limit) ↔ Gapless h := by
  refine ⟨fun hc => ?_, fun hg => hg.complete hn⟩
  cases hrows : h.store.revisions with
  | nil =>
    have hlog : h.committed = [] := by
      rw [List.eq_nil_iff_forall_not_mem]
      intro row hrow
      have hpos := hn.positive row hrow
      have := mem_of_complete hn hc hrow (by simp [hrows, oldestRevision]; omega)
      simp [hrows] at this
    exact ⟨hrows ▸ List.nil_suffix, fun hne => absurd hlog hne⟩
  | cons row rows =>
    refine ⟨hrows ▸ suffix_of_complete hn.ordered (hrows ▸ hn.kept) fun other hmem hle => ?_,
      fun _ => by simp [hrows]⟩
    rw [← hrows]
    refine mem_of_complete hn hc hmem ?_
    simpa [hrows, oldestRevision, Revision.number] using hle

-- ---------------------------------------------------------------------------
-- Steps
-- ---------------------------------------------------------------------------

section
variable (keep : Retention) [Unicode]

def Event.wall : Event → Int
  | .save _ _ clock => clock.wall
  | .restart clock => clock.wall

/-- Whether the event prunes: a restart does, a save where it changes the
stored text, does not raise and the interval has passed. -/
def Event.prunes (s : Store) : Event → Bool
  | .save key value clock =>
    !decide (Dict.get? s.documents key = some value.val.sort) &&
      (changesForDocument key (s.document key) value).isSome && pruneDue keep s clock false
  | .restart _ => true

/-- Where the event prunes, some row passes the age test, and every row
behind one that passes and is within the cap passes too. -/
def KeepsRecent (h : History) (e : Event) : Prop :=
  e.prunes keep h.store = true →
    KeepsEnd (isYoung keep e.wall) keep.maxRows (h.store.revisions ++ e.rows h.store) ∧
      (h.store.revisions ++ e.rows h.store ≠ [] →
        ∃ row ∈ h.store.revisions ++ e.rows h.store, isYoung keep e.wall row = true)

omit [Unicode] in
theorem cappedRows_eq {rows : List Revision} (ho : Ordered Revision.number rows) :
    cappedRows keep rows = cap keep.maxRows rows := by
  have hmin := keep.maxRows_min
  rw [cappedRows]
  cases hcut : rows.reverse[keep.maxRows - 1]? with
  | some cutoff =>
    rw [← filter_cutoff ho (by omega) hcut]
    simp only [Revision.number, Int.ofNat_le]
  | none =>
    rw [List.getElem?_eq_none_iff, List.length_reverse] at hcut
    rw [cap, Nat.sub_eq_zero_of_le (by omega), List.drop_zero]

theorem rows_mem {s : Store} {e : Event} (h : row ∈ e.rows s) :
    (s.sequence : Int) < row.number ∧ row.number ≤ (s.sequence + (e.rows s).length : Nat) := by
  cases e with
  | save key value clock =>
    simp only [Event.rows, saveRows] at h ⊢
    split at h
    · simp at h
    · rename_i hne
      cases hc : changesForDocument key (s.document key) value with
      | none => simp [hc] at h
      | some rows =>
        simp only [hc, Option.map_some, Option.getD_some] at h
        simpa [hne, hc, length_number] using number_mem h
  | restart clock =>
    simp only [Event.rows, openRows] at h ⊢
    split at h
    · rename_i he
      simpa [he, length_number] using number_mem h
    · simp at h

theorem rows_ordered (s : Store) (e : Event) : Ordered Revision.number (e.rows s) := by
  cases e with
  | save key value clock =>
    simp only [Event.rows, saveRows]
    split
    · exact List.Pairwise.nil
    · cases changesForDocument key (s.document key) value with
      | none => exact List.Pairwise.nil
      | some rows => exact number_ordered rows
  | restart clock =>
    simp only [Event.rows, openRows]
    split
    · exact number_ordered _
    · exact List.Pairwise.nil

omit [Unicode] in
theorem prune_sequence (s : Store) (clock : Clock) (force : Bool) :
    (prune keep s clock force).sequence = s.sequence := by
  rw [prune]
  split <;> rfl

omit [Unicode] in
theorem prune_revisions (s : Store) (clock : Clock) (force : Bool) :
    (prune keep s clock force).revisions =
      if pruneDue keep s clock force then cappedRows keep (youngRows keep clock.wall s.revisions)
      else s.revisions := by
  rw [prune]
  split <;> rfl

theorem apply_spec (s : Store) (e : Event) :
    (e.apply keep s).sequence = s.sequence + (e.rows s).length ∧
      (e.apply keep s).revisions =
        if e.prunes keep s then
          cappedRows keep (youngRows keep e.wall (s.revisions ++ e.rows s))
        else s.revisions ++ e.rows s := by
  cases e with
  | save key value clock =>
    simp only [Event.apply, Event.rows, Event.prunes, Event.wall, Storage.save, saveRows]
    by_cases htext : Dict.get? s.documents key = some value.val.sort
    · simp [htext]
    · simp only [if_neg htext, decide_eq_false htext]
      cases changesForDocument key (s.document key) value with
      | none => simp
      | some rows => simp [prune_sequence, prune_revisions, insertRows, pruneDue]
  | restart clock =>
    simp [Event.apply, Event.rows, Event.prunes, Event.wall, openStore, prune, pruneDue, insertRows]

variable {keep} {h : History} {e : Event}

theorem Numbered.append (hn : Numbered h) (e : Event) :
    Ordered Revision.number (h.committed ++ e.rows h.store) ∧
      (h.store.revisions ++ e.rows h.store).Sublist (h.committed ++ e.rows h.store) := by
  refine ⟨List.pairwise_append.mpr ⟨hn.ordered, rows_ordered _ e, fun row hrow new hnew => ?_⟩,
    hn.kept.append_right _⟩
  exact Int.lt_of_le_of_lt (hn.bounded row hrow) (rows_mem hnew).1

theorem step_revisions (hn : Numbered h) (e : Event) :
    (h.step keep e).store.revisions =
      if e.prunes keep h.store then
        cap keep.maxRows ((h.store.revisions ++ e.rows h.store).filter (isYoung keep e.wall))
      else h.store.revisions ++ e.rows h.store := by
  obtain ⟨ho, hs⟩ := hn.append e
  have hyoung : Ordered Revision.number
      (youngRows keep e.wall (h.store.revisions ++ e.rows h.store)) :=
    (ho.sublist hs).sublist List.filter_sublist
  rw [History.step, (apply_spec keep h.store e).2, cappedRows_eq keep hyoung, youngRows]

theorem Numbered.step (hn : Numbered h) : Numbered (h.step keep e) := by
  obtain ⟨ho, hs⟩ := hn.append e
  refine ⟨ho, fun row hrow => ?_, fun row hrow => ?_, ?_⟩
  · rcases List.mem_append.mp hrow with hrow | hrow
    · exact hn.positive row hrow
    · exact Int.lt_of_le_of_lt (Int.natCast_nonneg _) (rows_mem hrow).1
  · rw [History.step, (apply_spec keep h.store e).1]
    rcases List.mem_append.mp hrow with hrow | hrow
    · exact Int.le_trans (hn.bounded row hrow) (by omega)
    · exact (rows_mem hrow).2
  · rw [step_revisions hn]
    split
    · exact ((cap_suffix _ _).sublist.trans List.filter_sublist).trans hs
    · exact hs

/-- One event keeps the table the end of the log exactly when it prunes only
rows behind which it keeps none, and not the newest. -/
theorem gapless_step_iff (hn : Numbered h) (hg : Gapless h) :
    Gapless (h.step keep e) ↔ KeepsRecent keep h e := by
  have hrows : h.store.revisions ++ e.rows h.store <:+ (h.step keep e).committed :=
    List.suffix_append_self_iff.mpr hg.1
  have hnodup : (h.store.revisions ++ e.rows h.store).Nodup :=
    ((hn.append e).1.sublist (hn.append e).2).nodup
  have hempty : (h.step keep e).committed ≠ [] → h.store.revisions ++ e.rows h.store ≠ [] := by
    simp only [History.step, ne_eq, List.append_eq_nil_iff, not_and]
    intro hne hrev
    exact hne (Classical.byContradiction fun hc => hg.2 hc hrev)
  rw [Gapless, step_revisions hn, KeepsRecent]
  cases e.prunes keep h.store with
  | false => exact ⟨fun _ h => (nomatch h), fun _ => ⟨hrows, hempty⟩⟩
  | true =>
    rw [if_pos rfl, forall_prop_of_true rfl]
    generalize h.store.revisions ++ e.rows h.store = rows at *
    have hend : cap keep.maxRows (rows.filter (isYoung keep e.wall)) <:+ (h.step keep e).committed ↔
        cap keep.maxRows (rows.filter (isYoung keep e.wall)) <:+ rows := by
      refine ⟨fun hc => List.suffix_of_suffix_length_le hc hrows ?_, fun hc => hc.trans hrows⟩
      exact ((cap_suffix _ _).sublist.trans List.filter_sublist).length_le
    rw [hend]
    by_cases hnil : rows = []
    · have hlog : (h.step keep e).committed = [] :=
        Classical.byContradiction fun hc => hempty hc hnil
      simp [hnil, hlog, cap, KeepsEnd]
    · have hlog : (h.step keep e).committed ≠ [] := fun hc => by simp [hc, hnil] at hrows
      have hmin := keep.maxRows_min
      simpa [hnil, hlog] using cap_filter_suffix_iff hnodup (by omega)

-- ---------------------------------------------------------------------------
-- Sessions
-- ---------------------------------------------------------------------------

/-- The client that began at `start` never runs ahead of the log. -/
structure Reader (start : Int) (s : Session) : Prop where
  began : start ≤ s.client.since
  behind : s.client.since = start ∨ s.client.since ≤ s.history.store.sequence
  read : s.client.resync = true ∨ s.client.received =
    upTo Revision.number s.client.since (after Revision.number start s.history.committed)

theorem Reader.commit (hr : Reader start s) (e : Event) :
    Reader start (s.step keep (.commit e)) := by
  have hseq := (apply_spec keep s.history.store e).1
  refine ⟨hr.began, hr.behind.imp_right fun h => ?_, hr.read.imp_right fun h => ?_⟩
  · simp only [Session.step, History.step, hseq]
    omega
  · have hnew : upTo Revision.number s.client.since
        (after Revision.number start (e.rows s.history.store)) = [] := by
      rw [upTo, List.filter_eq_nil_iff]
      intro row hrow
      obtain ⟨hmem, hgt⟩ := List.mem_filter.mp hrow
      have hlow := (rows_mem hmem).1
      have := hr.behind
      simp only [decide_eq_true_eq] at hgt ⊢
      omega
    simp only [Session.step, History.step, after_append, upTo_append, hnew, List.append_nil]
    exact h

theorem Reader.page (hn : Numbered s.history) (hg : Gapless s.history) (hr : Reader start s)
    (limit : Int) : Reader start (s.step keep (.read limit)) := by
  have hcomplete := hg.complete hn s.client.since limit
  rw [Complete] at hcomplete
  simp only [Session.step]
  rcases hcomplete with hfull | ⟨hchanges, hnext, -⟩
  · simp only [Client.read, changesSince_full hfull]
    exact ⟨hr.began, hr.behind, .inl rfl⟩
  · have habove : ∀ row ∈ (after Revision.number s.client.since s.history.committed).take
        (pageSize limit), s.client.since < row.number := fun row hrow => by
      simpa using (List.mem_filter.mp (List.mem_of_mem_take hrow)).2
    simp only [Client.read, hnext]
    rw [hchanges]
    refine ⟨Int.le_trans hr.began (le_nextNumber habove), ?_, hr.read.imp_right fun h => ?_⟩
    · rcases nextNumber_cases s.client.since ((after Revision.number s.client.since
        s.history.committed).take (pageSize limit)) with heq | ⟨row, hrow, heq⟩
      · exact hr.behind.imp (heq.trans ·) (Int.le_trans (Int.le_of_eq heq) ·)
      · have hmem := List.mem_of_mem_filter (List.mem_of_mem_take hrow)
        exact .inr (heq ▸ hn.bounded row hmem)
    · rw [h]
      exact upTo_append_page hn.ordered hr.began _

/-- What the sessions keep while every event keeps the newest rows. -/
structure Session.Kept (start : Int) (s : Session) : Prop where
  numbered : Numbered s.history
  gapless : Gapless s.history
  reader : Reader start s

/-- The condition on a call: none on a read. -/
def Call.KeepsRecent (keep : Retention) (h : History) : Call → Prop
  | .commit e => Storage.KeepsRecent keep h e
  | .read _ => True

theorem Session.Kept.step (hk : Session.Kept start s) (hc : call.KeepsRecent keep s.history) :
    Session.Kept start (s.step keep call) := by
  cases call with
  | commit e =>
    exact ⟨hk.numbered.step, (gapless_step_iff hk.numbered hk.gapless).mpr hc, hk.reader.commit e⟩
  | read limit => exact ⟨hk.numbered, hk.gapless, hk.reader.page hk.numbered hk.gapless limit⟩

omit [Unicode] in
theorem Session.Kept.sound (hk : Session.Kept start s) : s.Sound start :=
  ⟨(complete_iff hk.numbered).mpr hk.gapless, hk.reader.read⟩

theorem Session.Kept.sound_step_iff (hk : Session.Kept start s) (call : Call) :
    (s.step keep call).Sound start ↔ call.KeepsRecent keep s.history := by
  refine ⟨fun hs => ?_, fun hc => (hk.step hc).sound⟩
  cases call with
  | commit e =>
    exact (gapless_step_iff hk.numbered hk.gapless).mp ((complete_iff hk.numbered.step).mp hs.1)
  | read limit => exact trivial

omit [Unicode] in
theorem numbered_created (files : List (String × Value)) : Numbered (.created files) :=
  ⟨List.Pairwise.nil, by simp [History.created], by simp [History.created], List.Sublist.refl _⟩

omit [Unicode] in
theorem Session.kept_fresh (files : List (String × Value)) (start : Int) :
    Session.Kept start (Session.fresh files start) where
  numbered := numbered_created files
  gapless := ⟨List.suffix_rfl, fun h => absurd rfl h⟩
  reader := ⟨Int.le_refl _, .inl rfl, .inr rfl⟩

/-- Every request made in a run, at any point and from any number, is
answered in full, and every client that pages through the run is told to
resynchronise or receives each committed revision once, exactly in the runs
whose prunings keep the recent rows. -/
theorem changesSince_complete_iff (keep : Retention) (files : List (String × Value)) (start : Int)
    (calls : List Call) :
    Along (Session.step keep) (fun s call => (s.step keep call).Sound start)
        (Session.fresh files start) calls ↔
      Along (Session.step keep) (fun s call => call.KeepsRecent keep s.history)
        (Session.fresh files start) calls :=
  along_iff (Session.kept_fresh files start) (fun _ _ hk hc => hk.step hc)
    fun _ call hk => hk.sound_step_iff call

end

def clockAt (wall monotonic : Int) : Clock := ⟨fun _ => wall, wall, monotonic⟩

def saveText (text : String) (clock : Clock) : Call :=
  .commit (.save "portmaps.json" ⟨.str text, rfl⟩ clock)

/-- The clock is ten days ahead at the first save and right at the next two,
three days apart. The last save prunes the row of the second, which stands
between rows it keeps. -/
def driftedCalls : List Call :=
  [.commit (.restart (clockAt 0 0)), saveText "a" (clockAt 864000 1), .read 500,
    saveText "b" (clockAt 0 2), saveText "c" (clockAt 259200 259202), .read 500]

/-- The client receives revisions 1, 2 and 4 and is told nothing. -/
theorem changesSince_skips_pruned :
    ¬ (run (@Session.step .default .ascii) (Session.fresh [] 0) driftedCalls).Sound 0 := by
  intro h
  exact absurd h.2 (by decide)

end LabProbe.Storage
