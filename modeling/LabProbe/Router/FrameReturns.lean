import LabProbe.Router.Receiver

/-!
# Frames that the receiver takes

A look-up gives what comes first in the frame, or raises where it has to nest
deeper than the stack. So a fast frame is read exactly when no look-up does and
nothing it takes as a count is an infinity or NaN; the text of a frame decides
whether the login is taken for lost.
-/

namespace LabProbe.Router

open Py Py.Json

variable {keys : List String} {room : Nat} {d message : Entries} {value : Option Json} {s : Monitor}

-- ---------------------------------------------------------------------------
-- Calls that raise
-- ---------------------------------------------------------------------------

/-- A call that gives `a` where `P` holds, and raises elsewhere. -/
structure Gives {α : Type} (x : Except Raised α) (P : Prop) (a : α) : Prop where
  ok : P → x = .ok a
  error : ¬ P → ∃ e, x = .error e

namespace Gives

variable {α β : Type} {x : Except Raised α} {f : α → Except Raised β} {P Q : Prop} {a : α} {b : β}

theorem returns_iff (h : Gives x P a) : (∃ a, x = .ok a) ↔ P := by
  constructor
  · rintro ⟨a', ha⟩
    by_contra hP
    obtain ⟨e, he⟩ := h.error hP
    rw [ha] at he
    nomatch he
  · exact fun hP => ⟨a, h.ok hP⟩

theorem pure (a : α) : Gives (.ok a) True a := ⟨fun _ => rfl, fun h => absurd trivial h⟩

theorem congr (h : Gives x P a) (hPQ : P ↔ Q) : Gives x Q a := by rwa [← hPQ]

theorem bind (h : Gives x P a) (hf : P → Gives (f a) Q b) : Gives (x >>= f) (P ∧ Q) b := by
  constructor
  · rintro ⟨hP, hQ⟩
    rw [h.ok hP]
    exact (hf hP).ok hQ
  · intro hnot
    by_cases hP : P
    · obtain ⟨e, he⟩ := (hf hP).error fun hQ => hnot ⟨hP, hQ⟩
      exact ⟨e, by rw [h.ok hP]; exact he⟩
    · obtain ⟨e, he⟩ := h.error hP
      exact ⟨e, by rw [he]; rfl⟩

theorem map (h : Gives x P a) (g : α → β) : Gives (x >>= fun a => Pure.pure (g a)) P (g a) :=
  (h.bind fun _ => pure (g a)).congr (iff_of_eq (and_true P))

end Gives

-- ---------------------------------------------------------------------------
-- Look-ups
-- ---------------------------------------------------------------------------

mutual
/-- The first value under one of the keys, in the order of the text. -/
def found (keys : List String) : Json → Option Json
  | .dict d => (keyed keys d).or (foundEntries keys d)
  | .list xs => foundItems keys xs
  | _ => none
def foundItems (keys : List String) : List Json → Option Json
  | [] => none
  | x :: xs => (found keys x).or (foundItems keys xs)
def foundEntries (keys : List String) : List (String × Json) → Option Json
  | [] => none
  | (_, x) :: d => (found keys x).or (foundEntries keys d)
end

mutual
/-- How deep the calls of a look-up are nested. -/
def reach (keys : List String) : Json → Nat
  | .dict d => if (keyed keys d).isSome then 1 else reachEntries keys d + 1
  | .list xs => reachItems keys xs + 1
  | _ => 1
def reachItems (keys : List String) : List Json → Nat
  | [] => 0
  | x :: xs => if (found keys x).isSome then reach keys x else max (reach keys x) (reachItems keys xs)
def reachEntries (keys : List String) : List (String × Json) → Nat
  | [] => 0
  | (_, x) :: d =>
    if (found keys x).isSome then reach keys x else max (reach keys x) (reachEntries keys d)
end

theorem firstFound_items {xs : List Json} (ih : ∀ x ∈ xs, ∀ room, lookupRecursive keys room x =
      if reach keys x ≤ room then .ok (found keys x) else .error .recursion) :
    firstFound (lookupRecursive keys room) xs =
      if reachItems keys xs ≤ room then .ok (foundItems keys xs) else .error .recursion := by
  induction xs with
  | nil => simp [firstFound, reachItems, foundItems]
  | cons x xs ihl =>
    obtain ⟨hx, hxs⟩ := List.forall_mem_cons.mp ih
    rw [firstFound, hx room, reachItems, foundItems]
    cases hfound : found keys x with
    | some value => split <;> simp_all [bind, Except.bind]
    | none =>
      by_cases hreach : reach keys x ≤ room
      · simp [hreach, bind, Except.bind, ihl hxs]
      · simp [hreach, bind, Except.bind]

theorem reachEntries_eq (d : Entries) : reachEntries keys d = reachItems keys (d.map Prod.snd) := by
  induction d with
  | nil => rfl
  | cons e d ih => simp [reachEntries, reachItems, ih]

theorem foundEntries_eq (d : Entries) : foundEntries keys d = foundItems keys (d.map Prod.snd) := by
  induction d with
  | nil => rfl
  | cons e d ih => simp [foundEntries, foundItems, ih]

/-- A look-up gives what comes first, if the stack has place for its calls. -/
theorem lookupRecursive_eq (keys : List String) (room : Nat) (value : Json) :
    lookupRecursive keys room value =
      if reach keys value ≤ room then .ok (found keys value) else .error .recursion := by
  induction value using Json.induct generalizing room with
  | list xs ih =>
    cases room with
    | zero => simp [lookupRecursive, reach]
    | succ room => simp [lookupRecursive, reach, found, firstFound_items ih]
  | dict d ih =>
    cases room with
    | zero =>
      have hreach : ¬ reach keys (.dict d) ≤ 0 := by
        rw [reach]
        split <;> omega
      rw [if_neg hreach, lookupRecursive]
    | succ room =>
      rw [lookupRecursive, reach, found]
      cases keyed keys d with
      | some value => simp
      | none =>
        have ih' : ∀ x ∈ d.map Prod.snd, ∀ room, lookupRecursive keys room x =
            if reach keys x ≤ room then .ok (found keys x) else .error .recursion := by
          intro x hx
          obtain ⟨e, he, rfl⟩ := List.mem_map.mp hx
          exact ih e.1 e.2 he
        simp [firstFound_items ih', reachEntries_eq, foundEntries_eq]
  | _ => cases room <;> simp [lookupRecursive, reach, found]

theorem gives_lookup (keys : List String) (room : Nat) (value : Json) :
    Gives (lookupRecursive keys room value) (reach keys value ≤ room) (found keys value) := by
  rw [lookupRecursive_eq]
  exact ⟨fun h => if_pos h, fun h => ⟨_, if_neg h⟩⟩

theorem gives_collect {α : Type} {read : String × List String → Except Raised (Option α)}
    {P : String × List String → Prop} {g : String × List String → Option α}
    (h : ∀ field, Gives (read field) (P field) (g field)) (fields : List (String × List String)) :
    Gives (collect read fields) (∀ field ∈ fields, P field)
      (fields.filterMap fun field => (g field).map (field.1, ·)) := by
  induction fields with
  | nil => exact (Gives.pure _).congr (by simp)
  | cons field fields ih =>
    rw [collect, List.filterMap_cons]
    refine Gives.congr ((h field).bind fun _ => ih.bind (Q := True) fun _ => ?_) (by simp)
    cases g field with
    | some value => exact Gives.pure _
    | none => exact Gives.pure _

-- ---------------------------------------------------------------------------
-- Counts
-- ---------------------------------------------------------------------------

section
variable [Unicode]

/-- The value is not read as an infinity or NaN. -/
def Countable (value : Option Json) : Prop := ∀ x, number value = some x → ∃ q, x = .finite q

def count (value : Option Json) : Option Int :=
  match number value with
  | some (.finite q) => some (max 0 (truncate q))
  | _ => none

theorem gives_integer (value : Option Json) : Gives (integer value) (Countable value) (count value) := by
  unfold integer count Countable
  cases h : number value with
  | none => exact (Gives.pure none).congr (by simp)
  | some x =>
    cases x with
    | finite q => exact (Gives.pure _).congr (by simp)
    | infinite minus => exact ⟨fun hq => by simpa using hq _ rfl, fun _ => ⟨_, rfl⟩⟩
    | nan => exact ⟨fun hq => by simpa using hq _ rfl, fun _ => ⟨_, rfl⟩⟩

/-- The stack has place for the look-up, and what it finds is countable. -/
def Read (room : Nat) (keys : List String) (value : Json) : Prop :=
  reach keys value ≤ room ∧ Countable (found keys value)

theorem gives_count (keys : List String) (room : Nat) (value : Json) :
    Gives (lookupRecursive keys room value >>= integer) (Read room keys value)
      (count (found keys value)) :=
  (gives_lookup keys room value).bind fun _ => gives_integer _

/-- The sum of the rows that have a number under one of the keys. -/
def total (keys : List String) : Option Int → List Entries → Option Int
  | sum, [] => sum
  | sum, row :: rows =>
    match count (found keys (.dict row)) with
    | some n => total keys (some (sum.getD 0 + n)) rows
    | none => total keys sum rows

theorem gives_rowTotal (keys : List String) (room : Nat) (sum : Option Int) (rows : List Entries) :
    Gives (rowTotal room keys sum rows) (∀ row ∈ rows, Read room keys (.dict row))
      (total keys sum rows) := by
  induction rows generalizing sum with
  | nil => exact (Gives.pure _).congr (by simp)
  | cons row rows ih =>
    have hrest : Gives (match count (found keys (.dict row)) with
        | some n => rowTotal room keys (some (sum.getD 0 + n)) rows
        | none => rowTotal room keys sum rows)
        (∀ row ∈ rows, Read room keys (.dict row)) (total keys sum (row :: rows)) := by
      rw [total]
      cases count (found keys (.dict row)) with
      | some n => exact ih _
      | none => exact ih _
    have hboth : Gives ((lookupRecursive keys room (.dict row) >>= integer) >>= fun n =>
        match n with
        | some n => rowTotal room keys (some (sum.getD 0 + n)) rows
        | none => rowTotal room keys sum rows)
        (Read room keys (.dict row) ∧ ∀ row ∈ rows, Read room keys (.dict row))
        (total keys sum (row :: rows)) :=
      (gives_count keys room (.dict row)).bind fun _ => hrest
    rw [bind_assoc] at hboth
    exact hboth.congr (by simp)

def totals (rows : List Entries) : Entries :=
  fastWanIntFields.filterMap fun field => (total field.2 none rows).map fun n => (field.1, .int n)

theorem gives_sumWanRows (room : Nat) (rows : List Entries) :
    Gives (sumWanRows room rows)
      (∀ field ∈ fastWanIntFields, ∀ row ∈ rows, Read room field.2 (.dict row)) (totals rows) := by
  have hcollect := gives_collect (fun field => gives_rowTotal field.2 room none rows) fastWanIntFields
  have htotals : totals rows = (fastWanIntFields.filterMap fun field =>
      (total field.2 none rows).map (field.1, ·)).map fun e => (e.1, .int e.2) := by
    simp [totals, List.map_filterMap, Function.comp_def]
  rw [htotals]
  exact hcollect.map _

def wanRows : Json → List Entries
  | .dict d => if isWan d then [] else d.filterMap fun e => e.2.dict?
  | .list xs => xs.filterMap dict?
  | _ => []

def aggregate : Json → Entries
  | .dict d =>
    if isWan d then d
    else
      let rows := d.filterMap fun e => e.2.dict?
      if rows.isEmpty then d else totals rows
  | .list xs => totals (xs.filterMap dict?)
  | _ => []

theorem gives_aggregateWan (room : Nat) (value : Json) :
    Gives (aggregateWan room value)
      (∀ field ∈ fastWanIntFields, ∀ row ∈ wanRows value, Read room field.2 (.dict row))
      (aggregate value) := by
  cases value with
  | dict d =>
    simp only [aggregateWan, wanRows, aggregate]
    split
    · exact (Gives.pure d).congr (by simp)
    · split
      · rename_i hrows
        rw [List.isEmpty_iff.mp hrows]
        exact (Gives.pure d).congr (by simp)
      · exact gives_sumWanRows room _
  | list xs => exact gives_sumWanRows room _
  | _ => exact (Gives.pure []).congr (by simp [wanRows])

def wanValue (root : Json) (aggregate : Entries) (field : String × List String) : Option Json :=
  (Dict.get? aggregate field.1).or
    ((found field.2 (.dict aggregate)).or (found field.2 root))

/-- The stack has place for the look-ups that are made for a field. -/
def WanReached (room : Nat) (root : Json) (aggregate : Entries) (field : String × List String) :
    Prop :=
  Dict.get? aggregate field.1 = none → reach field.2 (.dict aggregate) ≤ room ∧
    (found field.2 (.dict aggregate) = none → reach field.2 root ≤ room)

omit [Unicode] in
theorem gives_wanField (room : Nat) (root : Json) (aggregate : Entries)
    (field : String × List String) :
    Gives (wanField room root aggregate field) (WanReached (room + 2) root aggregate field)
      (wanValue root aggregate field) := by
  unfold wanField WanReached wanValue
  cases Dict.get? aggregate field.1 with
  | some value => exact (Gives.pure (some value)).congr (by simp)
  | none =>
    have hlookup := gives_lookup field.2 (room + 2) (.dict aggregate)
    refine (hlookup.bind (Q := found field.2 (.dict aggregate) = none →
      reach field.2 root ≤ room + 2) fun _ => ?_).congr (by simp)
    cases found field.2 (.dict aggregate) with
    | some value => exact (Gives.pure (some value)).congr (by simp)
    | none => exact (gives_lookup field.2 (room + 2) root).congr (by simp)

-- ---------------------------------------------------------------------------
-- Fast frames
-- ---------------------------------------------------------------------------

def wanStat (root : Json) : Entries :=
  asDict ((found ["wan_stat", "wanStat", "wanStatus"] root).getD .null)

/-- Each look-up in the frame nests no deeper than the stack, and nothing that is
taken as a count is an infinity or NaN. -/
structure Readable (room : Nat) (root : Json) : Prop where
  stat : reach ["wan_stat", "wanStat", "wanStatus"] root ≤ room + 1
  rows : ∀ field ∈ fastWanIntFields, ∀ row ∈ wanRows (wansOf (wanStat root)),
    Read room field.2 (.dict row)
  wan : ∀ field ∈ fastWanIntFields,
    WanReached (room + 2) root (aggregate (wansOf (wanStat root))) field ∧
      Countable (wanValue root (aggregate (wansOf (wanStat root))) field)
  counts : ∀ field ∈ fastRootIntFields, Read (room + 2) field.2 root
  numbers : ∀ field ∈ fastRootNumberFields, reach field.2 root ≤ room + 2

def sample (root : Json) : List (String × Reading) :=
  let wan := fastWanIntFields.filterMap fun field =>
    (count (wanValue root (aggregate (wansOf (wanStat root))) field)).map (field.1, ·)
  let counts := fastRootIntFields.filterMap fun field =>
    (count (found field.2 root)).map (field.1, ·)
  let numbers := fastRootNumberFields.filterMap fun field =>
    (number (found field.2 root)).map (field.1, ·)
  (wan ++ counts).map (fun e => (e.1, .int e.2)) ++ numbers.map fun e => (e.1, .number e.2)

theorem gives_normalizeFastMessage (room : Nat) (message : Entries) :
    Gives (normalizeFastMessage room message) (Readable room (messagePayload message))
      (sample (messagePayload message)) := by
  unfold normalizeFastMessage
  generalize messagePayload message = root
  have hstat := (gives_lookup ["wan_stat", "wanStat", "wanStatus"] (room + 1) root).map
    fun value => asDict (value.getD .null)
  have hwan := gives_collect
    (fun field => (gives_wanField room root (aggregate (wansOf (wanStat root))) field).bind
      fun _ => gives_integer _) fastWanIntFields
  have hcounts := gives_collect (fun field => gives_count field.2 (room + 2) root) fastRootIntFields
  have hnumbers := gives_collect
    (fun field => (gives_lookup field.2 (room + 2) root).map number) fastRootNumberFields
  refine Gives.congr (hstat.bind fun _ => (gives_aggregateWan room (wansOf (wanStat root))).bind
    fun _ => hwan.bind fun _ => hcounts.bind fun _ => hnumbers.map _) ?_
  constructor
  · rintro ⟨hstat, hrows, hwan, hcounts, hnumbers⟩
    exact ⟨hstat, hrows, hwan, hcounts, hnumbers⟩
  · rintro ⟨hstat, hrows, hwan, hcounts, hnumbers⟩
    exact ⟨hstat, hrows, hwan, hcounts, hnumbers⟩

-- ---------------------------------------------------------------------------
-- Frames
-- ---------------------------------------------------------------------------

/-- None of the fields for a status is a refusal. -/
def Accepted (message : Entries) : Prop :=
  ∀ key ∈ ["status", "code", "rcode", "errCode"],
    strip (get message key).toStr ∉ ["401", "403"]

omit [Unicode] in
theorem or_cases (a b : Json) : a.or b = a ∨ a.or b = b := by
  unfold Json.or
  split
  · exact .inl rfl
  · exact .inr rfl

instance : Decidable (Accepted message) := List.decidableBAll _ _

theorem messageStatus_accepted (h : Accepted message) : messageStatus message ∉ ["401", "403"] := by
  simp only [Accepted, List.forall_mem_cons, List.not_mem_nil, false_implies, implies_true,
    and_true] at h
  obtain ⟨hstatus, hcode, hrcode, herrCode⟩ := h
  have hnone : strip (Json.str "").toStr ∉ ["401", "403"] := by simp [toStr, strip]
  unfold messageStatus
  rcases or_cases ((((get message "status").or (get message "code")).or (get message "rcode")).or
    (get message "errCode")) (.str "") with heq | heq <;> rw [heq]
  · rcases or_cases (((get message "status").or (get message "code")).or (get message "rcode"))
      (get message "errCode") with heq | heq <;> rw [heq]
    · rcases or_cases ((get message "status").or (get message "code")) (get message "rcode")
        with heq | heq <;> rw [heq]
      · rcases or_cases (get message "status") (get message "code") with heq | heq <;> rw [heq]
        · exact hstatus
        · exact hcode
      · exact hrcode
    · exact herrCode
  · exact hnone

/-- The receiver takes the frame for the loss of the login, from its words. -/
def SpeaksOfRefusal (message : Entries) : Prop :=
  mentions loginWords message = true ∧ mentions refusalWords message = true

theorem isAuthInvalid_iff (h : Accepted message) :
    isAuthInvalid message = true ↔ SpeaksOfRefusal message := by
  have hstatus : ["401", "403"].contains (messageStatus message) = false := by
    simpa using messageStatus_accepted h
  rw [isAuthInvalid, hstatus, Bool.false_or, Bool.and_eq_true, SpeaksOfRefusal]

/-- The text of the frame does not have a word of a login with a word of a refusal
and, if the frame is a fast one, the look-ups in it can be made. -/
def Taken (room : Nat) (message : Entries) : Prop :=
  ¬ SpeaksOfRefusal message ∧
    (messageType message = "fast" → Readable room (messagePayload message))

/-- The receiver after a frame that it takes. -/
def Monitor.received (s : Monitor) (message : Entries) : Monitor :=
  if messageType message = "fast" then s.storeFast message (sample (messagePayload message))
  else s.putLowFrequency message

theorem gives_dispatchMessage (room : Nat) (s : Monitor)
    (htype : messageType message ∈ wsMessageTypes) (haccepted : Accepted message) :
    Gives (dispatchMessage room s message) (Taken room message) (s.received message) := by
  have hne : messageType message ≠ "" := by
    rintro h
    simp [h, wsMessageTypes] at htype
  unfold dispatchMessage Taken Monitor.received
  rw [if_neg hne]
  split
  · rename_i hwords
    rw [isAuthInvalid_iff haccepted] at hwords
    exact ⟨fun h => absurd hwords h.1, fun _ => ⟨_, rfl⟩⟩
  · rename_i hwords
    rw [isAuthInvalid_iff haccepted] at hwords
    split
    · rename_i hfast
      exact ((gives_normalizeFastMessage room message).map (s.storeFast message)).congr
        (by simp [hwords, hfast])
    · rename_i hslow
      exact (Gives.pure _).congr (by simp [hwords, hslow])

/-- A recognised frame without a refusal in its status is taken exactly when its text does
not have the words of one and its look-ups can be made. -/
theorem dispatch_returns_iff (room : Nat) (s : Monitor) (message : Entries)
    (htype : messageType message ∈ wsMessageTypes) (haccepted : Accepted message) :
    (∃ s', dispatchMessage room s message = .ok s') ↔ Taken room message :=
  (gives_dispatchMessage room s htype haccepted).returns_iff

theorem frames_taken_iff (room : Nat) (s : Monitor) (frames : List Entries)
    (h : ∀ message ∈ frames, messageType message ∈ wsMessageTypes ∧ Accepted message) :
    (∃ s', frames.foldlM (dispatchMessage room) s = .ok s') ↔
      ∀ message ∈ frames, Taken room message := by
  have hgives : Gives (frames.foldlM (dispatchMessage room) s) (∀ message ∈ frames, Taken room message)
      (frames.foldl Monitor.received s) := by
    induction frames generalizing s with
    | nil => exact (Gives.pure s).congr (by simp)
    | cons message frames ih =>
      obtain ⟨⟨htype, haccepted⟩, hframes⟩ := List.forall_mem_cons.mp h
      rw [List.foldlM_cons, List.foldl_cons]
      exact ((gives_dispatchMessage room s htype haccepted).bind fun _ => ih _ hframes).congr
        (by simp)
  exact hgives.returns_iff

-- ---------------------------------------------------------------------------
-- Deep frames
-- ---------------------------------------------------------------------------

omit [Unicode] in
def nested : Nat → Json
  | 0 => .null
  | n + 1 => .list [nested n]

omit [Unicode] in
theorem reach_nested (keys : List String) (n : Nat) : reach keys (nested n) = n + 1 := by
  induction n with
  | zero => rfl
  | succ n ih => simp [nested, reach, reachItems, ih]

theorem not_readable_nested {n : Nat} (h : room < n) : ¬ Readable room (nested n) := by
  rintro ⟨hstat, -⟩
  rw [reach_nested] at hstat
  omega

end

section
attribute [local instance] Unicode.ascii

def named : Entries :=
  [("type", .str "static"),
    ("data", .dict [("name", .str "Residence"), ("lease", .str "expired")])]

def fastFrame (data : Json) : Entries := [("type", .str "fast"), ("data", data)]

def counted (up : String) : Entries := fastFrame (.dict [("up", .str up)])

theorem dispatch_returns_counted :
    messageType (counted "12") ∈ wsMessageTypes ∧ Accepted (counted "12") ∧
      ((∃ s', dispatchMessage 990 ⟨[], [], []⟩ (counted "12") = .ok s') ↔
        Taken 990 (counted "12")) := by
  have htype : messageType (counted "12") ∈ wsMessageTypes := by decide
  have haccepted : Accepted (counted "12") := by decide +kernel
  exact ⟨htype, haccepted, dispatch_returns_iff 990 _ _ htype haccepted⟩

/-- A recognised frame without a refusal in its status that drops the connection. -/
def Drops (message : Entries) : Prop :=
  messageType message ∈ wsMessageTypes ∧ Accepted message ∧
    ¬ ∃ s', dispatchMessage 990 ⟨[], [], []⟩ message = .ok s'

/-- A device's name beside the state of a lease, a counter that is too large and a frame
that is nested too deep. -/
theorem frames_drop_connection :
    Drops named ∧ Drops (counted "1e999") ∧ Drops (fastFrame (nested 2000)) := by
  have hraises : ∀ message, (dispatchMessage 990 ⟨[], [], []⟩ message).toBool = false →
      ¬ ∃ s', dispatchMessage 990 ⟨[], [], []⟩ message = .ok s' := by
    rintro message h ⟨s', hs⟩
    rw [hs] at h
    nomatch h
  have hdeep : ¬ Taken 990 (fastFrame (nested 2000)) :=
    fun h => not_readable_nested (by omega) (h.2 (by decide +kernel))
  have htype : messageType (fastFrame (nested 2000)) ∈ wsMessageTypes := by decide +kernel
  have haccepted : Accepted (fastFrame (nested 2000)) := by decide +kernel
  refine ⟨⟨by decide +kernel, by decide +kernel, hraises _ (by decide +kernel)⟩,
    ⟨by decide +kernel, by decide +kernel, hraises _ (by decide +kernel)⟩, htype, haccepted, ?_⟩
  rw [(gives_dispatchMessage 990 _ htype haccepted).returns_iff]
  exact hdeep

end

end LabProbe.Router
