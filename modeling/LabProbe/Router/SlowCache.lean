import LabProbe.Lib.Dict
import LabProbe.Lib.Run
import Mathlib.Data.List.Sort

/-!
# The cache of slow router reads

`cached`, as `install_router_slow_cache_patch` leaves it for the slow keys,
with its background refresh, and `TinyTtlCache.clear` of `write_and_verify`.
A stale value is returned at once while one worker reloads it. The values
belong to a scope, the key of the router's address and password; a call that
finds another scope than the cache's empties the cache.

Calls and workers go on step by step, in any order. A loader waits for its
turn at the router before `_post_api` reads the configuration, and reads it
again where the request is repeated after a login. Kept on the side are the
scope of the request that brought each value, when its load began, and what
the calls returned. Keys that are not slow keep their own reading and are
left out.
-/

namespace LabProbe.Router

open Runs

structure Settings where
  ttls : List (String × Rat) :=
    [("native-portmap", 30), ("upnp", 30), ("firewall", 60), ("ddns", 60)]
  refreshRetrySec : Rat := 15
  pruneIntervalSec : Rat := 300
  maxStaleSec : Rat := 86400
  maxEntries : Nat := 64

structure Entry (α : Type) where
  savedAt : Rat
  value : α
  scope : String
  began : Nat
  deriving DecidableEq

/-- How far a call or a worker is: it was called, it has read the scope and
ensured it, it is about to load, or it loads, from its last request on under
the configuration that this one read. -/
inductive Phase where
  | called
  | keyed (scope : String)
  | ensured | due
  | loading (scope : Option String) (began : Nat)
  deriving DecidableEq

def Phase.scope? : Phase → Option String
  | .loading scope _ => scope
  | _ => none

def Phase.began? : Phase → Option Nat
  | .loading _ began => some began
  | _ => none

structure Reader where
  key : String
  force : Bool := false
  calledUnder : Option String
  phase : Phase := .called
  deriving DecidableEq

structure Returned (α : Type) where
  key : String
  value : α
  calledUnder : String
  loadedUnder : String
  deriving DecidableEq

structure Client (α : Type) where
  /-- `_session_cache_key()`. -/
  configured : String
  /-- `_slow_cache_scope`. -/
  scope : Option String := none
  cache : List (String × Entry α) := []
  refreshing : List String := []
  retryAfter : List (String × Rat) := []
  lastPrune : Rat := 0
  readers : List Reader := []
  /-- Counts the beginnings of loads. -/
  clock : Nat := 0
  returned : List (Returned α) := []

inductive CacheEvent (α : Type) where
  | configure (scope : String)
  | clear (start : String)
  | call (key : String) (force : Bool)
  | readScope (reader : Nat)
  | ensure (now : Rat) (reader : Nat)
  | look (now : Rat) (reader : Nat)
  | load (reader : Nat)
  | request (reader : Nat)
  | store (now : Rat) (reader : Nat) (result : Option α)

-- ---------------------------------------------------------------------------
-- The parts of a call
-- ---------------------------------------------------------------------------

variable {α : Type} (settings : Settings)

def Client.ensureScope (c : Client α) (now : Rat) (scope : String) : Client α :=
  match c.scope with
  | none => { c with scope := some scope }
  | some previous =>
    if previous = scope then c
    else { c with scope := some scope, cache := [], refreshing := [], retryAfter := []
                  lastPrune := now }

/-- The keys of the entries saved first, those above the limit. -/
def overflow (cache : List (String × Entry α)) : List String :=
  ((cache.mergeSort fun a b => a.2.savedAt ≤ b.2.savedAt).take
    (cache.length - settings.maxEntries)).map Prod.fst

def Client.prune (c : Client α) (now : Rat) : Client α :=
  if now - c.lastPrune < settings.pruneIntervalSec then c
  else
    let kept := c.cache.filter fun e => !(settings.maxStaleSec < now - e.2.savedAt)
    { c with lastPrune := now
             retryAfter := c.retryAfter.filter fun e => !(e.2 ≤ now)
             cache := kept.filter fun e => !(overflow settings kept).contains e.1 }

def Client.proceed (c : Client α) (i : Nat) (reader : Reader) (phase : Phase) : Client α :=
  { c with readers := c.readers.set i { reader with phase := phase } }

def Client.startRefresh (c : Client α) (now : Rat) (key : String) : Client α :=
  if c.refreshing.contains key || now < (Dict.get? c.retryAfter key).getD 0 then c
  else { c with refreshing := c.refreshing ++ [key]
                readers := c.readers ++ [⟨key, true, none, .due⟩] }

def Client.give (c : Client α) (i : Nat) (reader : Reader) (value : α) (loadedUnder : String) :
    Client α :=
  { c with readers := c.readers.eraseIdx i
           returned := c.returned ++ (reader.calledUnder.map fun calledUnder =>
             ⟨reader.key, value, calledUnder, loadedUnder⟩).toList }

def Client.look (c : Client α) (now : Rat) (i : Nat) (reader : Reader) : Client α :=
  let c := c.prune settings now
  if reader.force then c.proceed i reader .due
  else match Dict.get? c.cache reader.key with
    | some entry =>
      let given := c.give i reader entry.value entry.scope
      if now - entry.savedAt ≤ max 1 ((Dict.get? settings.ttls reader.key).getD 0) then given
      else given.startRefresh now reader.key
    | none => c.proceed i reader .due

/-- A load ends: the value of its last request is put and, by a call,
returned; or it raises. -/
def Client.store (c : Client α) (now : Rat) (i : Nat) (reader : Reader) (scope : Option String)
    (began : Nat) (result : Option α) : Client α :=
  let finished := if reader.calledUnder.isNone then c.refreshing.erase reader.key else c.refreshing
  match result, scope with
  | some _, none => c
  | some value, some scope =>
    { c.give i reader value scope with
      cache := Dict.set c.cache reader.key ⟨now, value, scope, began⟩
      retryAfter := Dict.erase c.retryAfter reader.key
      refreshing := finished }
  | none, _ =>
    { c with
      readers := c.readers.eraseIdx i
      retryAfter := if reader.calledUnder.isNone then
          Dict.set c.retryAfter reader.key (now + settings.refreshRetrySec)
        else c.retryAfter
      refreshing := finished }

def Client.clear (c : Client α) (start : String) : Client α :=
  { c with cache := c.cache.filter fun e => !start.toList.isPrefixOf e.1.toList }

def Client.step (c : Client α) : CacheEvent α → Client α
  | .configure scope => { c with configured := scope }
  | .clear start => c.clear start
  | .call key force =>
    if (Dict.get? settings.ttls key).isSome then
      { c with readers := c.readers ++ [⟨key, force, some c.configured, .called⟩] }
    else c
  | .readScope i =>
    match c.readers[i]? with
    | some reader =>
      if reader.phase = .called then c.proceed i reader (.keyed c.configured) else c
    | none => c
  | .ensure now i =>
    match c.readers[i]? with
    | some reader =>
      match reader.phase with
      | .keyed scope => (c.ensureScope now scope).proceed i reader .ensured
      | _ => c
    | none => c
  | .look now i =>
    match c.readers[i]? with
    | some reader => if reader.phase = .ensured then c.look settings now i reader else c
    | none => c
  | .load i =>
    match c.readers[i]? with
    | some reader =>
      if reader.phase = .due then
        { c.proceed i reader (.loading none c.clock) with clock := c.clock + 1 }
      else c
    | none => c
  | .request i =>
    match c.readers[i]? with
    | some reader =>
      match reader.phase with
      | .loading _ began => c.proceed i reader (.loading (some c.configured) began)
      | _ => c
    | none => c
  | .store now i result =>
    match c.readers[i]? with
    | some reader =>
      match reader.phase with
      | .loading scope began => c.store settings now i reader scope began result
      | _ => c
    | none => c

-- ---------------------------------------------------------------------------
-- The properties and their conditions
-- ---------------------------------------------------------------------------

def Client.ScopesMatch (c : Client α) : Prop := ∀ r ∈ c.returned, r.loadedUnder = r.calledUnder

/-- A value put began to load no earlier than the value it replaces. -/
def Client.NeverOlder (c : Client α) (e : CacheEvent α) : Prop :=
  ∀ new ∈ (c.step settings e).cache, new ∉ c.cache →
    ∀ old ∈ c.cache, old.1 = new.1 → old.2.began ≤ new.2.began

/-- A call finds its scope still that of the cache when it looks there, and
that of the router when a request of its load reads the configuration; and
the scope of a load is that of the cache when its value is put. -/
def Client.KeepsScope (c : Client α) : CacheEvent α → Prop
  | .look _ i => ∀ reader ∈ c.readers[i]?, reader.phase = .ensured → reader.force = false →
    ∀ scope ∈ reader.calledUnder, c.scope = some scope
  | .request i => ∀ reader ∈ c.readers[i]?, reader.phase.began?.isSome →
    ∀ scope ∈ reader.calledUnder, c.configured = scope
  | .store _ i (some _) => ∀ reader ∈ c.readers[i]?, ∀ scope ∈ reader.phase.scope?,
    c.scope = some scope
  | _ => True

/-- The value of a load is put before any load of the key ends that began later. -/
def Client.PutsInTurn (c : Client α) : CacheEvent α → Prop
  | .store _ i (some _) => ∀ reader ∈ c.readers[i]?, ∀ began ∈ reader.phase.began?,
    ∀ other ∈ c.readers.eraseIdx i, other.key = reader.key →
      ∀ began' ∈ other.phase.began?, began ≤ began'
  | _ => True

instance (c : Client α) (e : CacheEvent α) : Decidable (c.KeepsScope e) := by
  unfold Client.KeepsScope
  exact match e with
    | .configure .. | .clear .. | .call .. | .readScope .. | .ensure .. | .look .. | .load .. |
      .request .. | .store _ _ none | .store _ _ (some _) => inferInstance

instance (c : Client α) (e : CacheEvent α) : Decidable (c.PutsInTurn e) := by
  unfold Client.PutsInTurn
  exact match e with
    | .configure .. | .clear .. | .call .. | .readScope .. | .ensure .. | .look .. | .load .. |
      .request .. | .store _ _ none | .store _ _ (some _) => inferInstance

/-- A reader after a step is one of before, or does not load, or begins to,
or sends a request. -/
inductive Client.Reads (c : Client α) : CacheEvent α → Reader → Prop
  | kept (hr : r ∈ c.readers) : Reads c e r
  | idle (hscope : r.phase.scope? = none) (hbegan : r.phase.began? = none) : Reads c e r
  | loads (hold : c.readers[i]? = some old) (hdue : old.phase = .due) :
    Reads c (.load i) { old with phase := .loading none c.clock }
  | requests {under : Option String} {began : Nat} (hold : c.readers[i]? = some old)
    (hphase : old.phase = .loading under began) :
    Reads c (.request i) { old with phase := .loading (some c.configured) began }

/-- An entry after a step is one of before, or the value of a load that ends. -/
inductive Client.Holds (c : Client α) : CacheEvent α → String × Entry α → Prop
  | kept (he : entry ∈ c.cache) : Holds c e entry
  | put {i : Nat} {reader : Reader} {under : String} {began : Nat} {now : Rat} {value : α}
    (hreader : c.readers[i]? = some reader) (hphase : reader.phase = .loading (some under) began) :
    Holds c (.store now i (some value)) (reader.key, ⟨now, value, under, began⟩)

/-- What a call returned before, the value of an entry, or that of a load. -/
inductive Client.Returns (c : Client α) : CacheEvent α → Returned α → Prop
  | kept (hr : r ∈ c.returned) : Returns c e r
  | hit (hreader : c.readers[i]? = some reader) (hphase : reader.phase = .ensured)
    (hforce : reader.force = false) (hcalled : reader.calledUnder = some called)
    (hentry : (reader.key, entry) ∈ c.cache) :
    Returns c (.look now i) ⟨reader.key, entry.value, called, entry.scope⟩
  | loaded {i : Nat} {reader : Reader} {under called : String} {began : Nat} {now : Rat} {value : α}
    (hreader : c.readers[i]? = some reader) (hphase : reader.phase = .loading (some under) began)
    (hcalled : reader.calledUnder = some called) :
    Returns c (.store now i (some value)) ⟨reader.key, value, called, under⟩

-- ---------------------------------------------------------------------------
-- The parts of a call
-- ---------------------------------------------------------------------------

variable {c : Client α} {now : Rat} {i : Nat} {reader : Reader}

theorem prune_cache (c : Client α) (now : Rat) : (c.prune settings now).cache.Sublist c.cache := by
  unfold Client.prune
  split
  · exact List.Sublist.refl _
  · exact List.filter_sublist.trans List.filter_sublist

theorem prune_frame (c : Client α) (now : Rat) :
    ∃ cache retryAfter lastPrune, c.prune settings now =
      { c with cache := cache, retryAfter := retryAfter, lastPrune := lastPrune } := by
  unfold Client.prune
  split
  · exact ⟨_, _, _, rfl⟩
  · exact ⟨_, _, _, rfl⟩

theorem startRefresh_frame (c : Client α) (now : Rat) (key : String) :
    ∃ refreshing readers, c.startRefresh now key =
      { c with refreshing := refreshing, readers := readers } := by
  unfold Client.startRefresh
  split
  · exact ⟨_, _, rfl⟩
  · exact ⟨_, _, rfl⟩

theorem mem_startRefresh {r : Reader} {key : String}
    (h : r ∈ (c.startRefresh now key).readers) :
    r ∈ c.readers ∨ r = ⟨key, true, none, .due⟩ := by
  unfold Client.startRefresh at h
  split at h
  · exact .inl h
  · exact (List.mem_append.mp h).imp_right List.mem_singleton.mp

theorem mem_proceed {r : Reader} {phase : Phase} (h : r ∈ (c.proceed i reader phase).readers) :
    r ∈ c.readers ∨ r = { reader with phase := phase } := List.mem_or_eq_of_mem_set h

theorem mem_give {reader : Reader} {value : α} {under : String} {r : Returned α}
    (h : r ∈ (c.give i reader value under).returned) :
    r ∈ c.returned ∨ ∃ called, reader.calledUnder = some called ∧
      r = ⟨reader.key, value, called, under⟩ := by
  rcases List.mem_append.mp h with h | h
  · exact .inl h
  · obtain ⟨called, hcalled, rfl⟩ := Option.map_eq_some_iff.mp (Option.mem_toList.mp h)
    exact .inr ⟨called, hcalled, rfl⟩

theorem ensureScope_readers (c : Client α) (now : Rat) (scope : String) :
    (c.ensureScope now scope).readers = c.readers ∧ (c.ensureScope now scope).clock = c.clock ∧
      (c.ensureScope now scope).returned = c.returned := by
  unfold Client.ensureScope
  split
  · exact ⟨rfl, rfl, rfl⟩
  · split <;> exact ⟨rfl, rfl, rfl⟩

theorem look_cases (c : Client α) (now : Rat) (i : Nat) (reader : Reader) :
    c.look settings now i reader = (c.prune settings now).proceed i reader .due ∨
    reader.force = false ∧ ∃ entry, (reader.key, entry) ∈ c.cache ∧
      (c.look settings now i reader =
          (c.prune settings now).give i reader entry.value entry.scope ∨
        c.look settings now i reader =
          ((c.prune settings now).give i reader entry.value entry.scope).startRefresh now
            reader.key) := by
  unfold Client.look
  dsimp only
  cases hforce : reader.force with
  | true => exact .inl rfl
  | false =>
    cases hget : Dict.get? (c.prune settings now).cache reader.key with
    | none => exact .inl rfl
    | some entry =>
      refine .inr ⟨rfl, entry, (prune_cache settings c now).subset (Dict.mem_of_get? hget), ?_⟩
      dsimp only
      rw [if_neg Bool.false_ne_true]
      split
      · exact .inl rfl
      · exact .inr rfl

-- ---------------------------------------------------------------------------
-- What a step does
-- ---------------------------------------------------------------------------

theorem reads_of_mem {e : CacheEvent α} {r : Reader} (h : r ∈ (c.step settings e).readers) :
    c.Reads e r := by
  cases e with
  | configure scope => exact .kept h
  | clear start => exact .kept h
  | call key force =>
    simp only [Client.step] at h
    split at h
    · rcases List.mem_append.mp h with h | h
      · exact .kept h
      · obtain rfl := List.mem_singleton.mp h
        exact .idle rfl rfl
    · exact .kept h
  | readScope i =>
    simp only [Client.step] at h
    split at h
    · split at h
      · rcases mem_proceed h with h | rfl
        · exact .kept h
        · exact .idle rfl rfl
      · exact .kept h
    · exact .kept h
  | ensure now i =>
    simp only [Client.step] at h
    split at h
    · split at h
      · rcases mem_proceed h with h | rfl
        · exact .kept ((ensureScope_readers c now _).1 ▸ h)
        · exact .idle rfl rfl
      · exact .kept h
    · exact .kept h
  | look now i =>
    simp only [Client.step] at h
    split at h
    · rename_i reader _
      split at h
      · obtain ⟨_, _, _, hprune⟩ := prune_frame settings c now
        rcases look_cases settings c now i reader with hlook | ⟨-, entry, -, hlook | hlook⟩
        · rw [hlook, hprune] at h
          rcases mem_proceed h with h | rfl
          · exact .kept h
          · exact .idle rfl rfl
        · rw [hlook, hprune] at h
          exact .kept (List.mem_of_mem_eraseIdx h)
        · rw [hlook, hprune] at h
          rcases mem_startRefresh h with h | rfl
          · exact .kept (List.mem_of_mem_eraseIdx h)
          · exact .idle rfl rfl
      · exact .kept h
    · exact .kept h
  | load i =>
    simp only [Client.step] at h
    split at h
    · rename_i reader hreader
      split at h
      · rename_i hdue
        rcases mem_proceed h with h | rfl
        · exact .kept h
        · exact .loads hreader hdue
      · exact .kept h
    · exact .kept h
  | request i =>
    simp only [Client.step] at h
    split at h
    · rename_i reader hreader
      split at h
      · rename_i hphase
        rcases mem_proceed h with h | rfl
        · exact .kept h
        · exact .requests hreader hphase
      · exact .kept h
    · exact .kept h
  | store now i result =>
    simp only [Client.step] at h
    split at h
    · split at h
      · rename_i scope began _
        cases result with
        | none => exact .kept (List.mem_of_mem_eraseIdx h)
        | some value =>
          cases scope with
          | none => exact .kept h
          | some under => exact .kept (List.mem_of_mem_eraseIdx h)
      · exact .kept h
    · exact .kept h

theorem holds_of_mem {e : CacheEvent α} {entry : String × Entry α}
    (h : entry ∈ (c.step settings e).cache) : c.Holds e entry := by
  cases e with
  | configure scope => exact .kept h
  | clear start => exact .kept (List.mem_of_mem_filter h)
  | call key force =>
    simp only [Client.step] at h
    split at h <;> exact .kept h
  | readScope i =>
    simp only [Client.step] at h
    split at h
    · split at h <;> exact .kept h
    · exact .kept h
  | ensure now i =>
    simp only [Client.step] at h
    split at h
    · split at h
      · unfold Client.proceed Client.ensureScope at h
        split at h
        · exact .kept h
        · split at h
          · exact .kept h
          · cases h
      · exact .kept h
    · exact .kept h
  | look now i =>
    simp only [Client.step] at h
    split at h
    · rename_i reader _
      split at h
      · have hsub := prune_cache settings c now
        refine .kept (hsub.subset ?_)
        rcases look_cases settings c now i reader with hlook | ⟨-, given, -, hlook | hlook⟩
        · rwa [hlook] at h
        · rwa [hlook] at h
        · rw [hlook] at h
          obtain ⟨_, _, hstart⟩ := startRefresh_frame
            ((c.prune settings now).give i reader given.value given.scope) now reader.key
          rwa [hstart] at h
      · exact .kept h
    · exact .kept h
  | load i | request i =>
    simp only [Client.step] at h
    split at h
    · split at h <;> exact .kept h
    · exact .kept h
  | store now i result =>
    simp only [Client.step] at h
    split at h
    · rename_i reader hreader
      split at h
      · rename_i scope began hphase
        cases result with
        | none => exact .kept h
        | some value =>
          cases scope with
          | none => exact .kept h
          | some under =>
            rcases Dict.mem_set h with rfl | h
            · exact .put hreader hphase
            · exact .kept h
      · exact .kept h
    · exact .kept h

theorem returns_of_mem {e : CacheEvent α} {r : Returned α}
    (h : r ∈ (c.step settings e).returned) : c.Returns e r := by
  cases e with
  | configure scope => exact .kept h
  | clear start => exact .kept h
  | call key force =>
    simp only [Client.step] at h
    split at h <;> exact .kept h
  | readScope i =>
    simp only [Client.step] at h
    split at h
    · split at h <;> exact .kept h
    · exact .kept h
  | ensure now i =>
    simp only [Client.step] at h
    split at h
    · split at h
      · exact .kept ((ensureScope_readers c now _).2.2 ▸ h)
      · exact .kept h
    · exact .kept h
  | look now i =>
    simp only [Client.step] at h
    split at h
    · rename_i reader hreader
      split at h
      · rename_i hphase
        obtain ⟨_, _, _, hprune⟩ := prune_frame settings c now
        rcases look_cases settings c now i reader with hlook | ⟨hforce, entry, hentry, hlook⟩
        · rw [hlook, hprune] at h
          exact .kept h
        · have hgiven :
              r ∈ ((c.prune settings now).give i reader entry.value entry.scope).returned := by
            rcases hlook with hlook | hlook
            · rwa [hlook] at h
            · obtain ⟨_, _, hstart⟩ := startRefresh_frame
                ((c.prune settings now).give i reader entry.value entry.scope) now reader.key
              rwa [hlook, hstart] at h
          rw [hprune] at hgiven
          rcases mem_give hgiven with hold | ⟨called, hcalled, rfl⟩
          · exact .kept hold
          · exact .hit hreader hphase hforce hcalled hentry
      · exact .kept h
    · exact .kept h
  | load i | request i =>
    simp only [Client.step] at h
    split at h
    · split at h <;> exact .kept h
    · exact .kept h
  | store now i result =>
    simp only [Client.step] at h
    split at h
    · rename_i reader hreader
      split at h
      · rename_i scope began hphase
        cases result with
        | none => exact .kept h
        | some value =>
          cases scope with
          | none => exact .kept h
          | some under =>
            have hgiven : r ∈ (c.give i reader value under).returned := h
            rcases mem_give hgiven with hold | ⟨called, hcalled, rfl⟩
            · exact .kept hold
            · exact .loaded hreader hphase hcalled
      · exact .kept h
    · exact .kept h

theorem step_scope (c : Client α) (e : CacheEvent α) :
    (c.step settings e).scope = c.scope ∨ c.scope = none ∧ (c.step settings e).cache = c.cache ∨
      (c.step settings e).cache = [] := by
  cases e with
  | configure | clear => exact .inl rfl
  | call key force =>
    simp only [Client.step]
    split <;> exact .inl rfl
  | readScope i =>
    simp only [Client.step]
    split
    · split <;> exact .inl rfl
    · exact .inl rfl
  | ensure now i =>
    simp only [Client.step]
    split
    · split
      · unfold Client.proceed Client.ensureScope
        cases hscope : c.scope with
        | none => exact .inr (.inl ⟨rfl, rfl⟩)
        | some previous =>
          dsimp only
          split
          · exact .inl hscope
          · exact .inr (.inr rfl)
      · exact .inl rfl
    · exact .inl rfl
  | look now i =>
    simp only [Client.step]
    split
    · rename_i reader _
      split
      · left
        obtain ⟨_, _, _, hprune⟩ := prune_frame settings c now
        rcases look_cases settings c now i reader with hlook | ⟨-, entry, -, hlook | hlook⟩
        · rw [hlook, hprune]
          rfl
        · rw [hlook, hprune]
          rfl
        · obtain ⟨_, _, hstart⟩ := startRefresh_frame
            ((c.prune settings now).give i reader entry.value entry.scope) now reader.key
          rw [hlook, hstart, hprune]
          rfl
      · exact .inl rfl
    · exact .inl rfl
  | load i | request i =>
    simp only [Client.step]
    split
    · split <;> exact .inl rfl
    · exact .inl rfl
  | store now i result =>
    simp only [Client.step]
    split
    · split
      · rename_i scope began _
        cases result <;> cases scope <;> exact .inl rfl
      · exact .inl rfl
    · exact .inl rfl

theorem step_clock (c : Client α) (e : CacheEvent α) : c.clock ≤ (c.step settings e).clock := by
  cases e with
  | configure | clear => exact le_rfl
  | call key force =>
    simp only [Client.step]
    split <;> exact le_rfl
  | readScope i =>
    simp only [Client.step]
    split
    · split <;> exact le_rfl
    · exact le_rfl
  | ensure now i =>
    simp only [Client.step]
    split
    · split
      · exact (ensureScope_readers c now _).2.1.ge
      · exact le_rfl
    · exact le_rfl
  | look now i =>
    simp only [Client.step]
    split
    · rename_i reader _
      split
      · obtain ⟨_, _, _, hprune⟩ := prune_frame settings c now
        rcases look_cases settings c now i reader with hlook | ⟨-, entry, -, hlook | hlook⟩
        · rw [hlook, hprune]
          exact le_rfl
        · rw [hlook, hprune]
          exact le_rfl
        · obtain ⟨_, _, hstart⟩ := startRefresh_frame
            ((c.prune settings now).give i reader entry.value entry.scope) now reader.key
          rw [hlook, hstart, hprune]
          exact le_rfl
      · exact le_rfl
    · exact le_rfl
  | load i =>
    simp only [Client.step]
    split
    · split
      · exact Nat.le_succ _
      · exact le_rfl
    · exact le_rfl
  | request i =>
    simp only [Client.step]
    split
    · split <;> exact le_rfl
    · exact le_rfl
  | store now i result =>
    simp only [Client.step]
    split
    · split
      · rename_i scope began _
        cases result <;> cases scope <;> exact le_rfl
      · exact le_rfl
    · exact le_rfl

-- ---------------------------------------------------------------------------
-- Scopes
-- ---------------------------------------------------------------------------

/-- The entries are of the scope of the cache, and the loads of calls of the
scope the calls were made under. -/
structure Client.Scoped (c : Client α) : Prop where
  cache : ∀ e ∈ c.cache, c.scope = some e.2.scope
  loads : ∀ r ∈ c.readers, ∀ scope ∈ r.phase.scope?, ∀ called ∈ r.calledUnder, scope = called
  returned : c.ScopesMatch

theorem Client.Scoped.step {e : CacheEvent α} (h : c.Scoped) (hk : c.KeepsScope e) :
    (c.step settings e).Scoped where
  cache entry he := by
    rcases step_scope settings c e with hsame | ⟨hnone, hcache⟩ | hempty
    · rw [hsame]
      cases holds_of_mem settings he with
      | kept he => exact h.cache entry he
      | put hreader hphase => exact hk _ hreader _ (by rw [hphase]; rfl)
    · rw [hcache] at he
      rw [h.cache entry he] at hnone
      cases hnone
    · rw [hempty] at he
      cases he
  loads r hr scope hscope called hcalled := by
    cases reads_of_mem settings hr with
    | kept hr => exact h.loads r hr scope hscope called hcalled
    | idle hnone =>
      rw [hnone] at hscope
      cases hscope
    | loads => cases hscope
    | requests hold hphase =>
      cases hscope
      exact hk _ hold (by rw [hphase]; rfl) called hcalled
  returned r hr := by
    cases returns_of_mem settings hr with
    | kept hr => exact h.returned r hr
    | @hit i reader called entry now hreader hphase hforce hcalled hentry =>
      have hscope := hk reader hreader hphase hforce called hcalled
      exact Option.some.inj ((h.cache _ hentry).symm.trans hscope)
    | @loaded i reader under called began now value hreader hphase hcalled =>
      exact h.loads reader (List.mem_of_getElem? hreader) under (by rw [hphase]; rfl) called hcalled

-- ---------------------------------------------------------------------------
-- The order of the loads
-- ---------------------------------------------------------------------------

/-- The loads under way began no earlier than the entries of their keys. -/
structure Client.InTurn (c : Client α) : Prop where
  loads : ∀ r ∈ c.readers, ∀ began ∈ r.phase.began?, began < c.clock
  past : ∀ e ∈ c.cache, e.2.began < c.clock
  ahead : ∀ e ∈ c.cache, ∀ r ∈ c.readers, r.key = e.1 → ∀ began ∈ r.phase.began?,
    e.2.began ≤ began

theorem step_load (hold : c.readers[i]? = some reader) (hdue : reader.phase = .due) :
    (c.step settings (.load i)).clock = c.clock + 1 := by
  simp [Client.step, hold, hdue]

theorem step_store {under : String} {began : Nat} {value : α} (hold : c.readers[i]? = some reader)
    (hphase : reader.phase = .loading (some under) began) :
    (c.step settings (.store now i (some value))).readers = c.readers.eraseIdx i := by
  simp [Client.step, hold, hphase, Client.store, Client.give]

theorem Client.InTurn.step {e : CacheEvent α} (h : c.InTurn) (hk : c.PutsInTurn e) :
    (c.step settings e).InTurn where
  loads r hr began hbegan := by
    have hclock := step_clock settings c e
    cases reads_of_mem settings hr with
    | kept hr => exact (h.loads r hr began hbegan).trans_le hclock
    | idle _ hnone =>
      rw [hnone] at hbegan
      cases hbegan
    | loads hold hdue =>
      cases hbegan
      rw [step_load settings hold hdue]
      exact Nat.lt_succ_self _
    | @requests i old under began' hold hphase =>
      exact (h.loads old (List.mem_of_getElem? hold) began (by rw [hphase]; exact hbegan)).trans_le
        hclock
  past entry he := by
    have hclock := step_clock settings c e
    cases holds_of_mem settings he with
    | kept he => exact (h.past entry he).trans_le hclock
    | @put i reader under began now value hreader hphase =>
      exact (h.loads reader (List.mem_of_getElem? hreader) began (by rw [hphase]; rfl)).trans_le
        hclock
  ahead entry he r hr hkey began hbegan := by
    cases holds_of_mem settings he with
    | kept hkept =>
      cases reads_of_mem settings hr with
      | kept hr => exact h.ahead entry hkept r hr hkey began hbegan
      | idle _ hnone =>
        rw [hnone] at hbegan
        cases hbegan
      | loads hold hdue =>
        cases hbegan
        exact (h.past entry hkept).le
      | @requests i old under began' hold hphase =>
        exact h.ahead entry hkept old (List.mem_of_getElem? hold) hkey began
          (by rw [hphase]; exact hbegan)
    | @put i reader under began₀ now value hreader hphase =>
      rw [step_store settings hreader hphase] at hr
      exact hk reader hreader began₀ (by rw [hphase]; rfl) r hr hkey began hbegan

theorem Client.InTurn.neverOlder {e : CacheEvent α} (h : c.InTurn) : c.NeverOlder settings e := by
  intro new hnew hfresh old hold hkey
  cases holds_of_mem settings hnew with
  | kept he => exact absurd he hfresh
  | @put i reader under began now value hreader hphase =>
    exact h.ahead old hold reader (List.mem_of_getElem? hreader) hkey.symm began
      (by rw [hphase]; rfl)

/-- From an empty cache: where scopes do not change between a call, its look
and its requests, nor between the last request and the end of a load, calls
return values of their own scope; and where loads of a key end in turn, no value gives way to an
older one. -/
theorem slow_cache_scoped (configured : String) (es : List (CacheEvent α)) :
    (Along (Client.step settings) Client.KeepsScope { configured := configured } es →
      (run (Client.step settings) { configured := configured } es).ScopesMatch) ∧
    (Along (Client.step settings) Client.PutsInTurn { configured := configured } es →
      Along (Client.step settings) (Client.NeverOlder settings) { configured := configured } es) := by
  constructor
  · intro hk
    have hstart : @Client.Scoped α { configured := configured } := by
      refine ⟨?_, ?_, ?_⟩ <;> simp [Client.ScopesMatch]
    exact (hk.invariant hstart fun c e h hk => h.step settings hk).returned
  · intro hk
    have hstart : @Client.InTurn α { configured := configured } := by
      refine ⟨?_, ?_, ?_⟩ <;> simp
    exact hk.mono hstart (fun c e h hk => h.step settings hk) fun c e h _ => h.neverOlder settings

section

/-- A first read of the firewall, and a later one that finds it stale; the
refresh it starts has sent its request. -/
def firewallRefresh : List (CacheEvent String) :=
  [.call "firewall" false, .readScope 0, .ensure 0 0, .look 0 0, .load 0, .request 0,
    .store 1 0 (some "rules"), .call "firewall" false, .readScope 0, .ensure 100 0, .look 100 0,
    .load 0, .request 0]

/-- A forced read that sends its request twice and ends after the refresh. -/
def refreshedInTurn : List (CacheEvent String) :=
  firewallRefresh ++ [.call "firewall" true, .readScope 1, .ensure 101 1, .look 101 1, .load 1,
    .request 1, .store 102 0 (some "rules of 100"), .request 0, .store 103 0 (some "rules of 101")]

theorem slow_cache_scoped_firewall :
    (run (Client.step {}) { configured := "home" } refreshedInTurn).ScopesMatch ∧
      Along (Client.step {}) (Client.NeverOlder {}) { configured := "home" } refreshedInTurn := by
  have h := @slow_cache_scoped String {} "home" refreshedInTurn
  exact ⟨h.1 (by decide +kernel), h.2 (by decide +kernel)⟩

/-- The address changes while the refresh waits for its answer, and a call
ensures the new one. -/
def movedMeanwhile : List (CacheEvent String) :=
  firewallRefresh ++ [.configure "lab", .call "firewall" false, .readScope 1, .ensure 101 1]

/-- A forced read ends while the refresh loads. -/
def forcedMeanwhile : List (CacheEvent String) :=
  firewallRefresh ++ [.call "firewall" true, .readScope 1, .ensure 101 1, .look 101 1, .load 1,
    .request 1, .store 102 1 (some "rules of 101")]

/-- The refresh puts a value of the old address, which the call under the new
one returns; and it puts an older value than the forced read. -/
theorem refresh_outlives_firewall :
    ¬(run (Client.step {}) { configured := "home" }
      (movedMeanwhile ++ [.store 102 0 (some "rules of home"), .look 103 0])).ScopesMatch ∧
    ¬Along (Client.step {}) (Client.NeverOlder {}) { configured := "home" }
      (forcedMeanwhile ++ [.store 103 0 (some "rules of 100")]) := by
  constructor
  · intro h
    have hreturned := h ⟨"firewall", "rules of home", "lab", "home"⟩ (by decide +kernel)
    exact absurd hreturned (by decide)
  · intro h
    have hput := h.last ("firewall", ⟨103, "rules of 100", "home", 1⟩) (by decide +kernel)
      (by decide +kernel) ("firewall", ⟨102, "rules of 101", "home", 2⟩) (by decide +kernel) rfl
    exact absurd hput (by decide)

end

end LabProbe.Router
