import LabProbe.Lib.Rows
import LabProbe.Lib.Run
import LabProbe.Py.Float
import Mathlib.Algebra.Order.Field.Rat
import Mathlib.Data.Rat.Floor

/-!
# Logging in to the router again

`_login` and `_post_api`, as the BE72 patches leave them, and the session
cache that all clients share. A login holds the login lock from its beginning
to its end, over the requests it makes; a call that the router has rejected
looks at the cache under that lock. Between these steps other calls, the
websocket monitor and the user go on in any order. The clock is read in
seconds and may stand anywhere.

`guards` are the blocks that are still in force, with the time they expire:
a login of the monitor that succeeds and the user end them. Cookies, serial
numbers and what the calls carry are left out; whether a client has a cookie
is part of the event. The key of a configuration is the hash of the address,
the password and the TLS setting.
-/

namespace LabProbe.Router.Login

open Py Runs

structure Session where
  sid : String := ""
  authToken : String := ""
  obtainedAt : Rat := 0
  sessionSeconds : Int := 3600
  deriving DecidableEq

def Session.validLocally (s : Session) (now : Rat) : Bool :=
  s.authToken != "" && now - s.obtainedAt < max 60 (s.sessionSeconds - 300)

structure Config where
  key : String
  /-- It has an address and a password. -/
  complete : Bool
  deriving DecidableEq

-- ---------------------------------------------------------------------------
-- The session cache
-- ---------------------------------------------------------------------------

structure Cache where
  configKey : String := ""
  session : Session := {}
  blockedConfigKey : String := ""
  blockedUntil : Rat := 0
  deriving DecidableEq

def Cache.peek (c : Cache) (key : String) : Session := if key = c.configKey then c.session else {}

/-- `save`, which ends a block. -/
def Cache.save (key : String) (session : Session) : Cache := { configKey := key, session := session }

def authRetryBackoffSeconds : Rat := 60

def Cache.blockLogin (c : Cache) (key : String) (now : Rat) : Cache :=
  { c with blockedConfigKey := key, blockedUntil := now + max 1 authRetryBackoffSeconds }

def Cache.retryAfter (c : Cache) (key : String) (now : Rat) : Int :=
  if key ≠ c.blockedConfigKey then 0 else max 0 (truncate (c.blockedUntil - now + 999 / 1000))

-- ---------------------------------------------------------------------------
-- Calls and logins
-- ---------------------------------------------------------------------------

/-- How far a call is: it is about to log in, its login is under way, it has
a session, it waits for the router's answer, or the router rejected it. -/
inductive Phase where
  | login | loggingIn
  | holding (session : Session)
  | sent (session : Session) (key : String)
  | rejected (session : Session) (key : String)
  | done
  deriving DecidableEq

/-- A call of `rpc`; `forced` counts its forced logins. -/
structure Call where
  retryAuth : Bool := true
  phase : Phase := .login
  forced : Nat := 0
  deriving DecidableEq

def Call.to (c : Call) (phase : Phase) : Call := { c with phase := phase }

/-- `_post_api(retry_auth=False)`. -/
def Call.again (c : Call) : Call := { c with retryAuth := false, phase := .login }

def Call.force (c : Call) : Call :=
  { retryAuth := false, phase := .loggingIn, forced := c.forced + 1 }

inductive Caller where
  | rpc (call : Nat) (force : Bool)
  | monitor
  | other
  deriving DecidableEq

def Caller.isRpc : Caller → Bool
  | .rpc .. => true
  | _ => false

structure Attempt where
  caller : Caller
  key : String
  deriving DecidableEq

inductive Validation where
  | valid | invalid | broken
  deriving DecidableEq

/-- What comes of the requests of a login: no answer or none that can be
read, a refusal, or a session with the result of its validation. -/
inductive Answer where
  | unreached | refused
  | opened (sid token : String) (sessionSeconds : Int) (validation : Validation)

def Answer.session? (now : Rat) : Answer → Option Session
  | .opened sid token seconds _ =>
    if strip sid = "" ∨ strip token = "" then none
    else some ⟨strip sid, strip token, now, max 600 (min 7200 seconds)⟩
  | _ => none

def Answer.validation : Answer → Validation
  | .opened _ _ _ validation => validation
  | _ => .invalid

def Answer.fails (a : Answer) (now : Rat) : Bool :=
  match a with
  | .unreached => false
  | a => (a.session? now).isNone || a.validation != Validation.valid

inductive Verdict where
  | paused | unconfigured | sent
  | reused (session : Session)
  deriving DecidableEq

-- ---------------------------------------------------------------------------
-- The system
-- ---------------------------------------------------------------------------

structure Sys where
  config : Config
  cache : Cache := {}
  /-- The login that holds the lock. -/
  login : Option Attempt := none
  calls : List Call := []
  guards : List (String × Rat) := []

inductive Event where
  | call
  | login (call : Nat) (now : Rat) (cookie : Bool)
  | send (call : Nat)
  | reply (call : Nat) (rejected : Bool)
  | check (call : Nat) (now : Rat)
  | monitor (now : Rat)
  | other (now : Rat) (cookie : Bool)
  | answer (now : Rat) (answer : Answer)
  | configure (config : Config)
  | clear

def Sys.setCall (s : Sys) (i : Nat) (c : Call) : Sys := { s with calls := s.calls.set i c }

def Sys.expire (s : Sys) (now : Rat) : Sys :=
  { s with guards := s.guards.filter fun g => now < g.2 }

def Sys.verdict (s : Sys) (force : Bool) (now : Rat) (cookie : Bool) : Verdict :=
  let cached := s.cache.peek s.config.key
  if !force && 0 < s.cache.retryAfter s.config.key now then .paused
  else if !force && cached.validLocally now && cached.sid != "" && cached.authToken != "" &&
      cookie then .reused cached
  else if s.config.complete then .sent
  else .unconfigured

def Sys.begin (s : Sys) (caller : Caller) : Sys :=
  { s with login := some ⟨caller, s.config.key⟩ }

def Sys.loginCall (s : Sys) (i : Nat) (c : Call) (now : Rat) (cookie : Bool) : Sys :=
  match s.verdict false now cookie with
  | .paused | .unconfigured => s.setCall i (c.to .done)
  | .reused session => s.setCall i (c.to (.holding session))
  | .sent => (s.setCall i (c.to .loggingIn)).begin (.rpc i false)

def Sys.isCurrent (s : Sys) (session : Session) : Bool :=
  let current := s.cache.peek s.config.key
  current.sid == session.sid && current.obtainedAt == session.obtainedAt

def Sys.checkCall (s : Sys) (i : Nat) (c : Call) (session : Session) (key : String) (now : Rat) :
    Sys :=
  if s.isCurrent session then
    if c.retryAuth then
      if s.config.complete then { (s.setCall i c.force).begin (.rpc i true) with cache := {} }
      else { s.setCall i (c.force.to .done) with cache := {} }
    else
      { s.setCall i (c.to .done) with
        cache := ({} : Cache).blockLogin key now
        guards := s.guards ++ [(key, now + authRetryBackoffSeconds)] }
  else if c.retryAuth then s.setCall i c.again
  else s.setCall i (c.to .done)

/-- The cache after the answer: the setter of the session uses the
configuration of now, `_save_session_cookies` that of the login. -/
def Sys.answered (s : Sys) (key : String) (now : Rat) (a : Answer) : Cache :=
  match a, a.session? now with
  | .unreached, _ => s.cache
  | _, none => {}
  | a, some session =>
    if a.validation = Validation.invalid then {}
    else .save key ((Cache.save s.config.key session).peek key)

/-- The login returns the session, or raises. -/
def Sys.finish (s : Sys) (caller : Caller) (result : Option Session) : Sys :=
  match caller, result with
  | .rpc i force, some session =>
    match s.calls[i]? with
    | some c => s.setCall i (if force then c.again else c.to (.holding session))
    | none => s
  | .rpc i _, none =>
    match s.calls[i]? with
    | some c => s.setCall i (c.to .done)
    | none => s
  | .monitor, some _ => { s with guards := [] }
  | _, _ => s

def Sys.endLogin (s : Sys) (l : Attempt) (now : Rat) (a : Answer) : Sys :=
  { s with cache := s.answered l.key now a, login := none }.finish l.caller
    (if a.validation = Validation.valid then a.session? now else none)

def Sys.step (s : Sys) : Event → Sys
  | .call => { s with calls := s.calls ++ [{}] }
  | .login i now cookie =>
    match s.login, s.calls[i]? with
    | none, some c => if c.phase = .login then (s.expire now).loginCall i c now cookie else s
    | _, _ => s
  | .send i =>
    match s.calls[i]? with
    | some c =>
      match c.phase with
      | .holding session =>
        s.setCall i (c.to (if strip session.sid = "" then .done else .sent session s.config.key))
      | _ => s
    | none => s
  | .reply i rejected =>
    match s.calls[i]? with
    | some c =>
      match c.phase with
      | .sent session key => s.setCall i (c.to (if rejected then .rejected session key else .done))
      | _ => s
    | none => s
  | .check i now =>
    match s.login, s.calls[i]? with
    | none, some c =>
      match c.phase with
      | .rejected session key => (s.expire now).checkCall i c session key now
      | _ => s
    | _, _ => s
  | .monitor now =>
    match s.login, s.verdict true now true with
    | none, .sent => (s.expire now).begin .monitor
    | _, _ => s
  | .other now cookie =>
    match s.login, s.verdict false now cookie with
    | none, .sent => (s.expire now).begin .other
    | _, _ => s
  | .answer now a =>
    match s.login with
    | some l => (s.expire now).endLogin l now a
    | none => s
  | .configure config => { s with config := config, guards := [] }
  | .clear =>
    match s.login with
    | none => { s with cache := {}, guards := [] }
    | some _ => s

def start (config : Config) : Sys := { config := config }

/-- Every call has forced one login at most. -/
def Sys.ForcesOnce (s : Sys) : Prop := ∀ c ∈ s.calls, c.forced ≤ 1

/-- No call has a login under way while a block of its configuration is in force. -/
def Sys.Quiet (s : Sys) : Prop :=
  ∀ l ∈ s.login, l.caller.isRpc → ∀ g ∈ s.guards, g.1 ≠ l.key

def Sys.NotAboutToExpire (s : Sys) (now : Rat) : Prop :=
  ∀ g ∈ s.guards, g.1 = s.config.key → g.2 ≤ now ∨ now + 1 / 1000 ≤ g.2

/-- No login of the monitor fails on the router's answer while a block of the
configuration is in force, and no other login begins in its last millisecond. -/
def Sys.KeepsBlock (s : Sys) : Event → Prop
  | .login _ now _ | .other now _ => s.NotAboutToExpire now
  | .answer now a => ∀ l ∈ s.login, l.caller = .monitor → a.fails now = true →
      ∀ g ∈ s.guards, g.1 = s.config.key → g.2 ≤ now
  | _ => True

instance (s : Sys) (now : Rat) : Decidable (s.NotAboutToExpire now) := by
  unfold Sys.NotAboutToExpire
  infer_instance

instance (s : Sys) (e : Event) : Decidable (s.KeepsBlock e) := by
  unfold Sys.KeepsBlock
  exact match e with
    | .login .. | .other .. | .answer .. | .call | .send .. | .reply .. | .check .. | .monitor ..
    | .configure .. | .clear => inferInstance

-- ---------------------------------------------------------------------------
-- One forced login
-- ---------------------------------------------------------------------------

variable {s : Sys} {e : Event} {c : Call} {i : Nat} {now : Rat} {cookie : Bool}

def Phase.session? : Phase → Option Session
  | .sent session _ | .rejected session _ => some session
  | _ => none

/-- A call forces a login only while it may log in again. -/
structure Sound (c : Call) : Prop where
  once : c.forced ≤ 1
  fresh : c.retryAuth = true → c.forced = 0
  sid : ∀ session ∈ c.phase.session?, session.sid ≠ ""

theorem Sound.to (h : Sound c) {phase : Phase}
    (hp : ∀ session ∈ phase.session?, session.sid ≠ "") : Sound (c.to phase) :=
  ⟨h.once, h.fresh, hp⟩

theorem Sound.quiet (h : Sound c) {phase : Phase} (hp : phase.session? = none) :
    Sound (c.to phase) :=
  h.to fun session hs => by simp [hp] at hs

theorem Sound.again (h : Sound c) : Sound c.again where
  once := h.once
  fresh hr := by cases hr
  sid session hs := by cases hs

theorem Sound.force (h : Sound c) (hr : c.retryAuth = true) : Sound c.force where
  once := by simp [Call.force, h.fresh hr]
  fresh hr := by cases hr
  sid session hs := by cases hs

def AllSound (s : Sys) : Prop := ∀ c ∈ s.calls, Sound c

theorem AllSound.get (h : AllSound s) (hc : s.calls[i]? = some c) : Sound c :=
  h c (List.mem_of_getElem? hc)

theorem AllSound.setCall (h : AllSound s) (hc : Sound c) : AllSound (s.setCall i c) := by
  intro d hd
  rcases List.mem_or_eq_of_mem_set hd with hd | rfl
  · exact h d hd
  · exact hc

theorem AllSound.loginCall (h : AllSound s) (hc : Sound c) :
    AllSound (s.loginCall i c now cookie) := by
  unfold Sys.loginCall
  split
  · exact h.setCall (hc.quiet rfl)
  · exact h.setCall (hc.quiet rfl)
  · exact h.setCall (hc.quiet rfl)
  · exact h.setCall (i := i) (hc.quiet rfl)

theorem AllSound.checkCall (h : AllSound s) (hc : Sound c) (session : Session) (key : String) :
    AllSound (s.checkCall i c session key now) := by
  unfold Sys.checkCall
  split_ifs with hsame hretry
  · exact h.setCall (i := i) (hc.force hretry)
  · exact h.setCall (i := i) ((hc.force hretry).quiet rfl)
  · exact h.setCall (i := i) (hc.quiet rfl)
  · exact h.setCall hc.again
  · exact h.setCall (hc.quiet rfl)

theorem AllSound.finish (h : AllSound s) (caller : Caller) (result : Option Session) :
    AllSound (s.finish caller result) := by
  unfold Sys.finish
  split
  · split
    · rename_i hc
      refine h.setCall ?_
      split
      · exact (h.get hc).again
      · exact (h.get hc).quiet rfl
    · exact h
  · split
    · rename_i hc
      exact h.setCall ((h.get hc).quiet rfl)
    · exact h
  · exact h
  · exact h

theorem AllSound.endLogin (h : AllSound s) (l : Attempt) (now : Rat) (a : Answer) :
    AllSound (s.endLogin l now a) :=
  AllSound.finish (s := { s with cache := s.answered l.key now a, login := none }) h _ _

theorem AllSound.step (h : AllSound s) (e : Event) : AllSound (s.step e) := by
  cases e with
  | call =>
    intro c hc
    rcases List.mem_append.mp hc with hc | hc
    · exact h c hc
    · obtain rfl := List.mem_singleton.mp hc
      exact ⟨Nat.zero_le 1, fun _ => rfl, fun session hs => by cases hs⟩
  | login i now cookie =>
    simp only [Sys.step]
    split
    · rename_i hc
      split
      · exact AllSound.loginCall (s := s.expire now) h (h.get hc)
      · exact h
    · exact h
  | send i =>
    simp only [Sys.step]
    split
    · rename_i hc
      split
      · refine h.setCall ?_
        split
        · exact (h.get hc).quiet rfl
        · -- the request goes out with a session that has an id
          rename_i session _ hsid
          refine (h.get hc).to fun session' hs => ?_
          obtain rfl := Option.some.inj hs
          rintro hempty
          exact hsid (by rw [hempty]; exact strip_empty)
      · exact h
    · exact h
  | reply i rejected =>
    simp only [Sys.step]
    split
    · rename_i hc
      split
      · rename_i session key hphase
        refine h.setCall ?_
        split
        · refine (h.get hc).to fun session' hs => ?_
          obtain rfl := Option.some.inj hs
          exact (h.get hc).sid _ (by rw [hphase]; rfl)
        · exact (h.get hc).quiet rfl
      · exact h
    · exact h
  | check i now =>
    simp only [Sys.step]
    split
    · rename_i hc
      split
      · exact AllSound.checkCall (s := s.expire now) h (h.get hc) _ _
      · exact h
    · exact h
  | monitor now =>
    simp only [Sys.step]
    split <;> exact h
  | other now cookie =>
    simp only [Sys.step]
    split <;> exact h
  | answer now a =>
    simp only [Sys.step]
    split
    · exact AllSound.endLogin (s := s.expire now) h _ _ _
    · exact h
  | configure config => exact h
  | clear =>
    simp only [Sys.step]
    split <;> exact h

-- ---------------------------------------------------------------------------
-- The block is kept
-- ---------------------------------------------------------------------------

def Free (s : Sys) : Prop := ∀ g ∈ s.guards, g.1 ≠ s.config.key

/-- While a block of the configuration is in force the cache has it and no
session, and only the monitor can be logging in. -/
structure Guarded (s : Sys) : Prop where
  block : ∀ g ∈ s.guards, g.1 = s.config.key → s.cache.blockedConfigKey = g.1 ∧
    g.2 ≤ s.cache.blockedUntil ∧ (s.cache.peek g.1).sid = ""
  key : ∀ l ∈ s.login, s.guards ≠ [] → l.key = s.config.key
  free : ∀ l ∈ s.login, l.caller ≠ .monitor → Free s

theorem guarded_start (config : Config) : Guarded (start config) where
  block g hg := by cases hg
  key l hl := by cases hl
  free l hl := by cases hl

theorem mem_expire {g : String × Rat} : g ∈ (s.expire now).guards ↔ g ∈ s.guards ∧ now < g.2 := by
  simp [Sys.expire]

theorem Guarded.expire (h : Guarded s) (now : Rat) : Guarded (s.expire now) where
  block g hg := h.block g (mem_expire.mp hg).1
  key l hl hne := h.key l hl fun hnil => hne (by simp [Sys.expire, hnil])
  free l hl hm g hg := h.free l hl hm g (mem_expire.mp hg).1

theorem Guarded.begin (h : Guarded s) {caller : Caller} (hf : caller ≠ .monitor → Free s) :
    Guarded (s.begin caller) where
  block := h.block
  key l hl _ := by
    obtain rfl := Option.some.inj hl
    rfl
  free l hl hm := by
    obtain rfl := Option.some.inj hl
    exact hf hm

theorem Free.guarded (h : Free s) (cache : Cache) {login : Option Attempt}
    (hl : ∀ l ∈ login, l.key = s.config.key) :
    Guarded { s with cache := cache, login := login } where
  block g hg hk := absurd hk (h g hg)
  key l hm _ := hl l hm
  free _ _ _ := h

theorem Guarded.unlock (h : Guarded s) : Guarded { s with login := none } where
  block := h.block
  key l hl := by cases hl
  free l hl := by cases hl

theorem guarded_of_nil (h : s.guards = []) : Guarded s where
  block g hg := by simp [h] at hg
  key l _ hne := absurd h hne
  free l _ _ g hg := by simp [h] at hg

theorem retryAfter_pos {c : Cache} {key : String} (hk : c.blockedConfigKey = key)
    (hnow : now + 1 / 1000 ≤ c.blockedUntil) : 0 < c.retryAfter key now := by
  have hone : ((1 : Int) : Rat) ≤ c.blockedUntil - now + 999 / 1000 := by
    push_cast
    linarith
  have hfloor : 1 ≤ (c.blockedUntil - now + 999 / 1000).floor := Rat.le_floor_iff.mpr hone
  have hpos : ¬c.blockedUntil - now + 999 / 1000 < 0 := by
    push_cast at hone
    linarith
  rw [Cache.retryAfter, if_neg (by simp [hk]), truncate, if_neg hpos]
  omega

theorem Guarded.free_of_sent (h : Guarded s) (hexpire : s.NotAboutToExpire now)
    (hsent : s.verdict false now cookie = .sent) : Free (s.expire now) := by
  intro g hg hk
  obtain ⟨hg, hlive⟩ := mem_expire.mp hg
  obtain ⟨hblocked, huntil, -⟩ := h.block g hg hk
  have hnow : now + 1 / 1000 ≤ g.2 := (hexpire g hg hk).resolve_left (not_le.mpr hlive)
  have hpos : 0 < s.cache.retryAfter s.config.key now :=
    retryAfter_pos (hblocked.trans hk) (hnow.trans huntil)
  simp [Sys.verdict, hpos] at hsent

theorem Guarded.free_of_current (h : Guarded s) {session : Session} (hsid : session.sid ≠ "")
    (hcurrent : s.isCurrent session = true) : Free s := by
  intro g hg hk
  obtain ⟨-, -, hempty⟩ := h.block g hg hk
  simp only [Sys.isCurrent, Bool.and_eq_true, beq_iff_eq] at hcurrent
  exact hsid (hcurrent.1.symm.trans (hk ▸ hempty))

theorem Guarded.loginCall (h : Guarded s)
    (hf : s.verdict false now cookie = .sent → Free s) :
    Guarded (s.loginCall i c now cookie) := by
  unfold Sys.loginCall
  split
  · exact ⟨h.block, h.key, h.free⟩
  · exact ⟨h.block, h.key, h.free⟩
  · exact ⟨h.block, h.key, h.free⟩
  · rename_i hsent
    exact Guarded.begin (s := s.setCall i (c.to .loggingIn)) ⟨h.block, h.key, h.free⟩
      fun _ => hf hsent

theorem Guarded.checkCall (h : Guarded s) (hl : s.login = none) {session : Session} (key : String)
    (hsid : session.sid ≠ "") : Guarded (s.checkCall i c session key now) := by
  have hnone : ∀ l, l ∉ s.login := fun l hm => by simp [hl] at hm
  unfold Sys.checkCall
  split_ifs with hcurrent hretry
  · refine Free.guarded (s := s.setCall i c.force) (h.free_of_current hsid hcurrent) {} fun l hm => ?_
    obtain rfl := Option.some.inj hm
    rfl
  · exact Free.guarded (s := s.setCall i (c.force.to .done)) (h.free_of_current hsid hcurrent) {}
      fun l hm => absurd hm (hnone l)
  · -- the block that the cache takes is the only one of its configuration
    have hfree := h.free_of_current hsid hcurrent
    refine ⟨fun g hg hk => ?_, fun l hm => absurd hm (hnone l), fun l hm => absurd hm (hnone l)⟩
    rcases List.mem_append.mp hg with hg | hg
    · exact absurd hk (hfree g hg)
    · obtain rfl := List.mem_singleton.mp hg
      refine ⟨rfl, ?_, ?_⟩
      · simp [Cache.blockLogin, authRetryBackoffSeconds]
      · unfold Cache.peek
        split <;> rfl
  · exact ⟨h.block, h.key, h.free⟩
  · exact ⟨h.block, h.key, h.free⟩

theorem Guarded.finish (h : Guarded s) (caller : Caller) (result : Option Session) :
    Guarded (s.finish caller result) := by
  unfold Sys.finish
  split
  · split
    · exact ⟨h.block, h.key, h.free⟩
    · exact h
  · split
    · exact ⟨h.block, h.key, h.free⟩
    · exact h
  · exact guarded_of_nil rfl
  · exact h

theorem answered_of_not_fails {a : Answer} {key : String} (hfails : a.fails now = false)
    (hresult : (if a.validation = Validation.valid then a.session? now else none) = none) :
    s.answered key now a = s.cache := by
  cases a with
  | unreached => rfl
  | refused => simp [Answer.fails, Answer.session?] at hfails
  | opened sid token seconds validation =>
    simp only [Answer.fails, Bool.or_eq_false_iff, bne_eq_false_iff_eq] at hfails
    rw [if_pos hfails.2] at hresult
    simp [hresult] at hfails

theorem Guarded.endLogin (h : Guarded s) {l : Attempt} (hl : s.login = some l) {a : Answer}
    (hk : l.caller = .monitor → a.fails now = true → Free s) : Guarded (s.endLogin l now a) := by
  unfold Sys.endLogin
  by_cases hfree : Free s
  · exact (hfree.guarded _ fun l hm => by cases hm).finish _ _
  · -- a block is in force, so this is the monitor's login, and it did not fail
    have hmonitor : l.caller = .monitor := by
      by_contra hne
      exact hfree (h.free l hl hne)
    have hfails : a.fails now = false := Bool.eq_false_iff.mpr fun hf => hfree (hk hmonitor hf)
    cases hresult : (if a.validation = Validation.valid then a.session? now else none) with
    | none =>
      rw [answered_of_not_fails hfails hresult]
      exact h.unlock.finish _ _
    | some session =>
      rw [hmonitor]
      exact guarded_of_nil rfl

theorem Guarded.step (h : Guarded s) (hs : AllSound s) (hk : s.KeepsBlock e) :
    Guarded (s.step e) := by
  cases e with
  | call => exact ⟨h.block, h.key, h.free⟩
  | login i now cookie =>
    simp only [Sys.step]
    split
    · split
      · exact (h.expire now).loginCall fun hsent => h.free_of_sent hk hsent
      · exact h
    · exact h
  | send i =>
    simp only [Sys.step]
    split
    · split
      · exact ⟨h.block, h.key, h.free⟩
      · exact h
    · exact h
  | reply i rejected =>
    simp only [Sys.step]
    split
    · split
      · exact ⟨h.block, h.key, h.free⟩
      · exact h
    · exact h
  | check i now =>
    simp only [Sys.step]
    split
    · rename_i hl hc
      split
      · rename_i hphase
        exact (h.expire now).checkCall hl _ ((hs.get hc).sid _ (by rw [hphase]; rfl))
      · exact h
    · exact h
  | monitor now =>
    simp only [Sys.step]
    split
    · exact (h.expire now).begin fun hne => absurd rfl hne
    · exact h
  | other now cookie =>
    simp only [Sys.step]
    split
    · rename_i hsent
      exact (h.expire now).begin fun _ => h.free_of_sent hk hsent
    · exact h
  | answer now a =>
    simp only [Sys.step]
    split
    · rename_i l hl
      refine (h.expire now).endLogin hl fun hm hf g hg hkey => ?_
      obtain ⟨hg, hlive⟩ := mem_expire.mp hg
      exact absurd (hk l hl hm hf g hg hkey) (not_le.mpr hlive)
    · exact h
  | configure config => exact guarded_of_nil rfl
  | clear =>
    simp only [Sys.step]
    split
    · exact guarded_of_nil rfl
    · exact h

theorem Guarded.quiet (h : Guarded s) : s.Quiet := by
  intro l hl hrpc g hg hkey
  have hne : l.caller ≠ .monitor := fun hm => by simp [hm, Caller.isRpc] at hrpc
  exact h.free l hl hne g hg (hkey.trans (h.key l hl (List.ne_nil_of_mem hg)))

theorem forces_once (config : Config) (es : List Event) :
    AllSound (run Sys.step (start config) es) :=
  run_invariant (fun c hc => by cases hc) fun _ e h => h.step e

/-- Every call forces one login at most, and in the runs where no login of
the monitor fails on the router's answer while a block is in force, no call
logs in under a configuration that is blocked. -/
theorem relogin_disciplined (config : Config) (es : List Event) :
    (run Sys.step (start config) es).ForcesOnce ∧
      (Along Sys.step Sys.KeepsBlock (start config) es →
        (run Sys.step (start config) es).Quiet) := by
  refine ⟨fun c hc => (forces_once config es c hc).once, fun hk => ?_⟩
  have hinv := hk.invariant (I := fun s => Guarded s ∧ AllSound s)
    ⟨guarded_start config, fun c hc => by cases hc⟩
    fun s e h he => ⟨h.1.step h.2 he, h.2.step e⟩
  exact hinv.1.quiet

def home : Config := ⟨"home", true⟩

def opened (sid : String) : Answer := .opened sid "token" 3600 .valid

/-- A call that is rejected with its first session and with that of its
forced login, at a time `100`. -/
def rejectedTwice : List Event :=
  [.call, .login 0 90 true, .answer 91 (opened "a"), .send 0, .reply 0 true, .check 0 92,
    .answer 93 (opened "b"), .login 0 94 true, .send 0, .reply 0 true, .check 0 100, .call]

theorem relogin_disciplined_home :
    (run Sys.step (start home)
      (rejectedTwice ++ [.login 1 130 true, .call, .login 2 161 true])).Quiet :=
  (relogin_disciplined home _).2 (by decide +kernel)

/-- A login that the monitor forces and the router refuses ends the block. -/
theorem refusal_ends_block :
    ¬(run Sys.step (start home)
      (rejectedTwice ++ [.monitor 110, .answer 111 .refused, .login 1 112 true])).Quiet := by
  intro h
  exact h ⟨.rpc 1 false, "home"⟩ (by decide +kernel) rfl ("home", 160) (by decide +kernel) rfl

end LabProbe.Router.Login
