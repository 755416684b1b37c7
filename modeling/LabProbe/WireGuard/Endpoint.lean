import Mathlib.Data.List.Nodup
import LabProbe.WireGuard.Profiles

/-!
# When endpoint updates converge

The Hub replaces an endpoint command that waits for delivery, and the agent
takes an update only at the revision it expects: after a replaced command it
takes none any more. The profiles agree again in the runs where an update is
made only once the agent has received the one before, under the names the
profile has, with an endpoint and a revision the agent takes.
-/

namespace LabProbe.WireGuard

open Py Runs Registers
open Rows (updateFirst)

-- ---------------------------------------------------------------------------
-- The property and the condition
-- ---------------------------------------------------------------------------

def System.hubProfiles (s : System) : List Profile :=
  (s.document.server.map Server.endpointProfiles).getD []

def System.live (s : System) : List (Delivery × Scope) :=
  (s.commands.filter Command.unfinished).map fun c => (c.delivery, c.scope)

/-- The ids of what has reached the agent. -/
def System.received (s : System) : List String :=
  (s.acks.map fun ack => text ack.id) ++ s.inbox.map fun d => text d.id

/-- Where every command is delivered, handled and acknowledged, the agent's
profiles have the endpoints and revisions of the Hub's. -/
def System.Converged (s : System) : Prop := s.live = [] → s.inbox = [] →
  ∀ id, registerOf id s.agent.profiles = registerOf id s.hubProfiles

/-- The start of a run: the agent's profiles agree with the Hub's, and
nothing is on its way. -/
structure System.Synced (s : System) : Prop where
  updaters : ∀ id, updaterOf id s.agent.profiles = updaterOf id s.hubProfiles
  registers : ∀ id, registerOf id s.agent.profiles = registerOf id s.hubProfiles
  live : s.live = []
  inbox : s.inbox = []

/-- The rows a command of the scope pushes out of the table. -/
def System.cutOff (s : System) (router : String) (revision : Nat) (scope : Scope) :
    List Command :=
  let rows := s.commands.filter fun c => !superseded router revision scope c
  rows.take (rows.length + 1 - 500)

section
variable [Unicode]

/-- An update of a profile under the names it has, to an endpoint and a
revision the agent can take, after the agent has received every unfinished
command of the profile, under a fresh id and without pushing an unfinished
command out of the table. -/
def System.Careful (s : System) (id router profileId source owner endpoint : String)
    (profile : Profile) : Prop :=
  (profile.id = profileId ∧ profile.endpointSource = source ∧ profile.owner = owner) ∧
    (resolveEndpoint source endpoint profile.port).toOption.all (fun e => !isBlank e) = true ∧
    profile.endpointRevision + 1 < 2 ^ 64 ∧
    (∀ r ∈ s.live, r.2 = .endpoint profileId → text r.1.id ∈ s.received) ∧
    (∀ r ∈ s.live, text r.1.id ≠ text id) ∧ text id ∉ s.received ∧
    ∀ c ∈ s.cutOff router (profile.endpointRevision + 1) (.endpoint profileId),
      c.unfinished = false

/-- Nobody puts or deletes a server, status reports queue nothing, restarts
lose nothing, and the updates the Hub accepts are careful. -/
def System.KeepsEndpoints (s : System) : Event → Prop
  | .put .. | .delete .. => False
  | .update id router profileId source owner endpoint expected =>
    (updateEndpoint s.document profileId source owner endpoint expected).isOk = true →
      ∀ profile ∈ s.hubProfiles.find? (fun row => text row.id == profileId),
        s.Careful id router profileId source owner endpoint profile
  | .status _ _ revision => statusAction s.document revision = none
  | .restart => s.saved.profiles = s.agent.profiles ∧ s.inbox = []
  | .poll .. | .handle .. | .ack .. | .persist => True

instance (s : System) (id router profileId source owner endpoint : String) (profile : Profile) :
    Decidable (s.Careful id router profileId source owner endpoint profile) := by
  unfold System.Careful
  infer_instance

instance (s : System) (e : Event) : Decidable (s.KeepsEndpoints e) := by
  cases e <;> unfold System.KeepsEndpoints <;> infer_instance

-- ---------------------------------------------------------------------------
-- The invariant
-- ---------------------------------------------------------------------------

omit [Unicode] in
/-- The profiles of the agent once it has handled what it has received. -/
def System.upcoming (s : System) : List Profile := s.inbox.foldl deliver s.agent.profiles

omit [Unicode] in
structure Made (profiles : List Profile) (u : EndpointUpdate) : Prop where
  deliverable : Deliverable profiles u
  issued : ∀ r ∈ registerOf u.profileId profiles, Issued r u.write

omit [Unicode] in
/-- The unfinished command that has not reached the agent brings its profile
up to the Hub's. -/
def System.Awaits (s : System) (id : String) (d : Delivery) : Prop :=
  text d.id ∉ s.received ∧ ∃ u register copy, d.action = .endpoint u ∧ u.profileId = id ∧
    registerOf id s.hubProfiles = some register ∧ registerOf id s.upcoming = some copy ∧
      Behind copy register ∧ u.write.expected + 1 = register.number

omit [Unicode] in
/-- The agent is level with the Hub, or misses a command that waits. -/
structure InStep (s : System) : Prop where
  rows : ∀ r ∈ s.live, ∃ u, r.1.action = .endpoint u ∧ r.2 = .endpoint u.profileId ∧
    Made s.hubProfiles u
  tags : (s.live.map fun r => text r.1.id).Nodup
  inbox : ∀ d ∈ s.inbox, d.action.isServer = false
  updaters : ∀ id, updaterOf id s.upcoming = updaterOf id s.hubProfiles
  registers : ∀ id, registerOf id s.upcoming = registerOf id s.hubProfiles ∨
    ∃ r ∈ s.live, s.Awaits id r.1

variable {s : System}

omit [Unicode] in
theorem System.Synced.inStep (h : s.Synced) : InStep s := by
  obtain ⟨hupdaters, hregisters, hlive, hinbox⟩ := h
  have hupcoming : s.upcoming = s.agent.profiles := by rw [System.upcoming, hinbox]; rfl
  refine ⟨?_, ?_, ?_, hupcoming ▸ hupdaters, fun id => .inl (hupcoming ▸ hregisters id)⟩
  · simp [hlive]
  · simp [hlive]
  · simp [hinbox]

omit [Unicode] in
theorem InStep.converged (h : InStep s) : s.Converged := by
  intro hlive hinbox id
  have hupcoming : s.upcoming = s.agent.profiles := by rw [System.upcoming, hinbox]; rfl
  rcases h.registers id with heq | ⟨r, hr, -⟩
  · rw [← heq, hupcoming]
  · simp [hlive] at hr

-- ---------------------------------------------------------------------------
-- Polls
-- ---------------------------------------------------------------------------

omit [Unicode] in
theorem live_eq_core (s : System) :
    s.live = (s.commands.map Command.core).filterMap fun r => if r.1 then some r.2 else none := by
  unfold System.live
  induction s.commands with
  | nil => rfl
  | cons c commands ih => by_cases hc : c.unfinished = true <;> simp [Command.core, hc, ih]

theorem poll_live (now : Int) (router : String) (limit : Int) (lost : Bool) :
    (s.step (.poll now router limit lost)).live = s.live := by
  rw [live_eq_core, live_eq_core]
  simp only [System.step, agentCommands_core]

omit [Unicode] in
theorem InStep.deliverable (h : InStep s) {r : Delivery × Scope} (hr : r ∈ s.live) :
    ∃ u, r.1.action = .endpoint u ∧ Made s.hubProfiles u ∧ Deliverable s.upcoming u := by
  obtain ⟨u, hu, -, hmade⟩ := h.rows r hr
  refine ⟨u, hu, hmade, { hmade.deliverable with updater := ?_ }⟩
  rw [h.updaters]
  exact hmade.deliverable.updater

omit [Unicode] in
theorem InStep.receive (h : InStep s) {sent : List Delivery}
    (hsent : ∀ d ∈ sent, ∃ r ∈ s.live, r.1 = d) : InStep { s with inbox := s.inbox ++ sent } := by
  have hdeliver : ∀ d ∈ sent, ∃ u, d.action = .endpoint u ∧ Deliverable s.upcoming u := by
    intro d hd
    obtain ⟨r, hr, rfl⟩ := hsent d hd
    obtain ⟨u, hu, -, hdeliver⟩ := h.deliverable hr
    exact ⟨u, hu, hdeliver⟩
  have hwrites : ∀ id, ∀ register ∈ registerOf id s.hubProfiles, ∀ w ∈ writesOf id sent,
      Issued register w := by
    intro id register hregister w hw
    obtain ⟨d, hd, heq⟩ := List.mem_filterMap.mp hw
    obtain ⟨r, hr, rfl⟩ := hsent d hd
    obtain ⟨u, hu, hmade, -⟩ := h.deliverable hr
    rw [hu] at heq
    dsimp only at heq
    split at heq
    · rename_i hid
      cases heq
      exact hmade.issued register (hid ▸ hregister)
    · simp at heq
  have hupcoming : ({ s with inbox := s.inbox ++ sent } : System).upcoming =
      sent.foldl deliver s.upcoming := List.foldl_append ..
  have hhub' : ({ s with inbox := s.inbox ++ sent } : System).hubProfiles = s.hubProfiles := rfl
  have hreceived : ({ s with inbox := s.inbox ++ sent } : System).received =
      s.received ++ sent.map fun d => text d.id := by simp [System.received]
  refine ⟨h.rows, h.tags, ?_, ?_, ?_⟩
  · intro d hd
    rcases List.mem_append.mp hd with hd | hd
    · exact h.inbox d hd
    · obtain ⟨u, hu, -⟩ := hdeliver d hd
      rw [hu]
      rfl
  · intro id
    rw [hupcoming, (registerOf_deliver hdeliver id).1]
    exact h.updaters id
  · intro id
    have hregister := (registerOf_deliver hdeliver id).2
    rw [hupcoming, hregister, hhub']
    rcases h.registers id with hlevel | ⟨r, hr, hout, u, register, copy, hu, rfl, hhub, hcopy, hb, hlast⟩
    · left
      rw [hlevel]
      cases hhub : registerOf id s.hubProfiles with
      | none => rfl
      | some register => rw [Option.map_some, acceptAll_level (hwrites id register hhub)]
    · have hcaught := acceptAll_behind (hwrites _ register hhub) hb
      by_cases hw : ∃ w ∈ writesOf u.profileId sent, w.expected + 1 = register.number
      · left
        rw [hcopy, Option.map_some, hcaught, if_pos hw, hhub]
      · refine .inr ⟨r, hr, ?_, u, register, copy, hu, rfl, hhub, ?_, hb, hlast⟩
        · rw [hreceived, List.mem_append]
          rintro (hin | hin)
          · exact hout hin
          · -- ids tell unfinished commands apart, so the command itself was sent
            obtain ⟨d, hd, htag⟩ := List.mem_map.mp hin
            obtain ⟨r', hr', rfl⟩ := hsent d hd
            obtain rfl := List.inj_on_of_nodup_map h.tags hr' hr htag
            refine hw ⟨u.write, List.mem_filterMap.mpr ⟨r'.1, hd, ?_⟩, hlast⟩
            rw [hu]
            exact if_pos rfl
        · rw [hupcoming, hregister, hcopy, Option.map_some, hcaught, if_neg hw]

omit [Unicode] in
/-- Finishing commands that have reached the agent, and handling what it
has received, leave the invariant. -/
theorem InStep.mono {s' : System} (h : InStep s) (hhub : s'.hubProfiles = s.hubProfiles)
    (hupcoming : s'.upcoming = s.upcoming) (hinbox : s'.inbox ⊆ s.inbox)
    (hreceived : ∀ id, id ∈ s'.received ↔ id ∈ s.received) (hlive : s'.live.Sublist s.live)
    (hkeep : ∀ r ∈ s.live, text r.1.id ∉ s.received → r ∈ s'.live) : InStep s' := by
  obtain ⟨hrows, htags, hin, hupdaters, hregisters⟩ := h
  refine ⟨?_, htags.sublist (hlive.map _), fun d hd => hin d (hinbox hd), ?_, ?_⟩
  · intro r hr
    rw [hhub]
    exact hrows r (hlive.subset hr)
  · rw [hupcoming, hhub]
    exact hupdaters
  · intro id
    rw [hupcoming, hhub]
    refine (hregisters id).imp_right ?_
    rintro ⟨r, hr, hout, hawaits⟩
    refine ⟨r, hkeep r hr hout, mt (hreceived _).mp hout, ?_⟩
    rw [hupcoming, hhub]
    exact hawaits

omit [Unicode] in
theorem InStep.congr {s' : System} (h : InStep s) (hhub : s'.hubProfiles = s.hubProfiles)
    (hupcoming : s'.upcoming = s.upcoming) (hinbox : s'.inbox = s.inbox)
    (hreceived : s'.received = s.received) (hlive : s'.live = s.live) : InStep s' :=
  h.mono hhub hupcoming (hinbox ▸ List.Subset.refl _) (fun _ => hreceived ▸ Iff.rfl)
    (hlive ▸ List.Sublist.refl _) fun _ hr _ => hlive ▸ hr

theorem InStep.poll (h : InStep s) (now : Int) (router : String) (limit : Int) (lost : Bool) :
    InStep (s.step (.poll now router limit lost)) := by
  have hlive := poll_live (s := s) now router limit lost
  cases lost with
  | true => exact h.congr rfl rfl rfl rfl hlive
  | false =>
    have hsent : ∀ d ∈ (agentCommands now router limit s.commands).1.map Command.delivery,
        ∃ r ∈ s.live, r.1 = d := by
      intro d hd
      obtain ⟨c, hc, hu, rfl⟩ := sent_core hd
      exact ⟨(c.delivery, c.scope), List.mem_map_of_mem (List.mem_filter.mpr ⟨hc, hu⟩), rfl⟩
    exact (h.receive hsent).congr rfl rfl rfl rfl hlive

-- ---------------------------------------------------------------------------
-- Handling and acknowledging
-- ---------------------------------------------------------------------------

omit [Unicode] in
theorem handle_profiles (a : Agent) {c : Delivery} (hc : c.action.isServer = false) (works : Bool) :
    (a.handle c works).1.profiles = deliver a.profiles c := by
  unfold Agent.handle deliver
  split
  · split <;> simp_all
  · rename_i action haction
    cases hc' : c.action with
    | endpoint update => exact absurd hc' (haction update)
    | _ => simp [hc', Action.isServer] at hc

omit [Unicode] in
theorem InStep.handle (h : InStep s) (works : Bool) : InStep (s.handle works) := by
  unfold System.handle
  split
  · exact h
  · rename_i c inbox hinbox
    have hc := h.inbox c (hinbox ▸ List.mem_cons_self)
    refine h.mono rfl ?_ ?_ ?_ (List.Sublist.refl _) fun r hr _ => hr
    · simp only [System.upcoming, hinbox, List.foldl_cons, handle_profiles s.agent hc works]
    · rw [hinbox]
      exact List.subset_cons_self _ _
    · intro id
      simp [System.received, hinbox]

theorem ack_live (s : System) (acks : List Ack) :
    (s.step (.ack acks)).live.Sublist s.live := by
  change (((s.commands.map (ackCommand (s.sendable acks))).filter _).map _).Sublist
    ((s.commands.filter _).map _)
  induction s.commands with
  | nil => exact List.Sublist.slnil
  | cons c commands ih =>
    rw [List.map_cons, List.filter_cons]
    split
    · rename_i hu
      rcases ackCommand_cases (s.sendable acks) c with heq | ⟨-, -, hfinished, -⟩
      · rw [heq] at hu ⊢
        rw [List.filter_cons_of_pos hu]
        exact ih.cons_cons _
      · simp [hfinished] at hu
    · exact ih.trans ((List.sublist_cons_self _ _).filter _ |>.map _)

theorem InStep.ack (h : InStep s) (acks : List Ack) : InStep (s.step (.ack acks)) := by
  refine h.mono rfl rfl (List.Subset.refl _) (fun _ => Iff.rfl) (ack_live s acks) ?_
  intro r hr hout
  obtain ⟨c, hc, rfl⟩ := List.mem_map.mp hr
  obtain ⟨hc, hu⟩ := List.mem_filter.mp hc
  rcases ackCommand_cases (s.sendable acks) c with heq | ⟨-, -, -, ack, hack, htag⟩
  · refine List.mem_map_of_mem (List.mem_filter.mpr ⟨?_, hu⟩)
    exact heq ▸ List.mem_map_of_mem (f := ackCommand (s.sendable acks)) hc
  · have hmade : ack ∈ s.acks := by simpa using (List.mem_filter.mp hack).2
    exact absurd (List.mem_append_left _ (htag ▸ List.mem_map_of_mem hmade)) hout

-- ---------------------------------------------------------------------------
-- Updates
-- ---------------------------------------------------------------------------

section
variable {id router : String} {action : Action} {revision : Nat} {scope : Scope}

omit [Unicode] in
theorem queue_live {s' : System}
    (hc : s'.commands = queue id router action revision scope s.commands) :
    s'.live.Sublist (s.live ++ [(⟨id, action, revision⟩, scope)]) := by
  unfold System.live
  rw [hc, queue]
  refine (((Logs.cap_suffix _ _).sublist.filter _).map _).trans ?_
  rw [List.filter_append, List.map_append]
  exact ((List.filter_sublist.filter _).map _).append (List.Sublist.refl _)

omit [Unicode] in
theorem queued_live {s' : System}
    (hc : s'.commands = queue id router action revision scope s.commands) :
    (⟨id, action, revision⟩, scope) ∈ s'.live := by
  refine List.mem_map.mpr ⟨{ id := id, router := router, action := action, revision := revision
                             scope := scope }, List.mem_filter.mpr ⟨?_, rfl⟩, rfl⟩
  rw [hc, queue]
  exact (Logs.suffix_cap (List.suffix_append _ _) (by simp)).subset (List.mem_singleton_self _)

omit [Unicode] in
theorem other_live {s' : System}
    (hc : s'.commands = queue id router action revision scope s.commands)
    (hcut : ∀ c ∈ s.cutOff router revision scope, c.unfinished = false)
    {r : Delivery × Scope} (hr : r ∈ s.live) (hunscoped : r.2 ≠ .unscoped) (hscope : r.2 ≠ scope) :
    r ∈ s'.live := by
  obtain ⟨c, hmem, rfl⟩ := List.mem_map.mp hr
  obtain ⟨hmem, hu⟩ := List.mem_filter.mp hmem
  have hkept : c ∈ s.commands.filter fun c => !superseded router revision scope c := by
    refine List.mem_filter.mpr ⟨hmem, ?_⟩
    dsimp only at hunscoped hscope
    simp [superseded, hunscoped, hscope]
  refine List.mem_map_of_mem (List.mem_filter.mpr ⟨?_, hu⟩)
  rw [hc, queue]
  refine Logs.mem_cap_of_mem (List.mem_append_left _ hkept) fun hout => ?_
  rw [List.length_append, List.length_singleton,
    List.take_append_of_le_length (by omega)] at hout
  simp [hcut c hout] at hu

end

omit [Unicode] in
theorem profileOf_renew {server : Server} {profileId : String} {profile : Profile}
    (hfind : server.endpointProfiles.find? (fun row => text row.id == profileId) = some profile)
    (hid : profile.id = profileId) (endpoint id : String) :
    profileOf profileId server.endpointProfiles = some profile ∧
      profileOf id (server.renew profileId endpoint).endpointProfiles =
        if id = profileId then some (profile.renew endpoint)
        else profileOf id server.endpointProfiles := by
  have htext : text profile.id = profileId := by simpa using List.find?_some hfind
  subst hid
  have hrow : ∀ row : Profile, row.id = profile.id → (text row.id == profile.id) = true :=
    fun row hrow => by simpa [hrow] using htext
  exact ⟨profileOf_eq hfind hrow,
    profileOf_updateFirst (f := Profile.renew endpoint) (fun row => rfl) hfind hrow id⟩

omit [Unicode] in
/-- A write on the Hub, queued once the agent has received what was queued
for the profile before. -/
theorem InStep.write {s' : System} {id router : String} {u : EndpointUpdate} (h : InStep s)
    (register : Register String)
    (hcommands : s'.commands = queue id router (.endpoint u) u.endpointRevision
      (.endpoint u.profileId) s.commands)
    (hupcoming : s'.upcoming = s.upcoming) (hinbox : s'.inbox = s.inbox)
    (hreceived : s'.received = s.received)
    (hupdaters : ∀ id, updaterOf id s'.hubProfiles = updaterOf id s.hubProfiles)
    (hother : ∀ id, id ≠ u.profileId → registerOf id s'.hubProfiles = registerOf id s.hubProfiles)
    (hold : registerOf u.profileId s.hubProfiles = some register)
    (hnumber : register.number = u.write.expected)
    (hnew : registerOf u.profileId s'.hubProfiles = some u.write.result)
    (hdeliverable : Deliverable s'.hubProfiles u)
    (hbefore : ∀ r ∈ s.live, r.2 = .endpoint u.profileId → text r.1.id ∈ s.received)
    (hfresh : ∀ r ∈ s.live, text r.1.id ≠ text id) (hunseen : text id ∉ s.received)
    (hcut : ∀ c ∈ s.cutOff router u.endpointRevision (.endpoint u.profileId),
      c.unfinished = false) : InStep s' := by
  have hsub := queue_live hcommands
  have hraised : u.write.result.number = register.number + 1 := by rw [hnumber]; rfl
  refine ⟨?_, ?_, hinbox ▸ h.inbox, fun id => ?_, fun id' => ?_⟩
  · intro r hr
    rcases List.mem_append.mp (hsub.subset hr) with hr | hr
    · obtain ⟨u', hu', hscope, hmade⟩ := h.rows r hr
      refine ⟨u', hu', hscope, { hmade.deliverable with updater := ?_ }, ?_⟩
      · exact (hupdaters _).trans hmade.deliverable.updater
      · intro register' hregister'
        by_cases hid : u'.profileId = u.profileId
        · rw [hid] at hregister'
          obtain rfl := Option.some.inj (hregister'.symm.trans hnew)
          exact (hmade.issued register (hid ▸ hold)).write hraised
        · exact hmade.issued register' ((hother _ hid).symm.trans hregister')
    · obtain rfl := List.mem_singleton.mp hr
      refine ⟨u, rfl, rfl, hdeliverable, fun register' hregister' => ?_⟩
      obtain rfl := Option.some.inj (hregister'.symm.trans hnew)
      exact ⟨Nat.le_refl _, fun _ => rfl⟩
  · refine List.Nodup.sublist (hsub.map _) ?_
    rw [List.map_append, List.map_singleton, List.nodup_append]
    refine ⟨h.tags, List.nodup_singleton _, ?_⟩
    rintro tag htag tag' htag' rfl
    obtain ⟨r, hr, rfl⟩ := List.mem_map.mp htag
    exact hfresh r hr (List.mem_singleton.mp htag')
  · rw [hupcoming, hupdaters]
    exact h.updaters id
  · unfold System.Awaits
    rw [hupcoming, hreceived]
    by_cases hmine : id' = u.profileId
    · subst hmine
      -- the agent is level with the register before the write
      have hlevel : registerOf u.profileId s.upcoming = some register := by
        rw [← hold]
        refine (h.registers u.profileId).resolve_right ?_
        rintro ⟨r, hr, hout, u', -, -, hu', hid, -⟩
        obtain ⟨u'', hu'', hscope, -⟩ := h.rows r hr
        obtain rfl : u' = u'' := by simpa [hu'] using hu''
        exact hout (hbefore r hr (hid ▸ hscope))
      exact .inr ⟨(⟨id, .endpoint u, u.endpointRevision⟩, .endpoint u.profileId),
        queued_live hcommands, hunseen, u, u.write.result, register, rfl, rfl, hnew, hlevel,
        hraised.symm, rfl⟩
    · refine (h.registers id').imp (fun heq => heq.trans (hother id' hmine).symm) ?_
      rintro ⟨r, hr, hout, u', register', copy, hu', rfl, hregister', hrest⟩
      obtain ⟨u'', hu'', hscope, -⟩ := h.rows r hr
      obtain rfl : u' = u'' := by simpa [hu'] using hu''
      have hlive := other_live hcommands hcut hr (by simp [hscope]) (by simpa [hscope] using hmine)
      exact ⟨r, hlive, hout, u', register', copy, hu', rfl, (hother _ hmine).trans hregister', hrest⟩

theorem InStep.update (h : InStep s) {id router profileId source owner endpoint : String}
    {expected : Option Int}
    (hk : s.KeepsEndpoints (.update id router profileId source owner endpoint expected)) :
    InStep (s.step (.update id router profileId source owner endpoint expected)) := by
  cases hupdate : updateEndpoint s.document profileId source owner endpoint expected with
  | error message => simpa only [System.step, hupdate] using h
  | ok result =>
    obtain ⟨document, u⟩ := result
    simp only [System.KeepsEndpoints, hupdate, Except.isOk, Except.toBool, forall_const] at hk
    simp only [System.step, hupdate]
    obtain ⟨server, profile, resolved, hserver, hfind, hmanual, howner, hresolve, rfl, rfl⟩ :=
      updateEndpoint_ok hupdate
    have hhub : s.hubProfiles = server.endpointProfiles := by simp [System.hubProfiles, hserver]
    obtain ⟨⟨hid, rfl, rfl⟩, hblank, hlimit, hreceived, hfresh, hnew, hcut⟩ :=
      hk profile (hhub ▸ hfind)
    have hprofile := (profileOf_renew hfind hid resolved profileId).1
    have hof := fun id => (profileOf_renew hfind hid resolved id).2
    have hupdaters : ∀ id, updaterOf id (server.renew profileId resolved).endpointProfiles =
        updaterOf id server.endpointProfiles := by
      intro id
      rw [updaterOf, updaterOf, hof]
      split
      · rename_i hmine
        rw [hmine, hprofile]
        rfl
      · rfl
    generalize hc : queue id router _ _ _ s.commands = commands
    refine h.write profile.register hc.symm rfl rfl rfl (hhub ▸ hupdaters) ?_ ?_ rfl ?_ ?_
      hreceived hfresh hnew hcut
    · intro id hne
      rw [hhub]
      exact congrArg (Option.map Profile.register) ((hof id).trans (if_neg hne))
    · rw [hhub]
      exact congrArg (Option.map Profile.register) hprofile
    · exact congrArg (Option.map Profile.register) ((hof profileId).trans (if_pos rfl))
    · refine ⟨?_, ?_, howner, ?_, rfl, hlimit⟩
      · exact (hupdaters profileId).trans (congrArg (Option.map Profile.updater) hprofile)
      · exact fun heq => hmanual (by rw [show profile.endpointSource = "manual" from heq]; decide)
      · simpa [hresolve, Except.toOption] using hblank

theorem InStep.step {e : Event} (h : InStep s) (hk : s.KeepsEndpoints e) : InStep (s.step e) := by
  cases e with
  | put | delete => exact hk.elim
  | update id router profileId source owner endpoint expected => exact h.update hk
  | status id router revision =>
    have hnone : statusAction s.document revision = none := hk
    simpa only [System.step, hnone] using h
  | poll now router limit lost => exact h.poll now router limit lost
  | handle works => exact h.handle works
  | ack acks => exact h.ack acks
  | persist => exact h.congr rfl rfl rfl rfl rfl
  | restart =>
    obtain ⟨hprofiles, hinbox⟩ := hk
    refine h.congr rfl ?_ hinbox.symm ?_ rfl
    · simp only [System.step, System.upcoming, hprofiles, hinbox]
    · simp only [System.step, System.received, hinbox]

/-- In the runs with careful updates, the profiles agree wherever everything
queued is delivered, handled and acknowledged. -/
theorem endpoint_converges (hs : s.Synced) (es : List Event)
    (hk : Along System.step System.KeepsEndpoints s es) :
    Along System.step (fun s e => (s.step e).Converged) s es :=
  hk.mono hs.inStep (fun _ _ h hk => h.step hk) fun _ _ h hk => (h.step hk).converged

end

section
local instance asciiEndpoints : Unicode := .ascii

def homeProfile : Profile := ⟨"home", "ddns", "ddns:home", 51820, 0, ""⟩

/-- A server with one DDNS profile, applied by the agent. -/
def homeSystem : System where
  document := { revision := 1, server := some ⟨"labwg0", [homeProfile], 1⟩ }
  agent := { revision := 1, interface := "labwg0", profiles := [homeProfile] }
  saved := { revision := 1, interface := "labwg0", profiles := [homeProfile] }

def homeUpdate (id endpoint : String) (expected : Int) : Event :=
  .update id "router" "home" "ddns" "ddns:home" endpoint (some expected)

theorem homeSystem_synced : homeSystem.Synced := ⟨fun _ => rfl, fun _ => rfl, rfl, rfl⟩

/-- The second update is made once the first has been received. -/
theorem endpoint_converges_home :
    Along System.step (fun s e => (s.step e).Converged) homeSystem
      [homeUpdate "wg-1" "a.example" 0, .poll 0 "router" 10 false, homeUpdate "wg-2" "b.example" 1,
        .handle true, .poll 1 "router" 10 false, .handle true,
        .ack [⟨"wg-1", true⟩, ⟨"wg-2", true⟩]] :=
  endpoint_converges homeSystem_synced _ (by decide)

/-- The second update replaces the first before it is delivered, and the
agent refuses it. -/
theorem endpoint_diverges_home :
    ¬ Along System.step (fun s e => (s.step e).Converged) homeSystem
      [homeUpdate "wg-1" "a.example" 0, homeUpdate "wg-2" "b.example" 1,
        .poll 0 "router" 10 false, .handle true, .ack [⟨"wg-2", false⟩]] := by
  rintro ⟨-, -, -, -, hconverged, -⟩
  have hsame := hconverged (by decide) (by decide) "home"
  exact absurd hsame (by decide)

end

end LabProbe.WireGuard
