import LabProbe.Lib.Register
import LabProbe.WireGuard.System

/-!
# Endpoint profiles as numbered registers

Endpoint updates on the Hub and on the agent act on one profile each, as a
write and as a copy of a numbered register.
-/

namespace LabProbe.WireGuard

open Py Registers
open Rows (updateFirst)

/-- The profile of an id. -/
def profileOf (id : String) (profiles : List Profile) : Option Profile :=
  profiles.find? fun profile => profile.id == id

def Profile.register (p : Profile) : Register String := ⟨p.endpointRevision, p.resolvedEndpoint⟩

def Profile.updater (p : Profile) : String × String := (p.endpointSource, p.owner)

def EndpointUpdate.write (u : EndpointUpdate) : Update String :=
  ⟨u.expectedEndpointRevision, u.endpoint⟩

def registerOf (id : String) (profiles : List Profile) : Option (Register String) :=
  (profileOf id profiles).map Profile.register

def updaterOf (id : String) (profiles : List Profile) : Option (String × String) :=
  (profileOf id profiles).map Profile.updater

-- ---------------------------------------------------------------------------
-- Rewriting one profile
-- ---------------------------------------------------------------------------

variable {p : Profile → Bool} {f : Profile → Profile} {profiles : List Profile}
  {profile : Profile} {id : String} {u : EndpointUpdate}

theorem profileOf_updateFirst (hf : ∀ row, (f row).id = row.id)
    (hfind : profiles.find? p = some profile)
    (hid : ∀ row, row.id = profile.id → p row = true) (id : String) :
    profileOf id (updateFirst p f profiles) =
      if id = profile.id then some (f profile) else profileOf id profiles := by
  induction profiles with
  | nil => simp at hfind
  | cons row profiles ih =>
    unfold updateFirst profileOf
    cases hp : p row with
    | true =>
      rw [List.find?_cons_of_pos hp] at hfind
      obtain rfl := Option.some.inj hfind
      by_cases h : id = row.id
      · simp [h, hf]
      · have h' : row.id ≠ id := fun heq => h heq.symm
        simp [h, h', hf]
    | false =>
      rw [List.find?_cons_of_neg (by simp [hp])] at hfind
      have hrow : row.id ≠ profile.id := fun heq => by simp [hid row heq] at hp
      have hrest := ih hfind
      unfold profileOf at hrest
      by_cases h : row.id = id
      · have h' : id ≠ profile.id := h ▸ hrow
        simp [h, h']
      · simpa [h] using hrest

theorem profileOf_eq (hfind : profiles.find? p = some profile)
    (hid : ∀ row, row.id = profile.id → p row = true) : profileOf profile.id profiles = some profile := by
  induction profiles with
  | nil => simp at hfind
  | cons row profiles ih =>
    unfold profileOf
    cases hp : p row with
    | true =>
      rw [List.find?_cons_of_pos hp] at hfind
      obtain rfl := Option.some.inj hfind
      simp
    | false =>
      rw [List.find?_cons_of_neg (by simp [hp])] at hfind
      have hrow : row.id ≠ profile.id := fun heq => by simp [hid row heq] at hp
      rw [List.find?_cons_of_neg (by simpa using hrow)]
      exact ih hfind

-- ---------------------------------------------------------------------------
-- The agent's copies
-- ---------------------------------------------------------------------------

def deliver (profiles : List Profile) (d : Delivery) : List Profile :=
  match d.action with
  | .endpoint update =>
    match Agent.updated profiles update with
    | .ok profiles => profiles
    | .error _ => profiles
  | _ => profiles

/-- An update whose only obstacle at the agent is the revision it expects. -/
structure Deliverable (profiles : List Profile) (u : EndpointUpdate) : Prop where
  updater : updaterOf u.profileId profiles = some (u.endpointSource, u.owner)
  source : u.endpointSource ≠ "manual"
  owner : u.owner ≠ ""
  endpoint : isBlank u.endpoint = false
  next : u.endpointRevision = u.expectedEndpointRevision + 1
  limit : u.endpointRevision < 2 ^ 64

def Profile.store (u : EndpointUpdate) (p : Profile) : Profile :=
  { p with resolvedEndpoint := u.endpoint, endpointRevision := u.endpointRevision }

theorem store_register (hnext : u.endpointRevision = u.expectedEndpointRevision + 1) (p : Profile) :
    (p.store u).register = u.write.result := by
  simp [Profile.store, Profile.register, Update.result, EndpointUpdate.write, hnext]

theorem updated_eq (hu : Deliverable profiles u) (hp : profileOf u.profileId profiles = some profile) :
    Agent.updated profiles u =
      if profile.register = u.write.result then .ok profiles
      else if profile.register.number = u.write.expected then
        .ok (updateFirst (fun row => row.id == u.profileId) (Profile.store u) profiles)
      else .error "endpoint revision conflict" := by
  obtain ⟨hupdater, hsource, howner, hblank, hnext, hlimit⟩ := hu
  rw [updaterOf, hp, Option.map_some, Option.some.injEq, Profile.updater, Prod.mk.injEq] at hupdater
  obtain ⟨hsource', howner'⟩ := hupdater
  have hread : (asU64 u.expectedEndpointRevision).isSome && (asU64 u.endpointRevision).isSome := by
    rw [asU64, if_pos (by omega), asU64, if_pos hlimit]
    rfl
  have hmin : min (u.expectedEndpointRevision + 1) (2 ^ 64 - 1) = u.expectedEndpointRevision + 1 :=
    Nat.min_eq_left (by omega)
  have hreplay : profile.register = u.write.result ↔
      (profile.endpointRevision = u.endpointRevision && profile.resolvedEndpoint = u.endpoint) := by
    simp [Profile.register, Update.result, EndpointUpdate.write, hnext]
  unfold profileOf at hp
  unfold Agent.updated applyEndpointUpdate
  rw [if_pos hread, hp]
  dsimp only
  rw [if_neg (hsource'.symm ▸ hsource), if_neg (not_not_intro hsource'),
    if_neg (by simp [howner', howner]), hnext, hmin, ← hnext]
  by_cases h : profile.register = u.write.result
  · rw [if_pos (hreplay.mp h), if_pos h]
  · rw [if_neg (mt hreplay.mpr h), if_neg h]
    by_cases h' : profile.endpointRevision = u.expectedEndpointRevision
    · rw [if_neg (not_not_intro h'), if_neg (not_not_intro rfl), if_neg (by simp [hblank])]
      exact (if_pos h').symm
    · rw [if_pos h']
      exact (if_neg h').symm

theorem deliver_eq {d : Delivery} (hd : d.action = .endpoint u) (hu : Deliverable profiles u)
    (id : String) :
    updaterOf id (deliver profiles d) = updaterOf id profiles ∧
      registerOf id (deliver profiles d) = if id = u.profileId then
        (registerOf id profiles).map fun r => r.accept u.write else registerOf id profiles := by
  obtain ⟨profile, hp, -⟩ := Option.map_eq_some_iff.mp hu.updater
  have hpid : profile.id = u.profileId := by simpa using List.find?_some hp
  have hregister : registerOf u.profileId profiles = some profile.register := by
    rw [registerOf, hp, Option.map_some]
  -- a refused or repeated update leaves both
  have hkept : profile.register.accept u.write = profile.register →
      registerOf id profiles = if id = u.profileId then
        (registerOf id profiles).map fun r => r.accept u.write else registerOf id profiles := by
    intro haccept
    split
    · rename_i hid
      rw [hid, hregister, Option.map_some, haccept]
    · rfl
  unfold deliver
  rw [hd]
  dsimp only
  rw [updated_eq hu hp]
  by_cases h : profile.register = u.write.result
  · rw [if_pos h]
    exact ⟨rfl, hkept (if_pos h)⟩
  · rw [if_neg h]
    by_cases h' : profile.register.number = u.write.expected
    · rw [if_pos h']
      have haccept : profile.register.accept u.write = u.write.result := by
        rw [Register.accept, if_neg h, if_pos h']
      have hof := profileOf_updateFirst (p := fun row => row.id == u.profileId)
        (f := Profile.store u) (fun row => rfl) hp (fun row hrow => by simpa [hpid] using hrow) id
      rw [hpid] at hof
      unfold updaterOf registerOf at *
      dsimp only
      rw [hof]
      split
      · rename_i hid
        subst hid
        refine ⟨by rw [hp]; rfl, ?_⟩
        rw [hp, Option.map_some, Option.map_some, Option.map_some, haccept,
          store_register hu.next]
      · exact ⟨rfl, rfl⟩
    · rw [if_neg h']
      exact ⟨rfl, hkept (by rw [Register.accept, if_neg h, if_neg h'])⟩

def writesOf (id : String) (deliveries : List Delivery) : List (Update String) :=
  deliveries.filterMap fun d => match d.action with
    | .endpoint u => if id = u.profileId then some u.write else none
    | _ => none

theorem registerOf_deliver {deliveries : List Delivery}
    (hd : ∀ d ∈ deliveries, ∃ u, d.action = .endpoint u ∧ Deliverable profiles u) (id : String) :
    updaterOf id (deliveries.foldl deliver profiles) = updaterOf id profiles ∧
      registerOf id (deliveries.foldl deliver profiles) =
        (registerOf id profiles).map fun r => r.acceptAll (writesOf id deliveries) := by
  induction deliveries generalizing profiles with
  | nil => simp [writesOf, Register.acceptAll]
  | cons d deliveries ih =>
    obtain ⟨⟨u, hu, hdeliver⟩, hrest⟩ := List.forall_mem_cons.mp hd
    have hstep := deliver_eq hu hdeliver
    have hkept : ∀ d' ∈ deliveries, ∃ u', d'.action = .endpoint u' ∧
        Deliverable (deliver profiles d) u' := by
      intro d' hd'
      obtain ⟨u', hu', h⟩ := hrest d' hd'
      exact ⟨u', hu', { h with updater := (hstep u'.profileId).1.trans h.updater }⟩
    have hnext := ih hkept
    obtain ⟨hupdater, hregister⟩ := hstep id
    rw [List.foldl_cons, hnext.1, hnext.2, hupdater, hregister]
    refine ⟨rfl, ?_⟩
    unfold writesOf Register.acceptAll
    rw [List.filterMap_cons]
    simp only [hu]
    by_cases hid : id = u.profileId
    · simp only [if_pos hid, Option.map_map, List.foldl_cons]
      rfl
    · simp only [if_neg hid]

end LabProbe.WireGuard
