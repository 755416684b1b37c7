import LabProbe.WireGuard.Protocol

/-!
# Endpoint updates on the agent

`apply_endpoint_update` over all fields of a profile and revisions of 64 bits.
An update is refused, repeats what the profile holds, or replaces the resolved
endpoint and the revision of the first profile of its id. The revision is
compared with the saturating successor of the expected one, which at the top of
the range is the expected one itself.
-/

namespace LabProbe.WireGuard.Updates

open Rows (updateFirst)

structure WireGuardEndpointProfile where
  id : String
  endpointSource : String
  owner : String := ""
  hostname : String := ""
  publicEndpoint : String := ""
  resolvedEndpoint : String := ""
  stunRuleId : String := ""
  bindingMode : String := ""
  forwardMode : String := ""
  transportProtocol : String := ""
  localTargetPort : UInt16 := 0
  port : UInt16 := 0
  endpointRevision : UInt64 := 0
  deriving DecidableEq

structure WireGuardEndpointUpdate where
  profileId : String
  endpointSource : String
  owner : String
  endpoint : String
  expectedEndpointRevision : UInt64
  endpointRevision : UInt64
  deriving DecidableEq

def saturatingAdd (a b : UInt64) : UInt64 := .ofNat (min (a.toNat + b.toNat) (2 ^ 64 - 1))

/-- The profile that has been found: the answer, and the profile behind the
reference. -/
def updateFound (profile : WireGuardEndpointProfile) (update : WireGuardEndpointUpdate) :
    Except String WireGuardEndpointProfile × WireGuardEndpointProfile :=
  if profile.endpointSource = "manual" then
    (.error "manual endpoint profile cannot be changed by an automatic updater", profile)
  else if profile.endpointSource ≠ update.endpointSource then
    (.error "endpoint updater source does not match profile", profile)
  else if profile.owner.isEmpty || profile.owner ≠ update.owner then
    (.error "endpoint updater owner does not match profile", profile)
  else if profile.endpointRevision = update.endpointRevision &&
      profile.resolvedEndpoint = update.endpoint then (.ok profile, profile)
  else if profile.endpointRevision ≠ update.expectedEndpointRevision then
    (.error "endpoint revision conflict", profile)
  else if update.endpointRevision ≠ saturatingAdd update.expectedEndpointRevision 1 then
    (.error "endpoint revision must advance exactly once", profile)
  else if isBlank update.endpoint then (.error "endpoint cannot be empty", profile)
  else
    let profile := { profile with resolvedEndpoint := update.endpoint
                                  endpointRevision := update.endpointRevision }
    (.ok profile, profile)

def addressed (update : WireGuardEndpointUpdate) (profile : WireGuardEndpointProfile) : Bool :=
  profile.id == update.profileId

/-- `apply_endpoint_update`: the answer, and the profiles after it. -/
def applyEndpointUpdate (profiles : List WireGuardEndpointProfile)
    (update : WireGuardEndpointUpdate) :
    Except String WireGuardEndpointProfile × List WireGuardEndpointProfile :=
  match profiles.find? (addressed update) with
  | none => (.error "endpoint profile not found", profiles)
  | some profile =>
    ((updateFound profile update).1,
      updateFirst (addressed update) (fun profile => (updateFound profile update).2) profiles)

-- ---------------------------------------------------------------------------
-- What an update can do
-- ---------------------------------------------------------------------------

section

variable {profiles : List WireGuardEndpointProfile} {update : WireGuardEndpointUpdate}
  {profile : WireGuardEndpointProfile}

def Owned (update : WireGuardEndpointUpdate) (profile : WireGuardEndpointProfile) : Prop :=
  profile.endpointSource ≠ "manual" ∧ profile.endpointSource = update.endpointSource ∧
    profile.owner ≠ "" ∧ profile.owner = update.owner

def Holds (update : WireGuardEndpointUpdate) (profile : WireGuardEndpointProfile) : Prop :=
  profile.endpointRevision = update.endpointRevision ∧ profile.resolvedEndpoint = update.endpoint

@[simp]
theorem toNat_saturatingAdd (a b : UInt64) :
    (saturatingAdd a b).toNat = min (a.toNat + b.toNat) (2 ^ 64 - 1) := by
  have hlt : min (a.toNat + b.toNat) (2 ^ 64 - 1) < UInt64.size := by
    have := Nat.min_le_right (a.toNat + b.toNat) (2 ^ 64 - 1)
    simp only [UInt64.size]
    omega
  exact UInt64.toNat_ofNat_of_lt' hlt

theorem updateFound_cases (update : WireGuardEndpointUpdate) (profile : WireGuardEndpointProfile) :
    (∃ message, updateFound profile update = (.error message, profile)) ∨
      (Owned update profile ∧ Holds update profile ∧
        updateFound profile update = (.ok profile, profile)) ∨
      ∃ profile', profile' = { profile with resolvedEndpoint := update.endpoint
                                            endpointRevision := update.endpointRevision } ∧
        Owned update profile ∧ ¬ Holds update profile ∧
        profile.endpointRevision = update.expectedEndpointRevision ∧
        update.endpointRevision = saturatingAdd update.expectedEndpointRevision 1 ∧
        isBlank update.endpoint = false ∧
        updateFound profile update = (.ok profile', profile') := by
  unfold updateFound
  split
  · exact .inl ⟨_, rfl⟩
  · rename_i hmanual
    split
    · exact .inl ⟨_, rfl⟩
    · rename_i hsource
      split
      · exact .inl ⟨_, rfl⟩
      · rename_i howner
        have howned : Owned update profile := by
          simp at howner
          exact ⟨hmanual, not_not.mp hsource, howner.1, howner.2⟩
        split
        · rename_i hholds
          simp at hholds
          exact .inr (.inl ⟨howned, hholds, rfl⟩)
        · rename_i hholds
          split
          · exact .inl ⟨_, rfl⟩
          · rename_i hexpected
            split
            · exact .inl ⟨_, rfl⟩
            · rename_i hnext
              split
              · exact .inl ⟨_, rfl⟩
              · rename_i hblank
                refine .inr (.inr ⟨_, rfl, howned, ?_, not_not.mp hexpected, not_not.mp hnext,
                  ?_, rfl⟩)
                · simpa [Holds] using hholds
                · simpa using hblank

theorem applyEndpointUpdate_none (h : profiles.find? (addressed update) = none) :
    applyEndpointUpdate profiles update = (.error "endpoint profile not found", profiles) := by
  simp [applyEndpointUpdate, h]

theorem applyEndpointUpdate_some (h : profiles.find? (addressed update) = some profile) :
    ∃ i, profiles[i]? = some profile ∧
      (∀ j < i, ∀ q, profiles[j]? = some q → addressed update q = false) ∧
      applyEndpointUpdate profiles update =
        ((updateFound profile update).1, profiles.set i (updateFound profile update).2) := by
  obtain ⟨i, hi, hfirst, hset⟩ :=
    Rows.updateFirst_eq_set (f := fun profile => (updateFound profile update).2) h
  exact ⟨i, hi, hfirst, by simp [applyEndpointUpdate, h, hset]⟩

theorem applyEndpointUpdate_answer (h : profiles.find? (addressed update) = some profile) :
    (applyEndpointUpdate profiles update).1 = (updateFound profile update).1 := by
  obtain ⟨i, -, -, happly⟩ := applyEndpointUpdate_some h
  rw [happly]

-- ---------------------------------------------------------------------------
-- The contract
-- ---------------------------------------------------------------------------

def Replayed (profiles : List WireGuardEndpointProfile) (update : WireGuardEndpointUpdate)
    (answer : WireGuardEndpointProfile) : Prop :=
  profiles.find? (addressed update) = some answer ∧ Holds update answer ∧
    (applyEndpointUpdate profiles update).2 = profiles

/-- The answer replaces the first profile of the id, which differs from it in
the resolved endpoint and the revision only and is one revision behind. -/
def Advanced (profiles : List WireGuardEndpointProfile) (update : WireGuardEndpointUpdate)
    (answer : WireGuardEndpointProfile) : Prop :=
  ∃ i profile, profiles.find? (addressed update) = some profile ∧ profiles[i]? = some profile ∧
    (∀ j < i, ∀ q, profiles[j]? = some q → addressed update q = false) ∧
    answer = { profile with resolvedEndpoint := update.endpoint
                            endpointRevision := update.endpointRevision } ∧
    answer.endpointRevision.toNat = profile.endpointRevision.toNat + 1 ∧
    (applyEndpointUpdate profiles update).2 = profiles.set i answer

/-- What the callers rely on, for the profiles of other updaters (`kept`) too. -/
structure Contract (profiles : List WireGuardEndpointProfile) (update : WireGuardEndpointUpdate) :
    Prop where
  refused : ∀ message, (applyEndpointUpdate profiles update).1 = .error message →
    (applyEndpointUpdate profiles update).2 = profiles
  taken : ∀ answer, (applyEndpointUpdate profiles update).1 = .ok answer →
    Replayed profiles update answer ∨ Advanced profiles update answer
  kept : ∀ (i : Nat) profile, profiles[i]? = some profile → ¬ Owned update profile →
    (applyEndpointUpdate profiles update).2[i]? = some profile

/-- Another endpoint for a profile of the updater, at the last revision. -/
def AtLastRevision (update : WireGuardEndpointUpdate) (profile : WireGuardEndpointProfile) : Prop :=
  Owned update profile ∧ profile.endpointRevision.toNat = 2 ^ 64 - 1 ∧
    update.expectedEndpointRevision.toNat = 2 ^ 64 - 1 ∧
    update.endpointRevision.toNat = 2 ^ 64 - 1 ∧
    profile.resolvedEndpoint ≠ update.endpoint ∧ isBlank update.endpoint = false

theorem updateFound_atLastRevision (h : AtLastRevision update profile) :
    (updateFound profile update).1 =
      .ok { profile with resolvedEndpoint := update.endpoint
                         endpointRevision := update.endpointRevision } := by
  obtain ⟨⟨hmanual, hsource, howner, hsame⟩, hlast, hexpected, hnext, hother, hblank⟩ := h
  have hrevision : profile.endpointRevision = update.expectedEndpointRevision :=
    UInt64.toNat_inj.mp (hlast.trans hexpected.symm)
  have hadd : update.endpointRevision = saturatingAdd update.expectedEndpointRevision 1 :=
    UInt64.toNat_inj.mp (by simp [hnext, hexpected])
  rw [hsource] at hmanual
  rw [hsame] at howner
  simp [updateFound, hmanual, hsource, howner, hsame, hother, hrevision, ← hadd, hblank]

theorem toNat_succ (h : update.endpointRevision = saturatingAdd update.expectedEndpointRevision 1)
    (hrevision : profile.endpointRevision = update.expectedEndpointRevision)
    (hlast : profile.endpointRevision.toNat ≠ 2 ^ 64 - 1) :
    update.endpointRevision.toNat = profile.endpointRevision.toNat + 1 := by
  have hlt := profile.endpointRevision.toNat_lt
  rw [h, ← hrevision, toNat_saturatingAdd]
  simp
  omega

/-- A write at the place of a profile of the updater, or one that changes
nothing, keeps the other profiles. -/
theorem kept_of_set {i : Nat} {profile' : WireGuardEndpointProfile}
    (hi : profiles[i]? = some profile) (h : Owned update profile ∨ profile' = profile) :
    ∀ (j : Nat) q, profiles[j]? = some q → ¬ Owned update q →
      (profiles.set i profile')[j]? = some q := by
  rintro j q hj hq
  by_cases hij : i = j
  · subst hij
    obtain rfl : profile = q := by simpa [hi] using hj
    obtain rfl := h.resolve_left hq
    rwa [Rows.set_same hi]
  · rwa [List.getElem?_set_ne hij]

/-- **The contract of an endpoint update.** It holds if and only if the update
does not bring another endpoint to a profile at the last revision. -/
theorem contract_iff (profiles : List WireGuardEndpointProfile) (update : WireGuardEndpointUpdate) :
    Contract profiles update ↔
      ∀ profile, profiles.find? (addressed update) = some profile →
        ¬ AtLastRevision update profile := by
  constructor
  · rintro hcontract profile hfind hlast
    have hanswer : (applyEndpointUpdate profiles update).1 = _ :=
      (applyEndpointUpdate_answer hfind).trans (updateFound_atLastRevision hlast)
    obtain ⟨-, hrevision, -, hnext, hother, -⟩ := hlast
    rcases hcontract.taken _ hanswer with ⟨hsame, -, -⟩ | ⟨i, old, hold, -, -, -, hstep, -⟩
    · rw [hfind, Option.some.injEq] at hsame
      exact hother (congrArg WireGuardEndpointProfile.resolvedEndpoint hsame)
    · obtain rfl : profile = old := by simpa [hfind] using hold
      simp [hnext, hrevision] at hstep
  · rintro h
    cases hfind : profiles.find? (addressed update) with
    | none =>
      have happly := applyEndpointUpdate_none hfind
      exact ⟨by simp [happly], by simp [happly], by simp +contextual [happly]⟩
    | some profile =>
      obtain ⟨i, hi, hfirst, happly⟩ := applyEndpointUpdate_some hfind
      rcases updateFound_cases update profile with
        ⟨message, hu⟩ | ⟨howned, hholds, hu⟩ |
        ⟨profile', hnew, howned, hholds, hrevision, hnext, hblank, hu⟩
      · rw [hu] at happly
        refine ⟨?_, by simp [happly], ?_⟩
        · simp [happly, Rows.set_same hi]
        · simpa [happly] using kept_of_set hi (.inr rfl)
      · rw [hu] at happly
        refine ⟨by simp [happly], ?_, ?_⟩
        · rintro answer hanswer
          obtain rfl : profile = answer := by simpa [happly] using hanswer
          exact .inl ⟨hfind, hholds, by simp [happly, Rows.set_same hi]⟩
        · simpa [happly] using kept_of_set hi (.inl howned)
      · rw [hu] at happly
        refine ⟨by simp [happly], ?_, ?_⟩
        · rintro answer hanswer
          obtain rfl : profile' = answer := by simpa [happly] using hanswer
          have hlast : profile.endpointRevision.toNat ≠ 2 ^ 64 - 1 := by
            rintro hlast
            refine h profile hfind ⟨howned, hlast, hrevision ▸ hlast, ?_, ?_, hblank⟩
            · simp [hnext, ← hrevision, hlast]
            · rintro hsame
              refine hholds ⟨UInt64.toNat_inj.mp ?_, hsame⟩
              simp [hnext, ← hrevision, hlast]
          refine .inr ⟨i, profile, hfind, hi, hfirst, hnew, ?_, by simp [happly]⟩
          rw [hnew]
          exact toNat_succ hnext hrevision hlast
        · simpa [happly] using kept_of_set hi (.inl howned)

end

def homeProfile : WireGuardEndpointProfile :=
  { id := "home", endpointSource := "ddns", owner := "ddns:home", port := 51820
    resolvedEndpoint := "203.0.113.7:51820", endpointRevision := 0xffffffffffffffff }

/-- The endpoint has moved, at the last revision. -/
def moved : WireGuardEndpointUpdate :=
  ⟨"home", "ddns", "ddns:home", "203.0.113.8:51820", 0xffffffffffffffff, 0xffffffffffffffff⟩

theorem not_contract_moved :
    applyEndpointUpdate [homeProfile] moved =
      (.ok { homeProfile with resolvedEndpoint := "203.0.113.8:51820" },
        [{ homeProfile with resolvedEndpoint := "203.0.113.8:51820" }]) ∧
      ¬ Contract [homeProfile] moved := by
  have happly : applyEndpointUpdate [homeProfile] moved =
      (.ok { homeProfile with resolvedEndpoint := "203.0.113.8:51820" },
        [{ homeProfile with resolvedEndpoint := "203.0.113.8:51820" }]) := by decide +kernel
  refine ⟨happly, fun hcontract => ?_⟩
  rcases hcontract.taken _ (congrArg Prod.fst happly) with
    ⟨-, -, hsame⟩ | ⟨i, profile, hfind, -, -, -, hstep, -⟩
  · rw [happly] at hsame
    simp [homeProfile] at hsame
  · obtain rfl : homeProfile = profile := by simpa [addressed, homeProfile, moved] using hfind
    simp at hstep

-- ---------------------------------------------------------------------------
-- The control plane's agent
-- ---------------------------------------------------------------------------

section

variable (profiles : List WireGuardEndpointProfile) (update : WireGuardEndpointUpdate)

def WireGuardEndpointProfile.toProfile (p : WireGuardEndpointProfile) : Profile :=
  ⟨p.id, p.endpointSource, p.owner, p.port.toNat, p.endpointRevision.toNat, p.resolvedEndpoint⟩

def WireGuardEndpointUpdate.toUpdate (u : WireGuardEndpointUpdate) : EndpointUpdate :=
  ⟨u.profileId, u.endpointSource, u.owner, u.endpoint, u.expectedEndpointRevision.toNat,
    u.endpointRevision.toNat⟩

theorem updateFirst_toProfile {f : WireGuardEndpointProfile → WireGuardEndpointProfile}
    {g : Profile → Profile} (h : ∀ profile, profiles.find? (addressed update) = some profile →
      (f profile).toProfile = g profile.toProfile) :
    (updateFirst (addressed update) f profiles).map WireGuardEndpointProfile.toProfile =
      updateFirst (fun profile => profile.id == update.profileId) g
        (profiles.map WireGuardEndpointProfile.toProfile) := by
  induction profiles with
  | nil => rfl
  | cons profile profiles ih =>
    by_cases hp : addressed update profile = true
    · have hid : profile.toProfile.id = update.profileId := eq_of_beq hp
      simp [updateFirst, hp, hid, h profile (by simp [hp])]
    · have hid : profile.toProfile.id ≠ update.profileId := fun hid => hp (beq_iff_eq.mpr hid)
      simp [updateFirst, hp, hid, ih fun a ha => h a (by simpa [hp] using ha)]

theorem applyEndpointUpdate_toProfile :
    WireGuard.applyEndpointUpdate (profiles.map WireGuardEndpointProfile.toProfile) update.toUpdate =
      (applyEndpointUpdate profiles update).1.map fun _ =>
        (applyEndpointUpdate profiles update).2.map WireGuardEndpointProfile.toProfile := by
  have hfind : (profiles.map WireGuardEndpointProfile.toProfile).find?
        (fun profile => profile.id == update.toUpdate.profileId) =
      (profiles.find? (addressed update)).map WireGuardEndpointProfile.toProfile := by
    rw [List.find?_map]
    rfl
  unfold WireGuard.applyEndpointUpdate applyEndpointUpdate
  rw [hfind]
  cases h : profiles.find? (addressed update) with
  | none => rfl
  | some profile =>
    have hnext : update.endpointRevision.toNat =
          min (update.expectedEndpointRevision.toNat + 1) (2 ^ 64 - 1) ↔
        update.endpointRevision = saturatingAdd update.expectedEndpointRevision 1 := by
      rw [← UInt64.toNat_inj, toNat_saturatingAdd]
      rfl
    have hwrite := fun g hg => updateFirst_toProfile profiles update
      (f := fun q => (updateFound q update).2) (g := g) hg
    simp only [h, Option.some.injEq, forall_eq'] at hwrite
    simp only [Option.map_some, Bool.or_eq_true, Bool.and_eq_true, decide_eq_true_eq, ne_eq]
    generalize (updateFirst (addressed update) (fun q => (updateFound q update).2) profiles).map
      WireGuardEndpointProfile.toProfile = after at hwrite
    dsimp only [WireGuardEndpointProfile.toProfile, WireGuardEndpointUpdate.toUpdate]
    rw [updateFound] at hwrite ⊢
    simp only [UInt64.toNat_inj, hnext, Bool.or_eq_true, Bool.and_eq_true, decide_eq_true_eq,
      ne_eq] at hwrite ⊢
    -- the conditions of the two sides are the same now
    split_ifs at hwrite ⊢
    all_goals try rfl
    · have hsame := hwrite id rfl
      rw [Rows.updateFirst_id] at hsame
      exact congrArg Except.ok hsame.symm
    · rename_i hblank
      exact if_pos hblank
    · rename_i hblank
      exact (if_neg hblank).trans (congrArg Except.ok (hwrite _ rfl).symm)

end

end LabProbe.WireGuard.Updates
