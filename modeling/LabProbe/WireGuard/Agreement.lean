import LabProbe.Lib.Check
import LabProbe.WireGuard.Profiles

/-!
# Endpoint updates on both sides

`update_endpoint` compares the source of a request trimmed and in lower case,
but looks for `stun` and `ddns` in the spelling of the request when it checks
the endpoint, and the command carries that spelling to an agent that compares
it as it is. Its check for `stun` takes brackets off both ends of what stands before
the last colon, and reads the port with `int`. An update the Hub accepts is
taken by the agent, at an address and a port where the profile needs one, just
when the request spells source and owner as the profile does and brings an
endpoint, for `stun` in a plain spelling.
-/

namespace LabProbe.WireGuard

open Py
open Rows (updateFirst)

def endpointSources : List String := ["manual", "ddns", "stun"]

def Document.profiles (document : Document) : List Profile :=
  (document.server.map Server.endpointProfiles).getD []

/-- The profiles of the document were saved under one of the sources. -/
def Document.Sourced (document : Document) : Prop :=
  ∀ profile ∈ document.profiles, profile.endpointSource ∈ endpointSources

instance (document : Document) : Decidable document.Sourced :=
  inferInstanceAs (Decidable (∀ profile ∈ document.profiles, profile.endpointSource ∈ endpointSources))

/-- The agent's copy of a profile, as far as endpoint updates have set it. -/
structure Profile.Mirrors (copy profile : Profile) : Prop where
  endpointRevision : copy.endpointRevision = profile.endpointRevision
  endpointSource : copy.endpointSource = profile.endpointSource
  resolvedEndpoint : copy.resolvedEndpoint = profile.resolvedEndpoint

def IsAddressPort (endpoint : String) : Prop :=
  ∃ host port, endpoint.toList = host ++ ':' :: port ∧
    ((parseIpv4 host).isSome ∨
      ∃ address, host = '[' :: address ++ [']'] ∧ (parseIpv6Int address).isSome) ∧
    (∀ c ∈ port, c.isDigit = true) ∧ 1 ≤ decimalValue port ∧ decimalValue port ≤ 65535

def isBracket (c : Char) : Bool := c == '[' || c == ']'

/-- The port is spelled in ASCII digits, and the host without brackets and
colons, or in one pair of brackets with a colon and no scope. -/
def SpelledPlainly (endpoint : String) : Prop :=
  ∃ host port, endpoint.toList = host ++ ':' :: port ∧ (∀ c ∈ port, c.isDigit = true) ∧
    ((∀ c ∈ host, isBracket c = false ∧ c ≠ ':') ∨
      ∃ address, host = '[' :: address ++ [']'] ∧ ':' ∈ address ∧
        ∀ c ∈ address, isBracket c = false ∧ c ≠ '%')

/-- The agent takes the update, and for STUN it names an address and a port. -/
def Agreed (profile : Profile) (profiles : List Profile) (update : EndpointUpdate) : Prop :=
  (Agent.updated profiles update).isOk = true ∧
    (profile.endpointSource = "stun" → IsAddressPort update.endpoint)

-- ---------------------------------------------------------------------------
-- The endpoint
-- ---------------------------------------------------------------------------

/-- What the check of an endpoint for `stun` strips of the host. -/
def unbracket (host : List Char) : List Char := (host.dropWhile isBracket).rdropWhile isBracket

theorem ne_of_holds {holds : Char → Bool} {c d : Char} (hd : holds d = false)
    (hc : holds c = true) : c ≠ d := by
  rintro rfl
  exact absurd hc (Bool.eq_false_iff.mp hd)

theorem isBracket_eq_false {holds : Char → Bool} {c : Char} (hopen : holds '[' = false)
    (hclose : holds ']' = false) (hc : holds c = true) : isBracket c = false := by
  rw [isBracket, Bool.or_eq_false_iff, beq_eq_false_iff_ne, beq_eq_false_iff_ne]
  exact ⟨ne_of_holds hopen hc, ne_of_holds hclose hc⟩

theorem unbracket_bare {host : List Char} (h : ∀ c ∈ host, isBracket c = false) :
    unbracket host = host := by
  have hleft : host.dropWhile isBracket = host := by
    rw [List.dropWhile_eq_self_iff]
    exact fun hlen => by simp [h _ (List.getElem_mem hlen)]
  rw [unbracket, hleft, List.rdropWhile_eq_self_iff]
  exact fun hne => by simp [h _ (List.getLast_mem hne)]

theorem unbracket_pair {address : List Char} (hne : address ≠ [])
    (h : ∀ c ∈ address, isBracket c = false) : unbracket ('[' :: address ++ [']']) = address := by
  obtain ⟨c, rest, rfl⟩ := List.exists_cons_of_ne_nil hne
  have hfirst : isBracket c = false := h c List.mem_cons_self
  have hkept := unbracket_bare h
  rw [unbracket, List.dropWhile_cons_of_neg (by simp [hfirst])] at hkept
  rw [unbracket, List.cons_append, List.dropWhile_cons_of_pos (by decide), List.cons_append,
    List.dropWhile_cons_of_neg (by simp [hfirst]), ← List.cons_append,
    List.rdropWhile_concat_pos _ _ _ (by decide), hkept]

section
variable {source endpoint resolved : String} {port : Int}

theorem resolveEndpoint_stun (h : resolveEndpoint "stun" endpoint port = .ok resolved) :
    resolved = endpoint ∧ ∃ host number n, rsplitOnce ':' endpoint.toList = some (host, number) ∧
      (ipAddress (String.ofList (unbracket host))).isSome ∧
        parseInt (String.ofList number) = some n ∧ 1 ≤ n ∧ n ≤ 65535 := by
  rw [resolveEndpoint, if_pos rfl] at h
  split at h
  · rename_i host number hsplit
    dsimp only at h
    split at h
    · rename_i hchecks
      cases h
      obtain ⟨haddress, hnumber⟩ := Bool.and_eq_true_iff.mp hchecks
      obtain ⟨n, hn, hrange⟩ := (Option.any_eq_true _ _).mp hnumber
      obtain ⟨hlow, hhigh⟩ : 1 ≤ n ∧ n ≤ 65535 := by simpa using hrange
      exact ⟨rfl, host, number, n, hsplit, haddress, hn, hlow, hhigh⟩
    · cases h
  · cases h

theorem IsAddressPort.spelledPlainly (h : IsAddressPort endpoint) : SpelledPlainly endpoint := by
  obtain ⟨host, number, htext, haddress, hdigits, -, -⟩ := h
  refine ⟨host, number, htext, hdigits, ?_⟩
  rcases haddress with hv4 | ⟨address, rfl, hv6⟩
  · obtain ⟨value, hv4⟩ := Option.isSome_iff_exists.mp hv4
    refine .inl fun c hc => ?_
    rcases mem_of_parseIpv4 hv4 c hc with hdigit | rfl
    · exact ⟨isBracket_eq_false (by decide) (by decide) hdigit,
        ne_of_holds (by decide) hdigit⟩
    · decide
  · obtain ⟨value, hv6⟩ := Option.isSome_iff_exists.mp hv6
    obtain ⟨hcolon, hchars⟩ := isAddressChar_of_parseIpv6Int hv6
    refine .inr ⟨address, rfl, hcolon, fun c hc => ?_⟩
    have hchar := List.all_eq_true.mp hchars c hc
    exact ⟨isBracket_eq_false (by decide) (by decide) hchar, ne_of_holds (by decide) hchar⟩

theorem parseIpv4_of_noColon {host : List Char} (h : (ipAddress (String.ofList host)).isSome)
    (hcolon : ':' ∉ host) : (parseIpv4 host).isSome := by
  rw [ipAddress, String.toList_ofList] at h
  split at h
  · cases h
  · split at h
    · rename_i value hv4
      rw [hv4, Option.isSome_some]
    · rw [Option.isSome_map] at h
      obtain ⟨value, hv6⟩ := Option.isSome_iff_exists.mp h
      obtain ⟨address, hscope, hv6⟩ := Option.bind_eq_some_iff.mp hv6
      have hmem := (isAddressChar_of_parseIpv6Int hv6).1
      exact absurd (mem_of_splitScope hscope hmem) hcolon

theorem parseIpv6Int_of_colon {address : List Char}
    (h : (ipAddress (String.ofList address)).isSome) (hcolon : ':' ∈ address)
    (hscope : '%' ∉ address) : (parseIpv6Int address).isSome := by
  rw [ipAddress, String.toList_ofList] at h
  split at h
  · cases h
  · split at h
    · rename_i value hv4
      exact absurd (mem_of_parseIpv4 hv4 ':' hcolon) (by decide)
    · rwa [Option.isSome_map, parseIpv6, splitScope, splitOn_of_notMem hscope] at h

/-- The endpoints that pass the check and name an address and a port are
those in a plain spelling. -/
theorem isAddressPort_iff (h : resolveEndpoint "stun" endpoint port = .ok resolved) :
    IsAddressPort endpoint ↔ SpelledPlainly endpoint := by
  refine ⟨IsAddressPort.spelledPlainly, ?_⟩
  rintro ⟨host, number, htext, hdigits, hhost⟩
  obtain ⟨-, host', number', n, hsplit, haddress, hn, hlow, hhigh⟩ := resolveEndpoint_stun h
  have hcolon : ':' ∉ number := fun hmem => absurd (hdigits ':' hmem) (by decide)
  rw [htext, rsplitOnce_append host hcolon] at hsplit
  cases hsplit
  have hvalue : n = decimalValue number := parseInt_decimalValue hdigits hn
  refine ⟨host, number, htext, ?_, hdigits, by omega, by omega⟩
  rcases hhost with hbare | ⟨address, rfl, hinner, hplain⟩
  · rw [unbracket_bare fun c hc => (hbare c hc).1] at haddress
    exact .inl (parseIpv4_of_noColon haddress fun hmem => (hbare ':' hmem).2 rfl)
  · rw [unbracket_pair (List.ne_nil_of_mem hinner) fun c hc => (hplain c hc).1] at haddress
    exact .inr ⟨address, rfl, parseIpv6Int_of_colon haddress hinner fun hmem => (hplain '%' hmem).2 rfl⟩

theorem isBlank_of_colon (h : ':' ∈ endpoint.toList) : isBlank endpoint = false := by
  rw [isBlank, List.all_eq_false]
  exact ⟨':', h, by decide⟩

/-- An automatic update stores an endpoint with something to read in it,
unless the request brings none. -/
theorem isBlank_resolved (hsource : source = "stun" ∨ source = "ddns")
    (h : resolveEndpoint source endpoint port = .ok resolved) :
    isBlank resolved = false ↔ endpoint ≠ "" := by
  rcases hsource with rfl | rfl
  · obtain ⟨rfl, host, number, n, hsplit, -⟩ := resolveEndpoint_stun h
    have hcolon : ':' ∈ resolved.toList := by simp [(rsplitOnce_eq_some hsplit).1]
    refine ⟨?_, fun _ => isBlank_of_colon hcolon⟩
    rintro - rfl
    simp at hcolon
  · rw [resolveEndpoint, if_neg (by decide)] at h
    split at h
    · rename_i hadded
      cases h
      have hsome : endpoint ≠ "" := by
        rintro rfl
        simp at hadded
      exact ⟨fun _ => hsome, fun _ => isBlank_of_colon (by simp)⟩
    · rename_i hkept
      cases h
      by_cases hempty : endpoint = ""
      · subst hempty
        simp [isBlank]
      · have hcolon : ':' ∈ endpoint.toList := by
          simpa [hempty] using hkept
        exact ⟨fun _ => hempty, fun _ => isBlank_of_colon hcolon⟩

end

-- ---------------------------------------------------------------------------
-- The agent
-- ---------------------------------------------------------------------------

theorem updated_isOk_iff {profiles : List Profile} {copy : Profile} {update : EndpointUpdate}
    (hfind : profileOf update.profileId profiles = some copy)
    (hexpected : update.expectedEndpointRevision = copy.endpointRevision)
    (hnext : update.endpointRevision = copy.endpointRevision + 1) :
    (Agent.updated profiles update).isOk = true ↔
      copy.endpointSource ≠ "manual" ∧ copy.endpointSource = update.endpointSource ∧
        copy.owner ≠ "" ∧ copy.owner = update.owner ∧ isBlank update.endpoint = false ∧
          copy.endpointRevision + 1 < 2 ^ 64 := by
  have hfind' : profiles.find? (fun profile => profile.id == update.profileId) = some copy := hfind
  have hreplayed : ∀ b, (decide (copy.endpointRevision = copy.endpointRevision + 1) && b) = false := by
    simp
  have hmin : copy.endpointRevision + 1 = min (copy.endpointRevision + 1) (2 ^ 64 - 1) ↔
      copy.endpointRevision + 1 < 2 ^ 64 := by omega
  rw [Agent.updated]
  split
  · simp only [applyEndpointUpdate, hfind', hexpected, hnext, hreplayed, Check.isOk_ite_error,
      String.isEmpty_iff, ne_eq, not_not, not_or, Bool.or_eq_true, decide_eq_true_eq, hmin,
      Bool.false_eq_true, if_false, Bool.not_eq_true, not_true]
    tauto
  · rename_i hread
    have hlimit : ¬copy.endpointRevision + 1 < 2 ^ 64 := by
      intro hlt
      apply hread
      rw [hexpected, hnext, asU64, asU64, if_pos hlt, if_pos (Nat.lt_of_succ_lt hlt)]
      rfl
    exact ⟨fun h => (by cases h), fun h => absurd h.2.2.2.2.2 hlimit⟩

-- ---------------------------------------------------------------------------
-- Agreement
-- ---------------------------------------------------------------------------

theorem automatic_of_mem {source : String} (hmem : source ∈ endpointSources)
    (hmanual : source ≠ "manual") : source = "stun" ∨ source = "ddns" := by
  simp only [endpointSources, List.mem_cons, List.not_mem_nil, or_false] at hmem
  tauto

section
variable [Unicode] {document saved : Document} {update : EndpointUpdate}
  {profileId source owner endpoint : String} {expected : Option Int} {profile copy : Profile}
  {profiles : List Profile}

/-- An update the Hub accepts is taken by the agent, and for STUN names an
address and a port, when the request spells source and owner as they are
kept, brings an endpoint, for STUN in a plain spelling, and the revision is
not the last the agent reads. -/
theorem endpoint_agreed_iff (hsourced : document.Sourced)
    (haccepted : updateEndpoint document profileId source owner endpoint expected =
      .ok (saved, update))
    (hprofile : document.profiles.find? (fun row => text row.id == profileId) = some profile)
    (hcopy : profileOf profileId profiles = some copy) (hmirrors : copy.Mirrors profile) :
    Agreed profile profiles update ↔
      source = profile.endpointSource ∧ owner = copy.owner ∧ endpoint ≠ "" ∧
        profile.endpointRevision + 1 < 2 ^ 64 ∧
          (profile.endpointSource = "stun" → SpelledPlainly endpoint) := by
  obtain ⟨server, profile', resolved, hserver, hfind, hmanual, howner, hresolve, -, rfl⟩ :=
    updateEndpoint_ok haccepted
  have hprofiles : document.profiles = server.endpointProfiles := by
    rw [Document.profiles, hserver]
    rfl
  obtain rfl : profile = profile' := Option.some.inj (by rw [← hprofile, ← hfind, hprofiles])
  have hnotManual : profile.endpointSource ≠ "manual" := by
    intro heq
    rw [heq] at hmanual
    exact hmanual (by decide)
  have hauto := automatic_of_mem (hsourced profile (List.mem_of_find?_eq_some hprofile)) hnotManual
  have hagent := @updated_isOk_iff profiles copy ⟨profileId, source, owner, resolved,
    profile.endpointRevision, profile.endpointRevision + 1⟩ hcopy hmirrors.endpointRevision.symm
    (by rw [hmirrors.endpointRevision])
  rw [Agreed, hagent, hmirrors.endpointSource, hmirrors.endpointRevision]
  dsimp only
  constructor
  · rintro ⟨⟨-, hsource, -, hsame, hblank, hlimit⟩, hpair⟩
    rw [hsource] at hauto
    refine ⟨hsource.symm, hsame.symm, (isBlank_resolved hauto hresolve).mp hblank, hlimit,
      fun hstun => ?_⟩
    rw [← hsource, hstun] at hresolve
    have hplain := (hpair hstun).spelledPlainly
    rwa [(resolveEndpoint_stun hresolve).1] at hplain
  · rintro ⟨hsource, hsame, hendpoint, hlimit, hplain⟩
    rw [← hsource] at hauto
    have hblank := (isBlank_resolved hauto hresolve).mpr hendpoint
    refine ⟨⟨hnotManual, hsource.symm, ?_, hsame.symm, hblank, hlimit⟩, fun hstun => ?_⟩
    · rw [← hsame]
      exact howner
    rw [hsource, hstun] at hresolve
    rw [(resolveEndpoint_stun hresolve).1]
    exact (isAddressPort_iff hresolve).mpr (hplain hstun)

end

section
local instance asciiAgreement : Unicode := .ascii

def awayProfile : Profile := ⟨"away", "stun", "stun:wg-away", 51820, 3, "198.51.100.7:40001"⟩

def awayDocument : Document := { revision := 2, server := some ⟨"labwg0", [awayProfile], 2⟩ }

theorem endpoint_agreed_iff_away :
    Agreed awayProfile [awayProfile]
        ⟨"away", "stun", "stun:wg-away", "198.51.100.7:40002", 3, 4⟩ ↔
      "stun" = awayProfile.endpointSource ∧ "stun:wg-away" = awayProfile.owner ∧
        "198.51.100.7:40002" ≠ "" ∧ awayProfile.endpointRevision + 1 < 2 ^ 64 ∧
          (awayProfile.endpointSource = "stun" → SpelledPlainly "198.51.100.7:40002") := by
  have hsourced : awayDocument.Sourced := by decide
  have haccepted : updateEndpoint awayDocument "away" "stun" "stun:wg-away" "198.51.100.7:40002"
      (some 3) = .ok (_, _) := rfl
  exact endpoint_agreed_iff hsourced haccepted rfl rfl ⟨rfl, rfl, rfl⟩

/-- The source in capitals passes the check of ownership and no check of the
endpoint, and the agent refuses it. -/
theorem capitals_disagree :
    ¬ ∀ (document saved : Document) (update : EndpointUpdate) (profileId source owner : String)
      (endpoint : String) (expected : Option Int) (profile : Profile) (profiles : List Profile),
      document.Sourced →
      updateEndpoint document profileId source owner endpoint expected = .ok (saved, update) →
      document.profiles.find? (fun row => text row.id == profileId) = some profile →
      profileOf profileId profiles = some profile → Agreed profile profiles update := by
  intro hall
  have hagreed := hall awayDocument _ _ "away" "STUN" "stun:wg-away" "anywhere" (some 3)
    awayProfile [awayProfile] (by decide) rfl rfl rfl
  exact absurd hagreed.1 (by decide)

end

end LabProbe.WireGuard
