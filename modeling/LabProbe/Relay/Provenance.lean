import LabProbe.Relay.DdnsAddress

/-!
# Where a published address comes from

An address chosen from the listing is a stable public address of an interface,
and one seen from outside is published only if it is listed as such. The source
address of the route is published as it is: nothing says whether it is a
temporary address.
-/

namespace LabProbe.Relay

open Tiers

/-- An interface carries the address as a stable public one. -/
def Listed (candidates : List Candidate6) (address : String) : Prop :=
  ∃ c ∈ candidates, ipv6Public c.ip = true ∧ c.temporary = false ∧ c.deprecated = false ∧
    c.tentative = false ∧ ipv6Display c.ip = address

/-- What is published is listed. -/
def FromListing (candidates : List Candidate6) (d : Detected) : Prop :=
  d.state = "public" → Listed candidates d.address

/-- The listing decides without the route: the highest role with an address has
one only, and is not that of the LAN. -/
def Decided (candidates : List Candidate6) (topology : InterfaceTopology) : Prop :=
  ∃ role c, role ≠ .downstream ∧ Leading candidates topology role ∧
    ofRole candidates topology role = [c]

variable {candidates : List Candidate6} {topology : InterfaceTopology}

theorem listed_of_publicCandidate {c : Candidate6} (hc : c ∈ candidates)
    (h : ipv6PublicCandidate c = true) : Listed candidates (ipv6Display c.ip) := by
  simp only [ipv6PublicCandidate, Bool.and_eq_true, Bool.not_eq_true'] at h
  obtain ⟨⟨⟨⟨⟨hpublic, -⟩, htemporary⟩, hdeprecated⟩, htentative⟩, -⟩ := h
  exact ⟨c, hc, hpublic, htemporary, hdeprecated, htentative, rfl⟩

theorem chooseIpv6_listed (candidates : List Candidate6) (topology : InterfaceTopology) :
    FromListing candidates (chooseIpv6 candidates topology) := by
  intro hpublic
  have hanswers := answers_chooseIpv6 candidates topology
  obtain ⟨role, c, hleading, hone⟩ := hanswers.public_iff.mp hpublic
  rw [hanswers.address role c hleading hone]
  have hmem : c ∈ ofRole candidates topology role := by simp [hone]
  obtain ⟨hc, hstable⟩ := List.mem_filter.mp (List.mem_of_mem_filter hmem)
  exact listed_of_publicCandidate hc hstable

theorem startsWith_delegated (role : InterfaceRole) (interface : String) :
    startsWith "delegated-lan:" (role.sources.1 ++ interface) = (role == .downstream) := by
  cases role <;> simp [startsWith, InterfaceRole.sources] <;> rfl

/-- The choice stands without the route exactly where the listing decides. -/
theorem kept_iff (candidates : List Candidate6) (topology : InterfaceTopology) :
    ((chooseIpv6 candidates topology).state = "public" &&
      !startsWith "delegated-lan:" (chooseIpv6 candidates topology).source) = true ↔
    Decided candidates topology := by
  rw [chooseIpv6_eq]
  generalize hchoice : choose (grade topology) (stableOf candidates) rankedRoles = choice
  have hone : ∀ role c, choice = .one role c ↔
      Leading candidates topology role ∧ ofRole candidates topology role = [c] := fun role c => by
    rw [← hchoice]
    exact choose_eq_one
  cases choice with
  | one role c =>
    have hstate : (answered (.one role c)).state = "public" := rfl
    have hsource : (answered (.one role c)).source = role.sources.1 ++ c.interface := rfl
    rw [hstate, hsource, startsWith_delegated]
    constructor
    · intro h
      exact ⟨role, c, by simpa using h, (hone role c).mp rfl⟩
    · rintro ⟨role', c', hne, hleading⟩
      cases (hone role' c').mpr hleading
      simpa using hne
  | none | many =>
    simp only [answered, String.reduceEq, decide_false, Bool.false_and, Bool.false_eq_true, false_iff]
    rintro ⟨role', c', -, hleading⟩
    simpa using (hone role' c').mpr hleading

theorem external_listed {chosen : Detected} {route : Option Candidate6}
    {external : Option (Nat × String)} (h : FromListing candidates
      (if chosen.state = "public" && !startsWith "delegated-lan:" chosen.source then chosen
        else routeOr route chosen)) :
    FromListing candidates (selectIpv6 chosen route external candidates) := by
  unfold selectIpv6
  generalize (if (decide (chosen.state = "public") && !startsWith "delegated-lan:" chosen.source) = true
    then chosen else routeOr route chosen) = d at h ⊢
  dsimp only
  split
  · exact h
  · split
    · split
      · rename_i hany
        obtain ⟨c, hc, hmatch⟩ := List.any_eq_true.mp hany
        rw [Bool.and_eq_true, beq_iff_eq] at hmatch
        intro _
        rw [← hmatch.2]
        exact listed_of_publicCandidate hc hmatch.1
      · exact fun hpublic => absurd hpublic (by simp)
    · exact h

/-- The address that is published is a stable public one of the listing, if and
only if the route is not asked, has no publishable source, or its source is
listed as such. -/
theorem published_listed_iff (addresses route : Option String) (topology : InterfaceTopology)
    (external : Option (Nat × String)) :
    FromListing ((addresses.map parseIpv6).getD []) (detectIpv6 addresses route topology external) ↔
      ∀ r, route.bind parseIpv6RouteGet = some r → ipv6PublicCandidate r = true →
        ¬ Decided ((addresses.map parseIpv6).getD []) topology →
        Listed ((addresses.map parseIpv6).getD []) (ipv6Display r.ip) := by
  unfold detectIpv6
  dsimp only
  generalize (addresses.map parseIpv6).getD [] = candidates
  generalize route.bind parseIpv6RouteGet = route
  have hkept := kept_iff candidates topology
  have hchosen := chooseIpv6_listed candidates topology
  constructor
  · rintro h r rfl hr hundecided
    rw [← hkept, Bool.not_eq_true] at hundecided
    have hselected : selectIpv6 (chooseIpv6 candidates topology) (some r) external candidates =
        ⟨ipv6Display r.ip, "public", "route-src:" ++ r.interface⟩ := by
      simp only [selectIpv6, hundecided, Bool.false_eq_true, if_false, routeOr, Option.filter, hr,
        if_true]
    rw [hselected] at h
    exact h rfl
  · intro h
    refine external_listed ?_
    split
    · exact hchosen
    · rename_i hnot
      unfold routeOr
      split
      · rename_i r hr
        obtain ⟨hroute, hr⟩ := Option.filter_eq_some_iff.mp hr
        exact fun _ => h r hroute hr (fun hdecided => hnot (hkept.mpr hdecided))
      · exact hchosen

/-- What `ip` prints where the privacy address is the source of the route. -/
def privacyListing : String :=
  "2: wan0: <UP>\n    inet6 2001:db8::9/64 scope global temporary\n"

def privacyRoute : String := "2001:4860:4860::8888 dev wan0 src 2001:db8::9"

/-- A temporary address is published. -/
theorem privacy_address_published :
    ¬ FromListing (parseIpv6 privacyListing)
      (detectIpv6 (some privacyListing) (some privacyRoute) ⟨[("wan0", .upstream)]⟩ none) := by
  have hcandidates : parseIpv6 privacyListing =
      [⟨0x20010db8 * 2 ^ 96 + 9, "wan0", true, true, false, false⟩] := by decide
  have hdetected : (detectIpv6 (some privacyListing) (some privacyRoute) ⟨[("wan0", .upstream)]⟩
      none).state = "public" := by decide
  rw [hcandidates]
  intro h
  obtain ⟨c, hc, -, htemporary, -⟩ := h hdetected
  rw [List.mem_singleton.mp hc] at htemporary
  cases htemporary

end LabProbe.Relay
