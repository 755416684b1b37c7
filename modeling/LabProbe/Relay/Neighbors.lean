import LabProbe.Lib.Ranking
import LabProbe.Relay.Agree

/-!
# The target of a suffix

`resolve_ipv6_suffix` looks for a neighbour with an interface identifier, and
with a MAC address where the rule has one, and takes the best by the state of
its entry and the prefix of its address. What `ip` prints is given by its lines.

Two best neighbours are refused as ambiguous when the rule has no MAC address.
With one they are addresses of the same host, and the first line is taken.
-/

namespace LabProbe.Relay

open Py Ranking

/-- The answer of a command that could be run. -/
structure CommandOutput where
  success : Bool
  lines : List String

/-- The words of a text, behind the letters of one that has begun, the last
letter first. -/
def wordsFrom (word : List Char) : List Char → List (List Char)
  | [] => if word.isEmpty then [] else [word.reverse]
  | c :: cs =>
    if isWhitespace c then
      if word.isEmpty then wordsFrom [] cs else word.reverse :: wordsFrom [] cs
    else wordsFrom (c :: word) cs

def splitWhitespace (s : String) : List String := (wordsFrom [] s.toList).map String.ofList

def fieldAfter (word : String) (fields : List String) : Option String :=
  (fields.dropWhile (· != word))[1]?

def addressField (field : String) : Option Nat :=
  parseIpv6Addr (String.ofList (field.toList.takeWhile (· != '/')))

def currentLanPrefixes (output : Option CommandOutput) : List Nat :=
  ((output.map CommandOutput.lines).getD []).foldl (fun out line =>
    match (fieldAfter "inet6" (splitWhitespace line)).bind addressField with
    | some ip => if out.contains (ip / 2 ^ 64) then out else out ++ [ip / 2 ^ 64]
    | none => out) []

structure Candidate where
  score : Int
  ip : Nat
  state : String
  deriving DecidableEq

def stateScore (state : String) : Int :=
  if state = "REACHABLE" then 30
  else if state = "DELAY" ∨ state = "PROBE" then 20
  else if state = "STALE" ∨ state = "PERMANENT" then 10
  else 2

structure Wanted where
  suffix : Nat
  targetMac : String
  preferCurrentPrefix : Bool
  prefixes : List Nat

def Wanted.score (w : Wanted) (ip : Nat) (mac state : String) : Int :=
  (if w.targetMac ≠ "" ∧ mac = w.targetMac then 100 else 0) +
    (if w.preferCurrentPrefix && w.prefixes.contains (ip / 2 ^ 64) then 30 else 0) + stateScore state

def lineMac (fields : List String) : String :=
  ((fieldAfter "lladdr" fields).map normalizeMac).getD ""

def Wanted.candidate (w : Wanted) (line : String) : Option Candidate :=
  let fields := splitWhitespace line
  if fields.length < 2 then none else
  match addressField (fields.headD "") with
  | none => none
  | some ip =>
    if !isGlobalScope ip then none
    else if ip % 2 ^ 64 ≠ w.suffix then none
    else if w.targetMac ≠ "" ∧ lineMac fields ≠ w.targetMac then none
    else
      let state := toAsciiUppercase (fields.getLastD "")
      if state = "FAILED" ∨ state = "INCOMPLETE" then none
      else some ⟨w.score ip (lineMac fields) state, ip, state⟩

/-- The candidates of a table, the best first. -/
def Wanted.candidates (w : Wanted) (lines : List String) : List Candidate :=
  sortedDesc Candidate.score (lines.filterMap w.candidate)

def Wanted.choose (w : Wanted) (lines : List String) : Except String Nat :=
  match w.candidates lines with
  | [] => .error "no IPv6 neighbor matches suffix/MAC"
  | first :: rest =>
    if w.targetMac = "" && rest.head?.any (fun second => first.score == second.score) then
      .error "ambiguous suffix: configure target MAC"
    else .ok first.ip

/-- What the rule looks for, once its suffix is read. -/
def wantedBy (rule : Rule) (addresses : Option CommandOutput) (suffix : Nat) : Wanted :=
  ⟨suffix, normalizeMac rule.targetMac, rule.preferCurrentPrefix, currentLanPrefixes addresses⟩

def resolveIpv6Suffix (rule : Rule) (neighbors addresses : Option CommandOutput) :
    Except String Nat :=
  match suffixBytes rule.targetIpv6Suffix with
  | .error e => .error e
  | .ok suffix =>
    match neighbors with
    | none => .error "run ip -6 neigh"
    | some output =>
      if output.success then (wantedBy rule addresses suffix).choose output.lines
      else .error "ip -6 neigh failed"

-- ---------------------------------------------------------------------------
-- Candidates
-- ---------------------------------------------------------------------------

section

variable {w : Wanted} {line : String} {lines lines' : List String} {c : Candidate}

def Lists (line : String) (ip : Nat) (mac : String) : Prop :=
  addressField ((splitWhitespace line).headD "") = some ip ∧
    (fieldAfter "lladdr" (splitWhitespace line)).map normalizeMac = some mac

theorem candidate_some (h : w.candidate line = some c) :
    c.ip % 2 ^ 64 = w.suffix ∧ (w.targetMac ≠ "" → Lists line c.ip w.targetMac) := by
  unfold Wanted.candidate at h
  dsimp only at h
  split at h
  · cases h
  · split at h
    · cases h
    · rename_i ip hip
      split_ifs at h with hscope hsuffix hmac hstate
      cases h
      refine ⟨not_not.mp hsuffix, fun hne => ⟨hip, ?_⟩⟩
      have hsame : lineMac (splitWhitespace line) = w.targetMac := by
        by_contra hother
        exact hmac ⟨hne, hother⟩
      unfold lineMac at hsame
      cases hfield : fieldAfter "lladdr" (splitWhitespace line) with
      | none =>
        rw [hfield] at hsame
        exact absurd hsame.symm hne
      | some field =>
        rw [hfield] at hsame
        exact congrArg some hsame

theorem choose_ok {ip : Nat} (h : w.choose lines = .ok ip) :
    ∃ first rest, w.candidates lines = first :: rest ∧ first.ip = ip ∧
      (w.targetMac = "" → ∀ second ∈ rest.head?, first.score ≠ second.score) := by
  unfold Wanted.choose at h
  split at h
  · cases h
  · rename_i first rest hcandidates
    split at h
    · cases h
    · rename_i hclear
      cases h
      refine ⟨first, rest, hcandidates, rfl, fun hmac second hsecond heq => hclear ?_⟩
      rw [Option.mem_def] at hsecond
      simp [hmac, hsecond, heq]

-- ---------------------------------------------------------------------------
-- Another order of the lines
-- ---------------------------------------------------------------------------

def Wanted.Best (w : Wanted) (lines : List String) (c : Candidate) : Prop :=
  c ∈ lines.filterMap w.candidate ∧ ∀ d ∈ lines.filterMap w.candidate, d.score ≤ c.score

theorem Wanted.Best.perm (h : w.Best lines c) (hp : lines.Perm lines') : w.Best lines' c := by
  have hcandidates := hp.filterMap w.candidate
  exact ⟨hcandidates.mem_iff.mp h.1, fun d hd => h.2 d (hcandidates.mem_iff.mpr hd)⟩

theorem best_first {rest : List Candidate} (h : w.candidates lines = c :: rest) : w.Best lines c := by
  have hmem : c ∈ sortedDesc Candidate.score (lines.filterMap w.candidate) := by
    rw [show sortedDesc Candidate.score (lines.filterMap w.candidate) = c :: rest from h]
    exact List.mem_cons_self
  exact ⟨mem_sortedDesc.mp hmem, le_of_sortedDesc_cons h⟩

theorem choose_perm {ip : Nat} (hmac : w.targetMac = "") (h : w.choose lines = .ok ip)
    (hp : lines.Perm lines') : w.choose lines' = .ok ip := by
  obtain ⟨first, rest, hcandidates, rfl, hclear⟩ := choose_ok h
  obtain ⟨rest', hcandidates', hclear'⟩ :=
    sortedDesc_perm_of_unique (hp.filterMap w.candidate) hcandidates (hclear hmac)
  have hnone : rest'.head?.any (fun second => first.score == second.score) = false := by
    cases hhead : rest'.head? with
    | none => rfl
    | some second => simpa using hclear' second hhead
  simp [Wanted.choose, Wanted.candidates, hcandidates', hnone]

theorem choose_best {ip : Nat} (h : w.choose lines = .ok ip) (hp : lines.Perm lines') :
    ∃ c, w.Best lines c ∧ w.choose lines' = .ok c.ip := by
  obtain ⟨first, rest, hcandidates, rfl, hclear⟩ := choose_ok h
  by_cases hmac : w.targetMac = ""
  · exact ⟨first, best_first hcandidates, choose_perm hmac h hp⟩
  · cases hcandidates' : w.candidates lines' with
    | nil =>
      have hlength : (sortedDesc Candidate.score (lines.filterMap w.candidate)).map Candidate.score =
          (sortedDesc Candidate.score (lines'.filterMap w.candidate)).map Candidate.score :=
        map_sortedDesc_perm (hp.filterMap w.candidate)
      unfold Wanted.candidates at hcandidates hcandidates'
      rw [hcandidates, hcandidates'] at hlength
      cases hlength
    | cons first' rest' =>
      refine ⟨first', (best_first hcandidates').perm hp.symm, ?_⟩
      simp [Wanted.choose, hcandidates', hmac]

/-- Any best candidate is chosen when its line comes first. -/
theorem choose_front {ip : Nat} (hbest : w.Best lines c)
    (h : ∀ lines', lines.Perm lines' → w.choose lines' = .ok ip) : c.ip = ip := by
  obtain ⟨line, hline, hcandidate⟩ := List.mem_filterMap.mp hbest.1
  have hperm := List.perm_cons_erase hline
  have hfront : w.candidates (line :: lines.erase line) =
      c :: w.candidates (lines.erase line) := by
    unfold Wanted.candidates
    rw [List.filterMap_cons_some hcandidate]
    refine sortedDesc_cons_of_best fun d hd => (hbest.perm hperm).2 d ?_
    rw [List.filterMap_cons_some hcandidate]
    exact List.mem_cons_of_mem _ hd
  obtain ⟨first, rest, hcandidates, rfl, -⟩ := choose_ok (h _ hperm)
  rw [hfront, List.cons.injEq] at hcandidates
  rw [hcandidates.1]

end

-- ---------------------------------------------------------------------------
-- The target
-- ---------------------------------------------------------------------------

def BestOf (rule : Rule) (addresses : Option CommandOutput) (lines : List String) (c : Candidate) :
    Prop :=
  ∃ suffix, suffixBytes rule.targetIpv6Suffix = .ok suffix ∧
    (wantedBy rule addresses suffix).Best lines c

/-- The target has the interface identifier and is listed for the MAC address
of the rule. Without one it does not depend on the order of the lines; in any
case a best candidate is found in every order, and it is this one in every
order exactly if all best candidates have its address. -/
structure Resolved (rule : Rule) (output : CommandOutput) (addresses : Option CommandOutput)
    (ip : Nat) : Prop where
  interfaceId : suffixBytes rule.targetIpv6Suffix = .ok (ip % 2 ^ 64)
  listed : normalizeMac rule.targetMac ≠ "" →
    ∃ line ∈ output.lines, Lists line ip (normalizeMac rule.targetMac)
  unordered : normalizeMac rule.targetMac = "" → ∀ lines, output.lines.Perm lines →
    resolveIpv6Suffix rule (some { output with lines := lines }) addresses = .ok ip
  best : ∀ lines, output.lines.Perm lines → ∃ c, BestOf rule addresses output.lines c ∧
    resolveIpv6Suffix rule (some { output with lines := lines }) addresses = .ok c.ip
  ordered : (∀ lines, output.lines.Perm lines →
      resolveIpv6Suffix rule (some { output with lines := lines }) addresses = .ok ip) ↔
    ∀ c, BestOf rule addresses output.lines c → c.ip = ip

@[simp]
theorem wantedBy_suffix (rule : Rule) (addresses : Option CommandOutput) (suffix : Nat) :
    (wantedBy rule addresses suffix).suffix = suffix :=
  rfl

@[simp]
theorem wantedBy_targetMac (rule : Rule) (addresses : Option CommandOutput) (suffix : Nat) :
    (wantedBy rule addresses suffix).targetMac = normalizeMac rule.targetMac :=
  rfl

theorem resolveIpv6Suffix_ok {rule : Rule} {neighbors addresses : Option CommandOutput} {ip : Nat} :
    resolveIpv6Suffix rule neighbors addresses = .ok ip ↔
      ∃ suffix lines, suffixBytes rule.targetIpv6Suffix = .ok suffix ∧
        neighbors = some ⟨true, lines⟩ ∧ (wantedBy rule addresses suffix).choose lines = .ok ip := by
  unfold resolveIpv6Suffix
  cases suffixBytes rule.targetIpv6Suffix with
  | error e => simp
  | ok suffix =>
    cases neighbors with
    | none => simp
    | some output =>
      obtain ⟨success, lines⟩ := output
      cases success <;> simp

theorem resolveIpv6Suffix_ran {rule : Rule} {suffix : Nat} {lines : List String}
    {addresses : Option CommandOutput} (h : suffixBytes rule.targetIpv6Suffix = .ok suffix) :
    resolveIpv6Suffix rule (some ⟨true, lines⟩) addresses =
      (wantedBy rule addresses suffix).choose lines := by
  unfold resolveIpv6Suffix
  rw [h]
  dsimp only
  rw [if_pos rfl]

theorem resolved (rule : Rule) (output : CommandOutput) (addresses : Option CommandOutput) (ip : Nat)
    (h : resolveIpv6Suffix rule (some output) addresses = .ok ip) :
    Resolved rule output addresses ip := by
  obtain ⟨suffix, lines, hsuffix, houtput, hchoose⟩ := resolveIpv6Suffix_ok.mp h
  cases houtput
  have hagain : ∀ (lines' : List String) (ip' : Nat),
      resolveIpv6Suffix rule (some ⟨true, lines'⟩) addresses = .ok ip' ↔
        (wantedBy rule addresses suffix).choose lines' = .ok ip' := by
    intro lines' ip'
    rw [resolveIpv6Suffix_ran hsuffix]
  have hbest : ∀ c, BestOf rule addresses lines c ↔ (wantedBy rule addresses suffix).Best lines c := by
    intro c
    simp only [BestOf, hsuffix, Except.ok.injEq, exists_eq_left']
  obtain ⟨first, rest, hcandidates, rfl, -⟩ := choose_ok hchoose
  obtain ⟨line, hline, hcandidate⟩ := List.mem_filterMap.mp (best_first hcandidates).1
  obtain ⟨hid, hlists⟩ := candidate_some hcandidate
  rw [wantedBy_suffix] at hid
  rw [wantedBy_targetMac] at hlists
  have hbest' : ∀ lines', lines.Perm lines' → ∃ c, BestOf rule addresses lines c ∧
      resolveIpv6Suffix rule (some ⟨true, lines'⟩) addresses = .ok c.ip := by
    intro lines' hp
    obtain ⟨c, hc, hchosen⟩ := choose_best hchoose hp
    exact ⟨c, (hbest c).mpr hc, (hagain _ _).mpr hchosen⟩
  refine ⟨?_, fun hmac => ⟨line, hline, hlists hmac⟩, ?_, hbest', ?_, ?_⟩
  · rw [hsuffix, hid]
  · rintro hmac lines' hp
    exact (hagain _ _).mpr (choose_perm hmac hchoose hp)
  · rintro hall c hc
    exact choose_front ((hbest c).mp hc) fun lines' hp => (hagain _ _).mp (hall lines' hp)
  · rintro hall lines' hp
    obtain ⟨c, hc, hchosen⟩ := hbest' lines' hp
    rw [hchosen, hall c hc]

def suffixRule : Rule :=
  { id := "nas", targetMode := "ipv6_suffix", targetIpv6Suffix := "::dead:beef",
    targetMac := "02-00-00-00-00-01", targetPort := 443, listenPort := 8443 }

def oldPrefixLine : String := "2001:db8:1::dead:beef lladdr 02:00:00:00:00:01 REACHABLE"

def newPrefixLine : String := "2001:db8:2::dead:beef lladdr 02:00:00:00:00:01 REACHABLE"

theorem first_line_chosen :
    resolveIpv6Suffix suffixRule (some ⟨true, [oldPrefixLine, newPrefixLine]⟩) none =
        .ok 0x20010db800010000_00000000deadbeef ∧
      resolveIpv6Suffix suffixRule (some ⟨true, [newPrefixLine, oldPrefixLine]⟩) none =
        .ok 0x20010db800020000_00000000deadbeef := by
  decide +kernel

theorem depends_on_order :
    ¬ ∀ (rule : Rule) (lines lines' : List String) (addresses : Option CommandOutput) (ip : Nat),
      resolveIpv6Suffix rule (some ⟨true, lines⟩) addresses = .ok ip → lines.Perm lines' →
        resolveIpv6Suffix rule (some ⟨true, lines'⟩) addresses = .ok ip := by
  intro h
  have hsame := h suffixRule [oldPrefixLine, newPrefixLine] [newPrefixLine, oldPrefixLine] none _
    first_line_chosen.1 (.swap newPrefixLine oldPrefixLine [])
  rw [first_line_chosen.2, Except.ok.injEq] at hsame
  revert hsame
  decide

theorem resolved_oldPrefix :
    resolveIpv6Suffix suffixRule (some ⟨true, [oldPrefixLine, newPrefixLine]⟩) none =
        .ok 0x20010db800010000_00000000deadbeef ∧
      Resolved suffixRule ⟨true, [oldPrefixLine, newPrefixLine]⟩ none
        0x20010db800010000_00000000deadbeef := by
  have h : resolveIpv6Suffix suffixRule (some ⟨true, [oldPrefixLine, newPrefixLine]⟩) none =
      .ok 0x20010db800010000_00000000deadbeef := by
    decide +kernel
  exact ⟨h, resolved suffixRule ⟨true, [oldPrefixLine, newPrefixLine]⟩ none _ h⟩

end LabProbe.Relay
