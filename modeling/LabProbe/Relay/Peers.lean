import LabProbe.Lib.Dict
import LabProbe.Lib.Run
import LabProbe.Relay.Normal

/-!
# The peers of a UDP relay

A relay over UDP keeps a table of its clients, each with a socket of its own to
the target, a task that carries the replies back, and a token. The listener
makes the entries; an entry is removed by the listener when the target has
changed, by its task when that ends, and by the end of the relay. The table and
the counter of active peers are shared, and each removal decrements the counter
before another step of the table.

An event is one iteration of the listener or one step of a task. The state that
is shown is modelled with the runtimes, and the traffic counters are left out.
-/

namespace LabProbe.Relay

open Py Runs

inductive SocketAddr where
  | v4 (ip : Nat) (port : Nat)
  | v6 (ip : Nat) (port flowinfo scopeId : Nat)
  deriving DecidableEq

/-- `SocketAddr::new`. -/
def SocketAddr.new (ip : IpAddress) (port : Nat) : SocketAddr :=
  match ip with
  | .v4 ip => .v4 ip port
  | .v6 ip => .v6 ip port 0 0

/-- An entry of the table; the number says how many were made before it. -/
structure UdpPeer where
  number : Nat
  token : UInt64
  target : SocketAddr
  deriving DecidableEq

/-- The task of a peer, with the time and the flag it shares with its entry.
One that is leaving has left its loop and not yet removed its entry. -/
structure PeerTask where
  number : Nat
  client : SocketAddr
  token : UInt64
  lastSeen : Nat
  cancel : Bool := false
  leaving : Bool := false
  deriving DecidableEq

/-- A relay, with the numbers of the entries that were removed, in order, and
how many were made. -/
structure UdpListener where
  rule : Rule
  target : Option IpAddress
  peers : List (SocketAddr × UdpPeer) := []
  tasks : List PeerTask := []
  nextToken : UInt64 := 1
  activePeers : UInt64 := 0
  stopped : Bool := false
  made : Nat := 0
  removed : List Nat := []

def udpPeerExpired (lastSeen now idleTimeoutSec : Nat) : Bool :=
  max idleTimeoutSec 30 ≤ now - lastSeen

def udpPeerRequiresReplacement (peer : UdpPeer) (target : SocketAddr) : Bool :=
  peer.target != target

namespace UdpListener

def onTask (number : Nat) (f : PeerTask → PeerTask) (s : UdpListener) : UdpListener :=
  { s with tasks := s.tasks.map fun t => if t.number = number then f t else t }

/-- Remove the entry of a client if it has the token, and count it down. -/
def remove (client : SocketAddr) (token : UInt64) (s : UdpListener) : UdpListener :=
  match Dict.get? s.peers client with
  | some peer =>
    if peer.token = token then
      { s with
        peers := Dict.erase s.peers client
        activePeers := s.activePeers - 1
        removed := s.removed ++ [peer.number] }
    else s
  | none => s

/-- A new entry, its task, and the counter. -/
def create (now : Nat) (client target : SocketAddr) (s : UdpListener) : UdpListener :=
  { s with
    peers := Dict.set s.peers client ⟨s.made, s.nextToken, target⟩
    tasks := s.tasks ++ [⟨s.made, client, s.nextToken, now, false, false⟩]
    nextToken := s.nextToken + 1
    activePeers := s.activePeers + 1
    made := s.made + 1 }

def seen (number now : Nat) : UdpListener → UdpListener :=
  onTask number fun t => { t with lastSeen := now }

/-- What a datagram meets: the time it comes and the time it has been sent on,
whether a socket for the target can be made, and whether sending works. -/
structure Datagram where
  client : SocketAddr
  now : Nat
  later : Nat
  socket : Bool
  sent : Bool

def forward (d : Datagram) (number : Nat) (s : UdpListener) : UdpListener :=
  if d.sent then s.seen number d.later else s

def accept (d : Datagram) (target : SocketAddr) (s : UdpListener) : UdpListener :=
  if s.rule.maxConnections ≤ s.peers.length then s
  else if d.socket then (s.create d.now d.client target).forward d s.made
  else s

def receive (d : Datagram) (s : UdpListener) : UdpListener :=
  match s.target with
  | none => s
  | some ip =>
    let target := SocketAddr.new ip s.rule.targetPort
    match Dict.get? s.peers d.client with
    | some peer =>
      if udpPeerRequiresReplacement peer target then
        ((s.onTask peer.number fun t => { t with cancel := true }).remove d.client peer.token).accept
          d target
      else (s.seen peer.number d.now).forward d peer.number
    | none => s.accept d target

/-- The end of a task: it removes its entry, if that is still there. -/
def leave (number : Nat) (s : UdpListener) : UdpListener :=
  match s.tasks.find? fun t => t.number == number && t.leaving with
  | some t =>
    let s := s.remove t.client t.token
    { s with tasks := s.tasks.filter fun t => t.number != number }
  | none => s

def stop (s : UdpListener) : UdpListener :=
  { s with
    peers := []
    tasks := []
    activePeers := 0
    stopped := true
    removed := s.removed ++ s.peers.map fun e => e.2.number }

inductive Event where
  | receive (d : Datagram)
  /-- The target is resolved again, or cannot be. -/
  | resolve (target : Option IpAddress)
  /-- An iteration that touches no peer: a task is joined, the STUN server is
  asked or answers, receiving fails. -/
  | other
  | stop
  /-- A reply of the target, and whether the client can be sent to. -/
  | reply (number now : Nat) (sent : Bool)
  | targetFailed (number : Nat)
  | tick (number now : Nat)
  | cancelled (number : Nat)
  | leave (number : Nat)

def passing (f : PeerTask → PeerTask) (t : PeerTask) : PeerTask :=
  if t.leaving then t else f t

def step (s : UdpListener) (e : Event) : UdpListener :=
  if s.stopped then s else
  match e with
  | .receive d => s.receive d
  | .resolve target => { s with target := target }
  | .other => s
  | .stop => s.stop
  | .reply number now sent => s.onTask number <| passing fun t =>
      if sent then { t with lastSeen := now } else { t with leaving := true }
  | .targetFailed number => s.onTask number <| passing fun t => { t with leaving := true }
  | .tick number now => s.onTask number <| passing fun t =>
      { t with leaving := udpPeerExpired t.lastSeen now s.rule.idleTimeoutSec }
  | .cancelled number => s.onTask number <| passing fun t => { t with leaving := t.cancel }
  | .leave number => s.leave number

/-- The relay when its task starts. -/
def start (rule : Rule) (target : Option IpAddress) : UdpListener := { rule := rule, target := target }

-- ---------------------------------------------------------------------------
-- What every step keeps
-- ---------------------------------------------------------------------------

variable {rule : Rule} {s : UdpListener} {client target : SocketAddr} {token : UInt64} {number : Nat}

def numbers (s : UdpListener) : List Nat := s.peers.map fun e => e.2.number

def Owned (tasks : List PeerTask) (e : SocketAddr × UdpPeer) : Prop :=
  ∃ t ∈ tasks, t.number = e.2.number ∧ t.client = e.1 ∧ t.token = e.2.token

structure Invariant (rule : Rule) (s : UdpListener) : Prop where
  same : s.rule = rule
  bound : rule.maxConnections < 2 ^ 32
  clients : (Dict.keys s.peers).Nodup
  /-- Every entry that was made is in the table or has been removed, once. -/
  once : (s.removed ++ s.numbers).Perm (List.range s.made)
  counter : s.activePeers.toNat = s.peers.length
  limit : s.peers.length ≤ rule.maxConnections
  known : ∀ t ∈ s.tasks, t.number < s.made
  tasks : (s.tasks.map PeerTask.number).Nodup
  owned : ∀ e ∈ s.peers, Owned s.tasks e

theorem invariant_start {rule : Rule} (h : rule.Typed) (target : Option IpAddress) :
    Invariant rule (start rule target) := by
  obtain ⟨-, -, -, hbound, -⟩ := h
  refine ⟨rfl, hbound, ?_, ?_, ?_, ?_, ?_, ?_, ?_⟩ <;> simp [start, numbers, Dict.keys]

theorem Invariant.onTask (h : Invariant rule s) (number : Nat) {f : PeerTask → PeerTask}
    (hf : ∀ t, (f t).number = t.number ∧ (f t).client = t.client ∧ (f t).token = t.token) :
    Invariant rule (s.onTask number f) := by
  have hnumber : ∀ t, (if t.number = number then f t else t).number = t.number := by
    intro t
    split
    · exact (hf t).1
    · rfl
  refine { h with known := ?_, tasks := ?_, owned := ?_ }
  · rintro t ht
    obtain ⟨old, hold, rfl⟩ := List.mem_map.mp ht
    exact (hnumber old).trans_lt (h.known old hold)
  · have hsame : (s.onTask number f).tasks.map PeerTask.number = s.tasks.map PeerTask.number := by
      rw [UdpListener.onTask, List.map_map]
      exact List.map_congr_left fun t _ => hnumber t
    rw [hsame]
    exact h.tasks
  · rintro e he
    obtain ⟨t, ht, hn, hclient, htoken⟩ := h.owned e he
    refine ⟨_, List.mem_map_of_mem ht, (hnumber t).trans hn, ?_, ?_⟩
    · split
      · exact (hf t).2.1.trans hclient
      · exact hclient
    · split
      · exact (hf t).2.2.trans htoken
      · exact htoken

theorem Invariant.seen (h : Invariant rule s) (number now : Nat) : Invariant rule (s.seen number now) :=
  h.onTask number fun _ => ⟨rfl, rfl, rfl⟩

theorem passing_same {f : PeerTask → PeerTask}
    (hf : ∀ t, (f t).number = t.number ∧ (f t).client = t.client ∧ (f t).token = t.token)
    (t : PeerTask) : (passing f t).number = t.number ∧ (passing f t).client = t.client ∧
      (passing f t).token = t.token := by
  unfold passing
  split
  · exact ⟨rfl, rfl, rfl⟩
  · exact hf t

theorem remove_cases (s : UdpListener) (client : SocketAddr) (token : UInt64) :
    (∃ peer, Dict.get? s.peers client = some peer ∧ peer.token = token ∧
        s.remove client token = { s with
          peers := Dict.erase s.peers client
          activePeers := s.activePeers - 1
          removed := s.removed ++ [peer.number] }) ∨
      (s.remove client token = s ∧
        ∀ peer, Dict.get? s.peers client = some peer → peer.token ≠ token) := by
  unfold remove
  cases hget : Dict.get? s.peers client with
  | none => exact .inr ⟨rfl, by simp⟩
  | some peer =>
    by_cases htoken : peer.token = token
    · exact .inl ⟨peer, rfl, htoken, if_pos htoken⟩
    · refine .inr ⟨if_neg htoken, ?_⟩
      rintro other hother
      cases hother
      exact htoken

theorem Invariant.remove (h : Invariant rule s) (client : SocketAddr) (token : UInt64) :
    Invariant rule (s.remove client token) := by
  rcases remove_cases s client token with ⟨peer, hget, -, heq⟩ | ⟨heq, -⟩
  · have hperm := Dict.perm_erase h.clients hget
    have hlength := hperm.length_eq
    rw [List.length_cons] at hlength
    have hsub : (Dict.erase s.peers client).Sublist s.peers := List.filter_sublist
    have hcounter := h.counter
    have hlimit := h.limit
    rw [heq]
    refine ⟨h.same, h.bound, h.clients.sublist (hsub.map _), ?_, ?_, ?_, h.known, h.tasks, fun e he => ?_⟩
    · have hnumbers := hperm.map fun e : SocketAddr × UdpPeer => e.2.number
      have hmoved := (hnumbers.append_left s.removed).symm.trans h.once
      simpa [numbers] using hmoved
    · have hone : (1 : UInt64) ≤ s.activePeers := by
        rw [UInt64.le_iff_toNat_le, hcounter, hlength]
        simp
      rw [UInt64.toNat_sub_of_le _ _ hone, hcounter, hlength]
      simp
    · exact hsub.length_le.trans hlimit
    · exact h.owned e (hsub.subset he)
  · rwa [heq]

theorem Invariant.create (h : Invariant rule s) (now : Nat)
    (hroom : s.peers.length < rule.maxConnections) (hnew : client ∉ Dict.keys s.peers) :
    Invariant rule (s.create now client target) := by
  have hset := Dict.set_of_notMem (⟨s.made, s.nextToken, target⟩ : UdpPeer) hnew
  have hcounter := h.counter
  have hbound := h.bound
  refine ⟨h.same, hbound, Dict.nodup_keys_set _ _ h.clients, ?_, ?_, ?_, ?_, ?_, ?_⟩
  · have hnumbers : (s.create now client target).numbers = s.numbers ++ [s.made] := by
      simp [numbers, UdpListener.create, hset]
    rw [hnumbers, ← List.append_assoc]
    exact (h.once.append_right [s.made]).trans (.of_eq List.range_succ.symm)
  · have hadd : (s.activePeers + 1).toNat = s.activePeers.toNat + 1 := by
      rw [UInt64.toNat_add]
      simp
      omega
    simp [UdpListener.create, hset, hadd, hcounter]
  · simp [UdpListener.create, hset]
    omega
  · rintro t ht
    rcases List.mem_append.mp ht with ht | ht
    · exact (h.known t ht).trans (Nat.lt_succ_self _)
    · rw [List.mem_singleton.mp ht]
      exact Nat.lt_succ_self _
  · have hlast : s.made ∉ s.tasks.map PeerTask.number := by
      rintro hmem
      obtain ⟨t, ht, heq⟩ := List.mem_map.mp hmem
      exact absurd (h.known t ht) (by omega)
    simp only [UdpListener.create, List.map_append, List.map_cons, List.map_nil]
    exact List.nodup_append.mpr ⟨h.tasks, List.nodup_singleton _, fun a ha b hb hab =>
      hlast (by rwa [← List.mem_singleton.mp hb, ← hab])⟩
  · rintro e he
    rcases Dict.mem_set he with rfl | he
    · exact ⟨_, List.mem_append_right _ (List.mem_singleton_self _), rfl, rfl, rfl⟩
    · obtain ⟨t, ht, hsame⟩ := h.owned e he
      exact ⟨t, List.mem_append_left _ ht, hsame⟩

theorem Invariant.forward (h : Invariant rule s) (d : Datagram) (number : Nat) :
    Invariant rule (s.forward d number) := by
  unfold UdpListener.forward
  split
  · exact h.seen _ _
  · exact h

theorem Invariant.accept (h : Invariant rule s) (d : Datagram) (hnew : d.client ∉ Dict.keys s.peers) :
    Invariant rule (s.accept d target) := by
  unfold UdpListener.accept
  split
  · exact h
  · rename_i hroom
    rw [h.same] at hroom
    split
    · exact (h.create d.now (Nat.lt_of_not_le hroom) hnew).forward d _
    · exact h

theorem notMem_remove {peer : UdpPeer} (hget : Dict.get? s.peers client = some peer) :
    client ∉ Dict.keys (s.remove client peer.token).peers := by
  rcases remove_cases s client peer.token with ⟨_, _, _, heq⟩ | ⟨_, hnone⟩
  · rw [heq, ← Dict.get?_isSome]
    simp [Dict.get?_erase]
  · exact absurd rfl (hnone peer hget)

theorem Invariant.receive (h : Invariant rule s) (d : Datagram) : Invariant rule (s.receive d) := by
  unfold UdpListener.receive
  split
  · exact h
  · dsimp only
    split
    · rename_i peer hget
      split
      · have hcancelled := h.onTask peer.number (f := fun t => { t with cancel := true })
          fun _ => ⟨rfl, rfl, rfl⟩
        exact (hcancelled.remove d.client peer.token).accept d (notMem_remove hget)
      · exact (h.seen _ _).forward d _
    · rename_i hget
      exact h.accept d (Dict.get?_eq_none.mp hget)

theorem Invariant.leave (h : Invariant rule s) (number : Nat) : Invariant rule (s.leave number) := by
  unfold UdpListener.leave
  split
  · rename_i t hfind
    have hmem := List.mem_of_find?_eq_some hfind
    have hnumber : t.number = number := by
      have hp := List.find?_some hfind
      simp only [Bool.and_eq_true, beq_iff_eq] at hp
      exact hp.1
    have hremoved := h.remove t.client t.token
    have htasks : (s.remove t.client t.token).tasks = s.tasks := by
      rcases remove_cases s t.client t.token with ⟨_, _, _, heq⟩ | ⟨heq, _⟩ <;> rw [heq]
    refine { hremoved with known := ?_, tasks := ?_, owned := ?_ }
    · exact fun t ht => hremoved.known t (List.mem_filter.mp ht).1
    · exact hremoved.tasks.sublist (List.filter_sublist.map _)
    · rintro e he
      obtain ⟨own, hown, hsame, hclient, htoken⟩ := hremoved.owned e he
      refine ⟨own, List.mem_filter.mpr ⟨hown, ?_⟩, hsame, hclient, htoken⟩
      rw [bne_iff_ne]
      rintro hleaves
      -- the entry would be the one that was removed
      rw [htasks] at hown
      obtain rfl : own = t := List.inj_on_of_nodup_map h.tasks hown hmem (hleaves.trans hnumber.symm)
      rcases remove_cases s own.client own.token with ⟨_, _, _, heq⟩ | ⟨heq, hnone⟩
      · rw [heq] at he
        exact (Dict.mem_erase.mp he).2 hclient.symm
      · rw [heq] at he
        exact hnone e.2 (Dict.get?_of_mem h.clients (hclient ▸ he)) htoken.symm
  · exact h

theorem Invariant.stop (h : Invariant rule s) : Invariant rule s.stop := by
  refine ⟨h.same, h.bound, by simp [UdpListener.stop, Dict.keys], ?_, rfl, Nat.zero_le _, ?_, ?_, ?_⟩
  rotate_left
  · simp [UdpListener.stop]
  · simp [UdpListener.stop]
  · simp [UdpListener.stop]
  have honce := h.once
  simpa [UdpListener.stop, numbers] using honce

theorem Invariant.step (h : Invariant rule s) (e : Event) : Invariant rule (s.step e) := by
  unfold UdpListener.step
  split
  · exact h
  · cases e with
    | receive d => exact h.receive d
    | resolve target => exact { h with }
    | other => exact h
    | stop => exact h.stop
    | reply number now sent =>
      refine h.onTask number (passing_same fun t => ?_)
      split <;> exact ⟨rfl, rfl, rfl⟩
    | targetFailed number => exact h.onTask number (passing_same fun _ => ⟨rfl, rfl, rfl⟩)
    | tick number now => exact h.onTask number (passing_same fun _ => ⟨rfl, rfl, rfl⟩)
    | cancelled number => exact h.onTask number (passing_same fun _ => ⟨rfl, rfl, rfl⟩)
    | leave number => exact h.leave number

/-- The counter is the number of entries and within the limit of the rule;
every entry that was made is in the table or has been removed and counted down
once, and one in the table has its task. -/
structure Accounted (rule : Rule) (s : UdpListener) : Prop where
  counter : s.activePeers.toNat = s.peers.length
  limit : s.peers.length ≤ rule.maxConnections
  once : (s.removed ++ s.numbers).Perm (List.range s.made)
  counted : s.activePeers.toNat + s.removed.length = s.made
  owned : ∀ e ∈ s.peers, Owned s.tasks e

theorem Invariant.accounted (h : Invariant rule s) : Accounted rule s := by
  refine ⟨h.counter, h.limit, h.once, ?_, h.owned⟩
  have hlength := h.once.length_eq
  have hcounter := h.counter
  simp [numbers] at hlength
  omega

/-- **Peers are accounted for**, whatever the interleaving. -/
theorem sessions_accounted (rule : Rule) (target : Option IpAddress) (h : rule.Typed)
    (events : List Event) : Accounted rule (run step (start rule target) events) :=
  (run_invariant (invariant_start h target) fun _ e hs => hs.step e).accounted

end UdpListener

section
open UdpListener

def dnsRule : Rule :=
  { webRule with id := "dns", transportProtocol := "UDP", targetPort := 53, maxConnections := 1 }

def lanClient : SocketAddr := .v6 0xfd00000000000000000000000000000a 40000 0 0

/-- A client is admitted, the target moves and the client gets a new entry, its
first task leaves, and then the second one fails. -/
def targetMoves : List Event :=
  [.receive ⟨lanClient, 0, 0, true, true⟩, .resolve (some (.v4 0xc0a80115)),
    .receive ⟨lanClient, 5, 5, true, true⟩, .cancelled 0, .leave 0, .targetFailed 1, .leave 1]

theorem accounted_targetMoves :
    (run step (start dnsRule (some (.v4 0xc0a80114))) targetMoves).removed = [0, 1] ∧
      Accounted dnsRule (run step (start dnsRule (some (.v4 0xc0a80114))) targetMoves) :=
  ⟨by decide +kernel, sessions_accounted dnsRule _
    ⟨by decide, by decide, by simp [dnsRule, webRule], by decide, by decide⟩ _⟩

end

end LabProbe.Relay
