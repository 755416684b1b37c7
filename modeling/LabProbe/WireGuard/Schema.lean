import LabProbe.WireGuard.Cidr

/-!
# The servers both sides take

The Hub decodes a public key without looking at the bits left over, keeps
the scope of a network, and bounds no endpoint revision. The agent takes a
server the Hub has accepted just when none of these shows.
-/

namespace LabProbe.WireGuard

open Py Py.Json Hub Check
open Relay (readText readBool readNat trim)

-- ---------------------------------------------------------------------------
-- Profiles
-- ---------------------------------------------------------------------------

/-- The profile as the agent reads it. -/
def EndpointProfile.desired (p : EndpointProfile) : DesiredProfile where
  id := p.id
  endpointSource := p.endpointSource
  owner := p.owner
  hostname := p.hostname
  publicEndpoint := ""
  resolvedEndpoint := p.resolvedEndpoint
  stunRuleId := p.stunRuleId
  bindingMode := p.bindingMode
  forwardMode := p.forwardMode
  transportProtocol := if p.localTargetPort.isSome then "UDP" else ""
  localTargetPort := (p.localTargetPort.map Int.toNat).getD 0
  port := p.port.toNat
  endpointRevision := p.endpointRevision.toNat

theorem readUnsigned_int {bits : Nat} {n : Int} (h : 0 ≤ n) (hn : n < 2 ^ bits) :
    Relay.readUnsigned bits (.int n) = some n.toNat := if_pos ⟨h, hn⟩

theorem readProfile_desired {p : EndpointProfile} (hport : 1 ≤ p.port ∧ p.port ≤ 65535)
    (htarget : ∀ port ∈ p.localTargetPort, 1 ≤ port ∧ port ≤ 65535)
    (hrevision : 0 ≤ p.endpointRevision) :
    readProfileDesired p.toJson = if p.endpointRevision < 2 ^ 64 then some p.desired else none := by
  have hreadPort : readNat 16 p.toJson "port" 0 = some p.port.toNat :=
    readUnsigned_int (by omega) (by omega)
  have hreadTarget : readNat 16 p.toJson "localTargetPort" 0 =
      some ((p.localTargetPort.map Int.toNat).getD 0) := by
    cases htargetPort : p.localTargetPort with
    | none =>
      have hget : Dict.get? p.toJson "localTargetPort" = none := by
        rw [EndpointProfile.toJson, htargetPort]
        rfl
      rw [readNat, hget]
      rfl
    | some port =>
      obtain ⟨hlow, hhigh⟩ := htarget port htargetPort
      have hget : Dict.get? p.toJson "localTargetPort" = some (.int port) := by
        rw [EndpointProfile.toJson, htargetPort]
        rfl
      rw [readNat, hget]
      exact readUnsigned_int (by omega) (by omega)
  have hprotocol : readText p.toJson "transportProtocol" "" =
      some (if p.localTargetPort.isSome then "UDP" else "") := by
    cases htargetPort : p.localTargetPort with
    | none => rw [readText, EndpointProfile.toJson, htargetPort]; rfl
    | some port => rw [readText, EndpointProfile.toJson, htargetPort]; rfl
  have hpublic : readText p.toJson "publicEndpoint" "" = some "" := by
    cases htargetPort : p.localTargetPort with
    | none => rw [readText, EndpointProfile.toJson, htargetPort]; rfl
    | some port => rw [readText, EndpointProfile.toJson, htargetPort]; rfl
  have hreadRevision : readNat 64 p.toJson "endpointRevision" 0 =
      if p.endpointRevision < 2 ^ 64 then some p.endpointRevision.toNat else none := by
    change (if 0 ≤ p.endpointRevision ∧ p.endpointRevision < 2 ^ 64 then _ else _) = _
    simp only [hrevision, true_and]
  have htexts : requireText p.toJson "id" = some p.id ∧
      requireText p.toJson "endpointSource" = some p.endpointSource ∧
      readText p.toJson "owner" "" = some p.owner ∧
      readText p.toJson "hostname" "" = some p.hostname ∧
      readText p.toJson "resolvedEndpoint" "" = some p.resolvedEndpoint ∧
      readText p.toJson "stunRuleId" "" = some p.stunRuleId ∧
      readText p.toJson "bindingMode" "" = some p.bindingMode ∧
      readText p.toJson "forwardMode" "" = some p.forwardMode :=
    ⟨rfl, rfl, rfl, rfl, rfl, rfl, rfl, rfl⟩
  obtain ⟨hid, hsource, howner, hhostname, hendpoint, hrule, hbinding, hforward⟩ := htexts
  rw [readProfileDesired, hid, hsource, howner, hhostname, hpublic, hendpoint, hrule, hbinding,
    hforward, hprotocol, hreadTarget, hreadPort, hreadRevision]
  by_cases hlimit : p.endpointRevision < 2 ^ 64
  · rw [if_pos hlimit, if_pos hlimit]
    rfl
  · rw [if_neg hlimit, if_neg hlimit]
    rfl

theorem isBlank_of_head {s : String} (hne : s ≠ "")
    (h : ∀ c ∈ s.toList.head?, isSpace c = false) : isBlank s = false := by
  rw [isBlank, List.all_eq_false]
  cases hs : s.toList with
  | nil => exact absurd (String.toList_inj.mp hs) hne
  | cons c cs =>
    have hspace : isSpace c = false := h c (by rw [hs]; rfl)
    exact ⟨c, List.mem_cons_self, by simp [isWhitespace, hspace]⟩

theorem head_strip (s : String) : ∀ c ∈ (strip s).toList.head?, isSpace c = false :=
  (Relay.trimMatches_eq_self_iff.mp (strip_strip s)).1

theorem head_rstripChar {c : Char} {s : String} (hne : rstripChar c s ≠ "") :
    (rstripChar c s).toList.head? = s.toList.head? := by
  obtain ⟨rest, hrest⟩ := List.rdropWhile_prefix (· == c) s.toList
  rw [rstripChar, String.toList_ofList]
  cases hkept : s.toList.rdropWhile (· == c) with
  | nil => exact absurd (by rw [rstripChar, hkept]) hne
  | cons d ds =>
    rw [hkept] at hrest
    rw [← hrest]
    rfl

section
variable [Unicode]

/-- `str.lower` makes no white space of the character a text starts with. -/
def LowerKeepsStart : Prop :=
  ∀ s : String, (∀ c ∈ s.toList.head?, isSpace c = false) →
    ∀ c ∈ (Unicode.lower s).toList.head?, isSpace c = false

omit [Unicode] in
theorem isWord_ne_empty {extra : List Char} {limit : Nat} {s : String}
    (h : isWord extra limit s = true) : s ≠ "" := by
  rintro rfl
  simp [isWord] at h

theorem validateProfile_cleaned (hlower : LowerKeepsStart) {o : Opening} {fresh : String}
    {raw : Entries} {p : EndpointProfile} (hp : CleanedProfile o fresh raw p) (hmode : Mode o raw p) :
    validateProfile o.listenPort.toNat p.desired = .ok () := by
  have hsources := hp.sources
  cases hmode with
  | manual source endpoint binding owner hostname target =>
    have hblank : isBlank p.resolvedEndpoint = false := by
      refine isBlank_of_head endpoint ?_
      rw [hp.endpoint]
      exact head_strip _
    simp [validateProfile, EndpointProfile.desired, source, binding, owner, hblank, require,
      endpointSources, bind, Except.bind]
  | ddns source binding owner some hostname target =>
    have hblank : isBlank p.hostname = false := by
      refine isBlank_of_head some ?_
      rw [hostname] at some ⊢
      rw [head_rstripChar some]
      exact hlower _ (head_strip _)
    simp [validateProfile, EndpointProfile.desired, source, binding, owner, hblank, require,
      endpointSources, bind, Except.bind]
  | stun source binding owner hostname rule forward target =>
    have hblank : isBlank p.hostname = true := by rw [hostname]; rfl
    have hrule := isWord_ne_empty rule
    simp [validateProfile, EndpointProfile.desired, source, binding, owner, hblank, forward, target,
      hrule, require, endpointSources, bind, Except.bind]

-- ---------------------------------------------------------------------------
-- Peers
-- ---------------------------------------------------------------------------

omit [Unicode] in
theorem mapM_some {α β γ : Type} {f : β → Option γ} {g : α → β} {k : α → γ} {l : List α}
    (h : ∀ a ∈ l, f (g a) = some (k a)) : (l.map g).mapM f = some (l.map k) := by
  induction l with
  | nil => rfl
  | cons a l ih =>
    obtain ⟨ha, hl⟩ := List.forall_mem_cons.mp h
    rw [List.map_cons, List.mapM_cons, ha, ih hl]
    rfl

omit [Unicode] in
theorem mapM_none {α β : Type} {f : α → Option β} {l : List α} {a : α} (ha : a ∈ l)
    (h : f a = none) : l.mapM f = none := by
  induction l with
  | nil => cases ha
  | cons b l ih =>
    rw [List.mapM_cons]
    rcases List.mem_cons.mp ha with rfl | ha
    · rw [h]
      rfl
    · rw [ih ha]
      cases f b <;> rfl

/-- The peer as the agent reads it. -/
def Peer.desired (p : Peer) : DesiredPeer where
  id := p.id
  name := p.name
  publicKey := p.publicKey
  allowedIps := p.allowedIps
  persistentKeepaliveSeconds := p.persistentKeepaliveSeconds.toNat

omit [Unicode] in
theorem readPeer_desired {p : Peer}
    (h : 0 ≤ p.persistentKeepaliveSeconds ∧ p.persistentKeepaliveSeconds ≤ 600) :
    readPeerDesired p.toJson = some p.desired := by
  have hallowed : readList readString (.list (p.allowedIps.map .str)) = some p.allowedIps := by
    have hread := mapM_some (f := readString) (g := Json.str) (k := id) (l := p.allowedIps)
      fun _ _ => rfl
    rw [List.map_id] at hread
    exact hread
  have hkeepalive : readNat 16 p.toJson "persistentKeepaliveSeconds" 0 =
      some p.persistentKeepaliveSeconds.toNat := readUnsigned_int (by omega) (by omega)
  have htexts : requireText p.toJson "id" = some p.id ∧ readText p.toJson "name" "" = some p.name ∧
      requireText p.toJson "publicKey" = some p.publicKey ∧
      Dict.get? p.toJson "allowedIps" = some (.list (p.allowedIps.map .str)) :=
    ⟨rfl, rfl, rfl, rfl⟩
  obtain ⟨hid, hname, hkey, hlist⟩ := htexts
  rw [readPeerDesired, hid, hname, hkey, hlist, hkeepalive]
  simp only [Option.bind_eq_bind, Option.bind_some, hallowed]
  rfl

def keepsScope (s : String) : Bool := (ipNetwork s).any fun network => !network.scope.isEmpty

/-- What the agent asks of the row of a peer that the Hub has accepted. -/
structure PeerReadable (raw : Entries) : Prop where
  key : Base64.isCanonical (Hub.text (get raw "publicKey")) = true
  scopes : ∀ value ∈ (iterate (get raw "allowedIps")).toOption.getD [],
    keepsScope (Hub.text value) = false

theorem publicKey_ok {value : Json} {key : String} (h : publicKey value = .ok key) :
    key = Hub.text value ∧ ∃ bytes, Base64.decode key = some bytes ∧ bytes.length = 32 := by
  unfold publicKey at h
  split at h
  · cases h
  · rename_i bytes hdecode
    obtain ⟨_, hlength, h⟩ := bind_eq_ok.mp h
    cases h
    exact ⟨rfl, bytes, hdecode, by simpa [require_eq_ok] using hlength⟩

omit [Unicode] in
theorem keyFromBase64_of_decode {s : String} {bytes : List Nat} (hdecode : Base64.decode s = some bytes)
    (hlength : bytes.length = 32) :
    (keyFromBase64 s).isSome = true ↔ Base64.isCanonical s = true := by
  simp only [keyFromBase64, Base64.isCanonical, hdecode, hlength, true_and, Option.map_some,
    beq_iff_eq, Option.some.injEq]
  split
  · rename_i hencode
    simp [hencode]
  · rename_i hencode
    simp [hencode]

theorem allowed_readable {rows : List Json} {allowed : List String}
    (h : rows.mapM allowedIp = .ok allowed) : (∀ s ∈ allowed, (parseCidr s).isOk = true) ↔
      ∀ value ∈ rows, keepsScope (Hub.text value) = false := by
  have hall := mapM_ok h
  clear h
  induction hall with
  | nil => simp
  | @cons value s rows allowed hvalue hrest ih =>
    rw [List.forall_mem_cons, List.forall_mem_cons]
    refine and_congr ?_ ih
    unfold allowedIp at hvalue
    split at hvalue
    · rename_i network hnetwork
      cases hvalue
      rw [parseCidr_network hnetwork, keepsScope, hnetwork]
      simp
    · cases hvalue

theorem peerOk_iff {raw : Entries} {p : Peer} (h : CleanedPeer raw p) :
    PeerOk p.desired ↔ PeerReadable raw := by
  obtain ⟨hkey, bytes, hdecode, hlength⟩ := publicKey_ok h.publicKey
  obtain ⟨rows, hrows, hallowed⟩ := h.allowedIps
  have htrim : trim p.publicKey = p.publicKey := by
    apply Relay.trim_of_strip
    rw [hkey]
    exact strip_strip _
  have hcanonical := keyFromBase64_of_decode hdecode hlength
  have hscopes := allowed_readable hallowed
  constructor
  · rintro ⟨-, hkeyOk, -, hallowedOk, -⟩
    change (keyFromBase64 (trim p.publicKey)).isSome = true at hkeyOk
    rw [htrim, hcanonical, hkey] at hkeyOk
    refine ⟨hkeyOk, ?_⟩
    rw [hrows]
    exact hscopes.mp (validateAllowed_eq_ok.mp hallowedOk)
  · rintro ⟨hkeyOk, hallowedOk⟩
    rw [hrows] at hallowedOk
    refine ⟨isWord_ne_empty h.word, ?_, h.someAllowed,
      validateAllowed_eq_ok.mpr (hscopes.mpr hallowedOk), ?_⟩
    · change (keyFromBase64 (trim p.publicKey)).isSome = true
      rw [htrim, hcanonical, hkey]
      exact hkeyOk
    · have hkeepalive := h.keepalive.2
      change p.persistentKeepaliveSeconds.toNat ≤ 600
      omega

-- ---------------------------------------------------------------------------
-- Servers
-- ---------------------------------------------------------------------------

def oldProfiles (old : Entries) : List (String × Entries) :=
  profilesById ((iterate (get old "endpointProfiles")).toOption.getD [])

/-- What the agent asks of a request that the Hub has accepted: canonical
keys, networks that keep no scope, and revisions of 64 bits. -/
structure Readable (r : Readings) (payload old : Entries) : Prop where
  peers : ∀ raw, .dict raw ∈ peerRows payload old → PeerReadable raw
  revisions : ∀ i raw, (profileRows payload old)[i]? = some (.dict raw) →
    rowRevision (oldProfiles old) (rowId (r.profileId i) raw) raw < 2 ^ 64

/-- The server as the agent reads it. -/
def CleanedServer.desired (s : CleanedServer) : DesiredServer where
  interfaceName := s.interfaceName
  address := s.address
  listenPort := s.listenPort.toNat
  mtu := s.mtu.toNat
  enabled := s.enabled
  revision := 0
  peers := s.peers.map Peer.desired
  endpointProfiles := s.endpointProfiles.map EndpointProfile.desired

variable {r : Readings} {payload old : Entries} {server : CleanedServer} {o : Opening}

theorem Mode.target {raw : Entries} {p : EndpointProfile} (h : Mode o raw p) :
    ∀ port ∈ p.localTargetPort, port = o.listenPort := by
  cases h with
  | manual _ _ _ _ _ target => simp [target]
  | ddns _ _ _ _ _ target => simp [target]
  | stun _ _ _ _ _ _ target => simp [target]

theorem readServer_desired (h : Cleaned r payload old server o)
    (hpeers : ∀ p ∈ server.peers, readPeerDesired p.toJson = some p.desired) :
    readServerDesired server.toJson =
      if ∀ p ∈ server.endpointProfiles, p.endpointRevision < 2 ^ 64 then some server.desired
      else none := by
  have hopened := opening_ok h.opening
  have hport : 1 ≤ server.listenPort ∧ server.listenPort ≤ 65535 := by
    rw [h.listenPort]
    exact hopened.port
  have hread : ∀ p ∈ server.endpointProfiles, readProfileDesired p.toJson =
      if p.endpointRevision < 2 ^ 64 then some p.desired else none := by
    intro p hp
    obtain ⟨raws, -, hlen, hall⟩ := h.profiles
    obtain ⟨i, hi, rfl⟩ := List.mem_iff_getElem.mp hp
    obtain ⟨hcleaned, hmode⟩ := hall i raws[i] _ (List.getElem?_eq_getElem (hlen ▸ hi))
      (List.getElem?_eq_getElem hi)
    refine readProfile_desired (hcleaned.port hopened.port) (fun port hmem => ?_) ?_
    · rw [hmode.target port hmem]
      exact hopened.port
    · rw [hcleaned.revision]
      exact le_max_left _ _
  have hlistenPort : readNat 16 server.toJson "listenPort" 51820 = some server.listenPort.toNat :=
    readUnsigned_int (by omega) (by omega)
  have hmtu : readNat 16 server.toJson "mtu" 1420 = some server.mtu.toNat := by
    have hrange := h.mtu
    exact readUnsigned_int (by omega) (by omega)
  have hpeerList : readListOr (fun v => v.dict?.bind readPeerDesired) server.toJson "peers" =
      some (server.peers.map Peer.desired) :=
    mapM_some (g := fun p : Peer => Json.dict p.toJson) hpeers
  have hrest : readText server.toJson "interfaceName" "labwg0" = some server.interfaceName ∧
      readText server.toJson "address" "10.77.0.1/24" = some server.address ∧
      readBool server.toJson "enabled" true = some server.enabled ∧
      readNat 64 server.toJson "revision" 0 = some 0 := ⟨rfl, rfl, rfl, rfl⟩
  obtain ⟨hname, haddress, henabled, hrevision⟩ := hrest
  rw [readServerDesired, hname, haddress, hlistenPort, hmtu, henabled, hrevision, hpeerList]
  split
  · rename_i hall
    have hprofiles : readListOr (fun v => v.dict?.bind readProfileDesired) server.toJson
        "endpointProfiles" = some (server.endpointProfiles.map EndpointProfile.desired) :=
      mapM_some (g := fun p : EndpointProfile => Json.dict p.toJson) fun p hp =>
        (hread p hp).trans (if_pos (hall p hp))
    rw [hprofiles]
    rfl
  · rename_i hall
    obtain ⟨p, hp, hlarge⟩ : ∃ p ∈ server.endpointProfiles, ¬p.endpointRevision < 2 ^ 64 := by
      simpa using hall
    have hprofiles : readListOr (fun v => v.dict?.bind readProfileDesired) server.toJson
        "endpointProfiles" = none :=
      mapM_none (List.mem_map_of_mem hp) ((hread p hp).trans (if_neg hlarge))
    rw [hprofiles]
    rfl

omit [Unicode] in
theorem isAsciiInterfaceName_of_isWord {name : String} (h : isWord ['_', '.', '-'] 15 name = true) :
    isAsciiInterfaceName name = true ∧ name.utf8ByteSize ≤ 15 := by
  have hne := isWord_ne_empty h
  simp only [isWord, Bool.and_eq_true, List.all_eq_true, Bool.or_eq_true, decide_eq_true_eq] at h
  obtain ⟨⟨-, hlength⟩, hall⟩ := h
  constructor
  · simp only [isAsciiInterfaceName, Bool.and_eq_true, bne_iff_ne, List.all_eq_true, Bool.or_eq_true]
    refine ⟨hne, fun c hc => (hall c hc).imp_right fun hextra => ?_⟩
    simp only [List.contains_eq_mem, decide_eq_true_eq, List.mem_cons, List.not_mem_nil,
      or_false] at hextra ⊢
    tauto
  · have hsize : ∀ c ∈ name.toList, c.utf8Size = 1 := by
      intro c hc
      rcases hall c hc with halnum | hextra
      · have hrange := toNat_of_isAlphanum halnum
        rw [Char.utf8Size_eq_one_iff, UInt32.le_iff_toNat_le]
        change c.toNat ≤ 127
        omega
      · simp only [List.contains_eq_mem, decide_eq_true_eq, List.mem_cons, List.not_mem_nil,
          or_false] at hextra
        rcases hextra with rfl | rfl | rfl <;> rfl
    rw [← String.ofList_toList (s := name), Relay.utf8ByteSize_ofList_ascii hsize]
    exact hlength

theorem validateServer_desired (hlower : LowerKeepsStart) (h : Cleaned r payload old server o)
    (hpeers : (server.peers.map Peer.id).Nodup ∧ (server.peers.map Peer.publicKey).Nodup)
    (htrim : ∀ p ∈ server.peers, trim p.publicKey = p.publicKey) :
    validateServerDesired server.desired = .ok () ↔ ∀ p ∈ server.peers, PeerOk p.desired := by
  have hopened := opening_ok h.opening
  obtain ⟨hword, hlo⟩ : isWord ['_', '.', '-'] 15 server.interfaceName = true ∧
      server.interfaceName ≠ "lo" := by
    have hname := hopened.interfaceName
    rw [← h.interfaceName, checkInterface, require_eq_ok, Bool.and_eq_true, bne_iff_ne] at hname
    exact hname
  obtain ⟨hascii, hsize⟩ := isAsciiInterfaceName_of_isWord hword
  obtain ⟨value, n, hcidr⟩ := parseCidr_address hopened.address
  have hport : server.desired.listenPort ≠ 0 := by
    have hrange := hopened.port
    change server.listenPort.toNat ≠ 0
    rw [h.listenPort]
    omega
  have hmtu : 1280 ≤ server.desired.mtu ∧ server.desired.mtu ≤ 1500 := by
    have hrange := h.mtu
    change 1280 ≤ server.mtu.toNat ∧ server.mtu.toNat ≤ 1500
    omega
  have hprofiles : validateProfiles server.desired.listenPort [] server.desired.endpointProfiles =
      .ok () := by
    rw [validateProfiles_eq_ok]
    constructor
    · change ((server.endpointProfiles.map EndpointProfile.desired).map DesiredProfile.id).Nodup
      rw [List.map_map]
      exact h.profileIds
    · intro d hd
      obtain ⟨p, hp, rfl⟩ := List.mem_map.mp hd
      obtain ⟨raws, -, hlen, hall⟩ := h.profiles
      obtain ⟨i, hi, rfl⟩ := List.mem_iff_getElem.mp hp
      obtain ⟨hcleaned, hmode⟩ := hall i raws[i] _ (List.getElem?_eq_getElem (hlen ▸ hi))
        (List.getElem?_eq_getElem hi)
      refine ⟨isWord_ne_empty hcleaned.word, List.not_mem_nil, ?_⟩
      change validateProfile server.listenPort.toNat _ = _
      rw [h.listenPort]
      exact validateProfile_cleaned hlower hcleaned hmode
  have hpeersOk : validatePeers [] [] server.desired.peers = .ok () ↔
      ∀ p ∈ server.peers, PeerOk p.desired := by
    have hids : (server.desired.peers.map DesiredPeer.id).Nodup := by
      change ((server.peers.map Peer.desired).map DesiredPeer.id).Nodup
      rw [List.map_map]
      exact hpeers.1
    have hkeys : (server.desired.peers.map peerKey).Nodup := by
      have hmap : server.desired.peers.map peerKey = server.peers.map Peer.publicKey := by
        change (server.peers.map Peer.desired).map peerKey = _
        rw [List.map_map]
        exact List.map_congr_left htrim
      rw [hmap]
      exact hpeers.2
    rw [validatePeers_eq_ok]
    constructor
    · rintro ⟨-, -, hall⟩ p hp
      exact (hall _ (List.mem_map_of_mem hp)).2.2
    · intro hall
      refine ⟨hids, hkeys, fun d hd => ?_⟩
      obtain ⟨p, hp, rfl⟩ := List.mem_map.mp hd
      exact ⟨List.not_mem_nil, List.not_mem_nil, hall p hp⟩
  rw [← hpeersOk, validateServerDesired]
  have haddress : server.desired.address = o.address := h.address
  have hname : server.desired.interfaceName = server.interfaceName := rfl
  rw [haddress, hcidr, hname]
  simp [require, hascii, hsize, hlo, hport, hmtu, hprofiles, IpAddress.version, bind, Except.bind]

theorem peersOk_iff {raws : List Entries} {peers : List Peer}
    (h : List.Forall₂ CleanedPeer raws peers) :
    (∀ p ∈ peers, PeerOk p.desired) ↔ ∀ raw ∈ raws, PeerReadable raw := by
  induction h with
  | nil => simp
  | cons hpeer _ ih =>
    rw [List.forall_mem_cons, List.forall_mem_cons]
    exact and_congr (peerOk_iff hpeer) ih

theorem revisions_iff (h : Cleaned r payload old server o) :
    (∀ p ∈ server.endpointProfiles, p.endpointRevision < 2 ^ 64) ↔
      ∀ i raw, (profileRows payload old)[i]? = some (.dict raw) →
        rowRevision (oldProfiles old) (rowId (r.profileId i) raw) raw < 2 ^ 64 := by
  have hopened := opening_ok h.opening
  obtain ⟨raws, hrows, hlen, hall⟩ := h.profiles
  have hold : oldProfiles old = o.oldProfiles := by
    obtain ⟨rows, hiterate, hprofiles⟩ := hopened.oldProfiles
    rw [oldProfiles, hiterate, hprofiles]
    rfl
  have hrevision : ∀ i raw p, raws[i]? = some raw → server.endpointProfiles[i]? = some p →
      rowRevision (oldProfiles old) (rowId (r.profileId i) raw) raw = p.endpointRevision := by
    intro i raw p hraw hp
    obtain ⟨hcleaned, -⟩ := hall i raw p hraw hp
    rw [hold, ← hcleaned.id, hcleaned.revision]
  rw [hopened.rows, hrows]
  constructor
  · intro hbound i raw hraw
    obtain ⟨raw', hraw', heq⟩ := Option.map_eq_some_iff.mp ((List.getElem?_map ..).symm.trans hraw)
    obtain rfl := Json.dict.inj heq
    have hi : i < server.endpointProfiles.length :=
      hlen ▸ (List.getElem?_eq_some_iff.mp hraw').1
    rw [hrevision i raw' _ hraw' (List.getElem?_eq_getElem hi)]
    exact hbound _ (List.getElem_mem hi)
  · intro hbound p hp
    obtain ⟨i, hi, rfl⟩ := List.mem_iff_getElem.mp hp
    have hraw : raws[i]? = some (raws.get ⟨i, hlen ▸ hi⟩) := List.getElem?_eq_getElem (hlen ▸ hi)
    rw [← hrevision i _ _ hraw (List.getElem?_eq_getElem hi)]
    refine hbound i _ ?_
    rw [List.getElem?_map, hraw]
    rfl

/-- The agent takes a server the Hub has accepted just when the request is
readable. -/
theorem schema_agreed_iff (hlower : LowerKeepsStart) {rules rules' : Stun.Document}
    (h : cleanServer r payload old rules = (.ok server, rules')) :
    acceptsServer server.toJson = true ↔ Readable r payload old := by
  obtain ⟨o, hcleaned⟩ := cleanServer_ok h
  have hopened := opening_ok hcleaned.opening
  obtain ⟨raws, new, hraws, hnew, hall, hids, hkeys⟩ := cleanPeers_ok hopened.peers
  rw [List.nil_append] at hnew
  obtain rfl : new = server.peers := by rw [hcleaned.peers, hnew]
  have hrow := exists_of_mem_right hall
  have hread : ∀ p ∈ server.peers, readPeerDesired p.toJson = some p.desired := by
    intro p hp
    obtain ⟨raw, -, hpeer⟩ := hrow p hp
    exact readPeer_desired hpeer.keepalive
  have htrim : ∀ p ∈ server.peers, trim p.publicKey = p.publicKey := by
    intro p hp
    obtain ⟨raw, -, hpeer⟩ := hrow p hp
    obtain ⟨hkey, -⟩ := publicKey_ok hpeer.publicKey
    apply Relay.trim_of_strip
    rw [hkey]
    exact strip_strip _
  have hdistinct : (server.peers.map Peer.id).Nodup ∧ (server.peers.map Peer.publicKey).Nodup := by
    rw [hcleaned.peers]
    exact ⟨hids .nil, hkeys .nil⟩
  have hvalid := validateServer_desired hlower hcleaned hdistinct htrim
  rw [peersOk_iff hall] at hvalid
  have hpeerRows : (∀ raw ∈ raws, PeerReadable raw) ↔
      ∀ raw, .dict raw ∈ peerRows payload old → PeerReadable raw := by
    simp [hraws]
  rw [acceptsServer, readServer_desired hcleaned hread]
  constructor
  · intro haccepts
    split at haccepts
    · rename_i hrevisions
      have hok : validateServerDesired server.desired = .ok () := by
        cases hresult : validateServerDesired server.desired with
        | error => simp [hresult, Except.isOk, Except.toBool] at haccepts
        | ok u => rfl
      exact ⟨hpeerRows.mp (hvalid.mp hok), (revisions_iff hcleaned).mp hrevisions⟩
    · cases haccepts
  · rintro ⟨hpeers, hrevisions⟩
    rw [if_pos ((revisions_iff hcleaned).mpr hrevisions), Option.any_some,
      hvalid.mpr (hpeerRows.mpr hpeers)]
    rfl

end

section

local instance asciiSchema : Unicode := .ascii

theorem isSpace_toLower {c : Char} (h : isSpace c = false) : isSpace c.toLower = false := by
  by_cases hupper : c.isUpper = true
  · have hrange : 97 ≤ c.toLower.toNat ∧ c.toLower.toNat ≤ 122 := by
      simp only [isUpper_eq, decide_eq_true_eq] at hupper
      delta Char.toLower
      rw [dif_pos hupper, ← Char.toNat_val]
      have hlow : 65 ≤ c.val.toNat := UInt32.le_iff_toNat_le.mp hupper.1
      have hhigh : c.val.toNat ≤ 90 := UInt32.le_iff_toNat_le.mp hupper.2
      have hcase : ('a'.val - 'A'.val).toNat = 32 := rfl
      rw [UInt32.toNat_add, hcase]
      omega
    simp only [isSpace, Bool.or_eq_false_iff, Bool.and_eq_false_iff, decide_eq_false_iff_not,
      beq_eq_false_iff_ne]
    omega
  · rwa [Relay.toLower_eq_self_iff.mpr (Bool.not_eq_true _ ▸ hupper)]

theorem lowerKeepsStart_ascii : LowerKeepsStart := by
  intro s h c hc
  change c ∈ (asciiLower s).toList.head? at hc
  rw [asciiLower, String.toList_ofList, List.head?_map, Option.mem_map] at hc
  obtain ⟨c, hc, rfl⟩ := hc
  exact isSpace_toLower (h c hc)

def laptopReadings : Readings := ⟨"2026-01-01T00:00:00Z", fun n => n, fun n => n⟩

/-- A request with one peer. -/
def laptopRequest (key allowed : String) : Entries :=
  [("peers", .list [.dict [("id", .str "laptop"), ("publicKey", .str key),
    ("allowedIps", .list [.str allowed])]])]

/-- The answer of the agent to what the Hub makes of a request. -/
def agentAnswer (payload : Entries) : Option Bool :=
  (cleanServer laptopReadings payload [] {}).1.toOption.map fun server =>
    acceptsServer server.toJson

theorem schema_agreed_iff_laptop : ∃ server rules,
    cleanServer laptopReadings (laptopRequest "AAAAAAAAAAAAAAAAAAAAAAAAAAAAAAAAAAAAAAAAAAA="
      "10.77.0.2/32") [] {} = (.ok server, rules) ∧
    (acceptsServer server.toJson = true ↔ Readable laptopReadings (laptopRequest
      "AAAAAAAAAAAAAAAAAAAAAAAAAAAAAAAAAAAAAAAAAAA=" "10.77.0.2/32") []) := by
  have hanswer : agentAnswer (laptopRequest "AAAAAAAAAAAAAAAAAAAAAAAAAAAAAAAAAAAAAAAAAAA="
      "10.77.0.2/32") = some true := by decide +kernel
  obtain ⟨server, hserver, -⟩ := Option.map_eq_some_iff.mp hanswer
  rcases hclean : cleanServer laptopReadings (laptopRequest
      "AAAAAAAAAAAAAAAAAAAAAAAAAAAAAAAAAAAAAAAAAAA=" "10.77.0.2/32") [] {} with
    ⟨message | server, rules⟩
  · rw [hclean] at hserver
    cases hserver
  · exact ⟨server, rules, rfl, schema_agreed_iff lowerKeepsStart_ascii hclean⟩

/-- The bits behind the last byte of the key are not all zero. -/
theorem schema_disagrees : agentAnswer (laptopRequest
    "AAAAAAAAAAAAAAAAAAAAAAAAAAAAAAAAAAAAAAAAAAB=" "10.77.0.2/32") = some false := by
  decide +kernel

end

end LabProbe.WireGuard
