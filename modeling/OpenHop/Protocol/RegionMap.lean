import OpenHop.Protocol.Crypto
import OpenHop.Protocol.Wire

/-! # Regions and reply scopes

A flood can be scoped to a region by a transport code, which is an authentication code of
the payload under the region's key. The receiver records under which region a flood arrived
and scopes its reply alike.
-/

namespace OpenHop

variable {Seed : Type} (c : Crypto Seed)

def canonicalName (name : List Char) : List Char :=
  if name.head? = some '#' then name else '#' :: name

def getAutoKeyFor (name : List Char) : Option Bytes :=
  if name = [] then none
  else if (canonicalName name).length > 64 then none
  -- the name is encoded as ASCII
  else if (canonicalName name).any fun ch => 128 ≤ ch.toNat then none
  else some ((c.sha256 ((canonicalName name).map fun ch => UInt8.ofNat ch.toNat)).take 16)

def calcTransportCode (key : Bytes) (p : Packet) : Option ℕ :=
  if key.length ≠ 16 then none
  else
    let digest := c.hmacSha256 key (UInt8.ofNat p.getPayloadType :: p.getPayload)
    let code := Bytes.toNatLE (digest.take 2)
    -- the first and the last code are reserved
    some (if code = 0 then 1 else if code = 0xFFFF then 0xFFFE else code)

def scopePacket (p : Packet) (key : Bytes) : Option Packet :=
  (calcTransportCode c key p).map fun code =>
    { p with
      transportCodes := (code, 0)
      header := (p.header / 4 * 4) ||| routeTypeTransportFlood }

structure RegionEntry where
  id : ℕ
  flags : ℕ := 0
  name : List Char := []
  privateKeys : List Bytes := []

/-- The regions and the flags of the wildcard region. -/
structure RegionMap where
  regions : List RegionEntry := []
  wildcardFlags : ℕ := 0

/-- `REGION_DENY_FLOOD` -/
def regionDenyFlood : ℕ := 0x01

namespace RegionMap

/-- The usable keys of a region: stored ones, or for a public region without any the one made from
its name. -/
def iterRegionKeys (region : RegionEntry) : List Bytes :=
  if region.name.head? = some '$' then region.privateKeys.filter fun key => key.length = 16
  else if region.privateKeys ≠ [] then region.privateKeys.filter fun key => key.length = 16
  else if region.name = [] then []
  else (getAutoKeyFor c (canonicalName region.name)).toList

def firstKeyFor (region : Option RegionEntry) : Option Bytes :=
  region.bind fun region => (iterRegionKeys c region).head?

def findMatch (m : RegionMap) (p : Packet) (mask : ℕ := 0) : Option RegionEntry :=
  if ¬ p.hasTransportCodes then none
  else if p.transportCodes.1 = 0 then none
  else
    m.regions.find? fun region =>
      region.flags &&& mask = 0 &&
        (iterRegionKeys c region).any fun key => calcTransportCode c key p = p.transportCodes.1

variable {c}

theorem length_getAutoKeyFor {name : List Char} {key : Bytes}
    (h : getAutoKeyFor c name = some key) :
    key.length = 16 := by
  unfold getAutoKeyFor at h
  split at h
  · cases h
  split at h
  · cases h
  split at h
  · cases h
  · cases h
    simp [c.length_sha256]

theorem length_of_mem_iterRegionKeys {region : RegionEntry} {key : Bytes}
    (h : key ∈ iterRegionKeys c region) : key.length = 16 := by
  unfold iterRegionKeys at h
  split at h
  · simpa using (List.mem_filter.mp h).2
  split at h
  · simpa using (List.mem_filter.mp h).2
  split at h
  · cases h
  · exact length_getAutoKeyFor (Option.mem_toList.mp h)

theorem length_firstKeyFor {region : Option RegionEntry} {key : Bytes}
    (h : firstKeyFor c region = some key) : key.length = 16 := by
  obtain ⟨entry, _, hhead⟩ := Option.bind_eq_some_iff.mp h
  exact length_of_mem_iterRegionKeys (List.mem_of_head? hhead)

end RegionMap

/-- Record the region a packet arrived under. A capture that reached a decision is kept. -/
def captureRecvRegion (map : Option RegionMap) (p : Packet) : Packet :=
  match map with
  | none => p
  | some m =>
    if p.recvRegionCaptured ∧ (p.recvRegionKey.isSome ∨ p.recvRegionUnscoped) then p
    else
      let p := { p with recvRegionCaptured := true, recvRegionUnscoped := false }
      if p.getRouteType = routeTypeTransportFlood then
        let entry := m.findMatch c p regionDenyFlood
        if entry.any fun e => e.id = 0 then
          { p with
            recvRegionKey := none
            recvRegionUnscoped := true }
        else { p with recvRegionKey := RegionMap.firstKeyFor c entry }
      else if p.getRouteType = routeTypeFlood then
        { p with
          recvRegionKey := none
          recvRegionUnscoped := m.wildcardFlags &&& regionDenyFlood = 0 }
      else { p with recvRegionKey := none }

/-- Scope a flood reply as the request came in; none where the recorded key is not usable. -/
def applyReplyScope (reply request : Packet) : Option Packet :=
  if ¬ request.recvRegionCaptured then some reply
  else
    match request.recvRegionKey with
    | some key =>
      let reply :=
        if reply.getRouteType = routeTypeFlood then scopePacket c reply key else some reply
      reply.map fun p => { p with floodScopeApplied := true }
    | none =>
      if request.recvRegionUnscoped then some { reply with floodScopeApplied := true }
      else some reply

section

variable {c}

theorem captureRecvRegion_key {map : Option RegionMap} {p : Packet} {key : Bytes}
    (hp : p.recvRegionKey = none) (h : (captureRecvRegion c map p).recvRegionKey = some key) :
    key.length = 16 := by
  unfold captureRecvRegion at h
  split at h
  · rw [hp] at h
    cases h
  split at h
  · rw [hp] at h
    cases h
  dsimp only at h
  split at h
  · split at h
    · cases h
    · exact RegionMap.length_firstKeyFor h
  split at h <;> cases h

theorem captureRecvRegion_eq (map : Option RegionMap) (p : Packet) :
    ∃ captured key unscoped, captureRecvRegion c map p =
      { p with
        recvRegionCaptured := captured
        recvRegionKey := key
        recvRegionUnscoped := unscoped } := by
  unfold captureRecvRegion
  split
  · exact ⟨_, _, _, rfl⟩
  split
  · exact ⟨_, _, _, rfl⟩
  dsimp only
  split
  · split <;> exact ⟨_, _, _, rfl⟩
  split <;> exact ⟨_, _, _, rfl⟩

theorem captureRecvRegion_wellFormed (map : Option RegionMap) {p : Packet} (hp : p.WellFormed) :
    (captureRecvRegion c map p).WellFormed ∧ (captureRecvRegion c map p).payload = p.payload := by
  obtain ⟨captured, key, unscoped, heq⟩ := captureRecvRegion_eq (c := c) map p
  rw [heq]
  exact ⟨hp.of_wire rfl rfl rfl rfl rfl rfl, rfl⟩

theorem calcTransportCode_of_length {key : Bytes} (h : key.length = 16) (p : Packet) :
    ∃ code, calcTransportCode c key p = some code ∧ code < 256 ^ 2 := by
  have hdigest := Bytes.toNatLE_lt ((c.hmacSha256 key
    (UInt8.ofNat p.getPayloadType :: p.getPayload)).take 2)
  rw [List.length_take, c.length_hmacSha256] at hdigest
  refine ⟨_, if_neg (not_not.mpr h), ?_⟩
  split
  · decide
  split
  · decide
  · exact hdigest

theorem scopePacket_carries {key : Bytes} {p q : Packet} (h : scopePacket c p key = some q) :
    q.payload = p.payload ∧ q.getPayloadType = p.getPayloadType := by
  have htype : (p.header / 4 * 4 ||| 0) >>> 2 = p.header >>> 2 := by
    simp only [Nat.or_zero, Nat.shiftRight_eq_div_pow]
    omega
  obtain ⟨code, -, rfl⟩ := Option.map_eq_some_iff.mp h
  exact ⟨rfl, congrArg (· &&& phTypeMask) htype⟩

theorem getRouteType_scopePacket {key : Bytes} {p q : Packet} (h : scopePacket c p key = some q) :
    q.getRouteType = routeTypeTransportFlood := by
  obtain ⟨code, -, rfl⟩ := Option.map_eq_some_iff.mp h
  show (p.header / 4 * 4 ||| 0) &&& 3 = 0
  rw [Nat.or_zero, Nat.and_two_pow_sub_one_eq_mod _ 2]
  omega

theorem applyReplyScope_carries {reply request p : Packet}
    (h : applyReplyScope c reply request = some p) :
    p.payload = reply.payload ∧ p.getPayloadType = reply.getPayloadType := by
  unfold applyReplyScope at h
  split at h
  · cases h
    exact ⟨rfl, rfl⟩
  split at h
  · obtain ⟨q, hq, rfl⟩ := Option.map_eq_some_iff.mp h
    split at hq
    · obtain ⟨hpayload, htype⟩ := scopePacket_carries hq
      exact ⟨hpayload, htype⟩
    · cases hq
      exact ⟨rfl, rfl⟩
  · split at h
    · cases h
      exact ⟨rfl, rfl⟩
    · cases h
      exact ⟨rfl, rfl⟩

theorem scopePacket_spec {key : Bytes} (h : key.length = 16) {p : Packet} (hp : p.WellFormed) :
    ∃ q, scopePacket c p key = some q ∧ q.payload = p.payload ∧
      q.getPayloadType = p.getPayloadType ∧ q.WellFormed := by
  obtain ⟨code, hcode, hlt⟩ := calcTransportCode_of_length (c := c) h p
  have hscoped : scopePacket c p key = some _ := congrArg (Option.map _) hcode
  obtain ⟨hpayload, htype⟩ := scopePacket_carries hscoped
  have hver : (p.header / 4 * 4 ||| 0) >>> 6 = p.header >>> 6 := by
    simp only [Nat.or_zero, Nat.shiftRight_eq_div_pow]
    omega
  have hroute := getRouteType_scopePacket hscoped
  have hheader := hp.header_lt
  refine ⟨_, hscoped, hpayload, htype, ⟨⟨hp.path_length, hp.payload_length,
    hp.payload_size, ?_, fun _ => ⟨hlt, pow_pos (by decide) 2⟩, hp.pathLen_lt⟩, ?_,
    fun hno => ?_, hp.valid⟩⟩
  · show p.header / 4 * 4 ||| 0 < 256
    rw [Nat.or_zero]
    omega
  · exact (congrArg (· &&& phVerMask) hver).trans hp.version
  · rw [Packet.hasTransportCodes, hroute] at hno
    cases hno

theorem applyReplyScope_spec {reply request : Packet} (hreply : reply.WellFormed)
    (hkey : ∀ key, request.recvRegionKey = some key → key.length = 16) :
    ∃ p, applyReplyScope c reply request = some p ∧ p.payload = reply.payload ∧
      p.getPayloadType = reply.getPayloadType ∧ p.WellFormed := by
  have hmarked : ({ reply with floodScopeApplied := true } : Packet).WellFormed :=
    hreply.of_wire rfl rfl rfl rfl rfl rfl
  unfold applyReplyScope
  split
  · exact ⟨_, rfl, rfl, rfl, hreply⟩
  split
  · rename_i key hreq
    dsimp only
    split
    · obtain ⟨q, hq, hpayload, htype, hwell⟩ := scopePacket_spec (c := c) (hkey key hreq) hreply
      rw [hq]
      exact ⟨_, rfl, hpayload, htype, hwell.of_wire rfl rfl rfl rfl rfl rfl⟩
    · exact ⟨_, rfl, rfl, rfl, hmarked⟩
  split
  · exact ⟨_, rfl, rfl, rfl, hmarked⟩
  · exact ⟨_, rfl, rfl, rfl, hreply⟩

theorem length_of_scopePacket {key : Bytes} {p q : Packet} (h : scopePacket c p key = some q) :
    key.length = 16 := by
  obtain ⟨code, hcode, -⟩ := Option.map_eq_some_iff.mp h
  unfold calcTransportCode at hcode
  split at hcode
  · cases hcode
  · rename_i hlen
    exact not_not.mp hlen

theorem applyReplyScope_wellFormed {reply request p : Packet} (hreply : reply.WellFormed)
    (h : applyReplyScope c reply request = some p) : p.WellFormed := by
  by_cases hkey : ∀ key, request.recvRegionKey = some key → key.length = 16
  · obtain ⟨q, hq, -, -, hwell⟩ := applyReplyScope_spec (c := c) hreply hkey
    cases hq.symm.trans h
    exact hwell
  · push Not at hkey
    obtain ⟨key, hrecorded, hlen⟩ := hkey
    unfold applyReplyScope at h
    split at h
    · cases h
      exact hreply
    rw [hrecorded] at h
    dsimp only at h
    split at h
    · obtain ⟨q, hq, -⟩ := Option.map_eq_some_iff.mp h
      exact absurd (length_of_scopePacket hq) hlen
    · cases h
      exact hreply.of_wire rfl rfl rfl rfl rfl rfl

end

end OpenHop
