import Mathlib.Data.Rat.Floor
import OpenHop.Protocol.Route

/-! # Client-repeat forwarding

A client-repeat node retransmits what it hears: a flood packet with its own hash appended to
the path, a routed-direct packet with itself stripped when it is the next hop, and a direct
TRACE with its SNR recorded in the path.
-/

namespace OpenHop.Dispatcher

open PathUtils Packet

/-- A copy for retransmission, marked so that the send path leaves scope and path alone. -/
def copyPacketForForward (pkt : Packet) : Packet where
  header := pkt.header
  pathLen := pkt.pathLen
  path := pkt.path
  payload := pkt.payload.take pkt.payloadLen
  payloadLen := pkt.payloadLen
  transportCodes := pkt.transportCodes
  snr := pkt.snr
  rssi := pkt.rssi
  floodScopeApplied := true
  pathHashModeApplied := true

def buildFloodForward (pkt : Packet) (selfKey : Bytes) : Except PacketError (Option Packet) :=
  let hashSize := pkt.getPathHashSize
  let hopCount := pkt.getPathHashCount
  if hopCount ≥ 63 then .ok none
  else if (hopCount + 1) * hashSize > maxPathSize then .ok none
  else do
    let pathLen ← encodePathLen hashSize (hopCount + 1)
    let fwd := copyPacketForForward pkt
    return some { fwd with path := fwd.path ++ selfKey.take hashSize, pathLen := pathLen }

def buildDirectForward (pkt : Packet) (selfKey : Bytes) : Except PacketError (Option Packet) :=
  let hashSize := pkt.getPathHashSize
  if pkt.path.length < hashSize then .ok none
  else if pkt.path.take hashSize ≠ selfKey.take hashSize then .ok none
  else match pkt.getPathHashCount with
    -- `hop_count - 1` is negative here; callers ask for a positive count first
    | 0 => .error (.hopCount (-1))
    | hopCount + 1 => do
      let pathLen ← encodePathLen hashSize hopCount
      let fwd := copyPacketForForward pkt
      return some { fwd with path := fwd.path.drop hashSize, pathLen := pathLen }

def snrByte (snr : ℚ) : UInt8 :=
  let scaled := snr * 4
  let truncated := if scaled < 0 then scaled.ceil else scaled.floor
  UInt8.ofNat (truncated % 256).toNat

def buildTraceForward (pkt : Packet) (selfKey : Bytes) : Except PacketError (Option Packet) :=
  if pkt.pathLen ≥ maxPathSize then .ok none
  else if pkt.payloadLen < 9 then .ok none
  else match pkt.payload[8]? with
    | none => .error .indexOutOfRange
    | some flags =>
      let pathSz := flags.toNat &&& 0x03
      let hashWidth := 1 <<< pathSz
      let headerLen := 9
      let length := pkt.payloadLen - headerLen
      let offset := pkt.pathLen <<< pathSz
      if offset ≥ length then .ok none
      else
        let start := headerLen + offset
        if slice pkt.payload start (start + hashWidth) ≠ selfKey.take hashWidth then .ok none
        else
          let fwd := copyPacketForForward pkt
          let path := fwd.path ++ List.replicate (fwd.pathLen + 1 - fwd.path.length) 0
          .ok (some { fwd with
            path := path.set fwd.pathLen (snrByte pkt.snr)
            pathLen := fwd.pathLen + 1 })

/-- The retransmission of a received packet, or `none` to drop it. -/
def buildClientRepeatForward (localIdentity : Option Bytes) (pkt : Packet) :
    Except PacketError (Option Packet) :=
  match localIdentity with
  | none => .ok none
  | some selfKey =>
    if pkt.isRouteDirect && pkt.getPayloadType == payloadTypeTrace then
      buildTraceForward pkt selfKey
    else if pkt.isRouteDirect && decide (pkt.getPathHashCount > 0) then
      buildDirectForward pkt selfKey
    else if pkt.isRouteFlood then buildFloodForward pkt selfKey
    else .ok none

variable {p f : Packet} {r : Route} {selfKey : Bytes}

theorem buildFloodForward_eq (h : p.Carries r) (hk : (selfKey.take r.width).length = r.width) :
    buildFloodForward p selfKey =
      .ok ((r.push (selfKey.take r.width) hk).map (copyPacketForForward p).withRoute) := by
  simp only [buildFloodForward, h.hashSize, h.hashCount]
  cases hs : r.push (selfKey.take r.width) hk with
  | none =>
    rcases (Route.push_eq_none_iff hk).mp hs with hc | hc
    · rw [if_pos (by omega)]
      rfl
    · rw [if_pos hc, ite_self]
      rfl
  | some s =>
    obtain ⟨hw, hh, hp⟩ := Route.push_eq_some hk hs
    have hcount : s.hops.length = r.hops.length + 1 := by simp [hh]
    have h63 := s.count_le
    have h64 := s.size_le
    have henc := s.encodePathLen_pathLen
    rw [hcount, hw] at h64 henc
    rw [if_neg (by omega), if_neg (by omega), henc, ok_bind]
    simp only [copyPacketForForward, h.path_eq, withRoute, hp, Option.map_some, pure_eq_ok]

theorem buildDirectForward_eq {h : Bytes} {hs : List Bytes} (hc : p.Carries r)
    (hr : r.hops = h :: hs) :
    buildDirectForward p selfKey =
      .ok (if h = selfKey.take r.width then some ((copyPacketForForward p).withRoute r.pop)
        else none) := by
  have hlen : h.length = r.width := r.uniform h (by simp [hr])
  have hpath : p.path = h ++ r.pop.path := hc.path_eq.trans (Route.pop_path hr)
  have htake : p.path.take r.width = h := by rw [hpath, List.take_left' hlen]
  have hdrop : p.path.drop r.width = r.pop.path := by rw [hpath, List.drop_left' hlen]
  have hcount : p.getPathHashCount = hs.length + 1 := by simp [hc.hashCount, hr]
  have henc := r.pop.encodePathLen_pathLen
  simp only [Route.pop, hr, List.tail_cons] at henc
  simp only [buildDirectForward, hc.hashSize, htake, hcount, henc]
  rw [if_neg (by rw [hpath, List.length_append]; omega)]
  by_cases heq : h = selfKey.take r.width
  · simp only [← heq, ne_eq, not_true, if_false, if_true]
    rw [ok_bind, pure_eq_ok]
    simp only [copyPacketForForward, hdrop, withRoute, Route.pop, Route.pathLen, hr, List.tail_cons]
  · simp only [heq, ne_eq, not_false_iff, if_true, if_false]

theorem isRouteDirect_of_isRouteFlood (h : p.isRouteFlood = true) : p.isRouteDirect = false := by
  simp only [isRouteFlood, Bool.or_eq_true, beq_iff_eq] at h
  rcases h with h | h <;> simp [isRouteDirect, h]

theorem buildClientRepeatForward_of_flood (h : p.isRouteFlood = true) :
    buildClientRepeatForward (some selfKey) p = buildFloodForward p selfKey := by
  simp [buildClientRepeatForward, isRouteDirect_of_isRouteFlood h, h]

theorem buildClientRepeatForward_cases (hc : p.Carries r) (hkey : selfKey.length = pubKeySize)
    (htrace : ¬(p.isRouteDirect = true ∧ p.getPayloadType = payloadTypeTrace))
    (hf : buildClientRepeatForward (some selfKey) p = .ok (some f)) :
    ∃ s : Route, f = (copyPacketForForward p).withRoute s ∧
      ((p.isRouteFlood = true ∧ s.hops = r.hops ++ [selfKey.take r.width]) ∨
        (p.isRouteDirect = true ∧ s.hops = r.hops.tail)) := by
  have hk : (selfKey.take r.width).length = r.width := by
    have := r.width_le
    rw [List.length_take, hkey, pubKeySize]
    omega
  have ht : (p.isRouteDirect && p.getPayloadType == payloadTypeTrace) = false := by
    rw [Bool.eq_false_iff]
    simpa using htrace
  by_cases hflood : p.isRouteFlood = true
  · rw [buildClientRepeatForward_of_flood hflood, buildFloodForward_eq hc hk, Except.ok.injEq,
      Option.map_eq_some_iff] at hf
    obtain ⟨s, hs, rfl⟩ := hf
    exact ⟨s, rfl, .inl ⟨hflood, (Route.push_eq_some hk hs).2.1⟩⟩
  · simp only [buildClientRepeatForward, ht, hflood, Bool.false_eq_true, if_false] at hf
    split at hf
    · rename_i hd
      simp only [Bool.and_eq_true, decide_eq_true_eq, hc.hashCount] at hd
      obtain ⟨h, hs, hr⟩ := List.exists_cons_of_length_pos hd.2
      rw [buildDirectForward_eq hc hr, Except.ok.injEq] at hf
      split at hf
      · exact ⟨r.pop, (Option.some.inj hf).symm, .inr ⟨hd.1, rfl⟩⟩
      · cases hf
    · cases hf

theorem copyPacketForForward_wellFormed (h : WellFormed p) (s : Route) :
    WellFormed ((copyPacketForForward p).withRoute s) ∧
      ((copyPacketForForward p).withRoute s).payload = p.payload := by
  have hpay : ((copyPacketForForward p).withRoute s).payload = p.payload := by
    simp only [copyPacketForForward, withRoute, h.payload_length, List.take_length]
  exact ⟨(withRoute_carries _ s).wellFormed h rfl rfl hpay rfl, hpay⟩

theorem buildFloodForward_eq_none_iff (hc : p.Carries r) (hkey : selfKey.length = pubKeySize) :
    buildFloodForward p selfKey = .ok none ↔
      63 < p.getPathHashCount + 1 ∨
        ∃ b, encodePathLen p.getPathHashSize (p.getPathHashCount + 1) = .ok b ∧
          isValidPathLen b = false := by
  have hk : (selfKey.take r.width).length = r.width := by
    have := r.width_le
    rw [List.length_take, hkey, pubKeySize]
    omega
  rw [buildFloodForward_eq hc hk, Except.ok.injEq, Option.map_eq_none_iff,
    Route.push_eq_none_iff hk, hc.hashCount, hc.hashSize]
  refine or_congr_right' fun hle => ?_
  rw [encodePathLen_of_le (not_lt.mp hle)]
  simp only [Except.ok.injEq, exists_eq_left', Bool.eq_false_iff, ne_eq,
    isValidPathLen_pack r.width_pos (not_lt.mp hle), r.width_le, true_and, not_le]

/-- Forwards of received packets are transmittable, fit the transmission unit and reach the next
node with everything but the path unchanged and the path changed by this node's hop only. -/
theorem buildClientRepeatForward_faithful {d : Bytes} (hread : readFrom {} d = .ok p)
    (hkey : selfKey.length = pubKeySize)
    (htrace : ¬(p.isRouteDirect = true ∧ p.getPayloadType = payloadTypeTrace)) :
    (∀ f, buildClientRepeatForward (some selfKey) p = .ok (some f) →
      ∃ w q, f.writeTo = .ok w ∧ w.length ≤ maxTransUnit ∧ readFrom {} w = .ok q ∧
        q.header = p.header ∧ q.transportCodes = p.transportCodes ∧ q.payload = p.payload ∧
        (p.isRouteFlood = true →
          q.getPathHashes = p.getPathHashes ++ [selfKey.take p.getPathHashSize]) ∧
        (p.isRouteDirect = true → q.getPathHashes = p.getPathHashes.tail)) ∧
    (p.isRouteFlood = true →
      (buildClientRepeatForward (some selfKey) p = .ok none ↔
        63 < p.getPathHashCount + 1 ∨
          ∃ b, encodePathLen p.getPathHashSize (p.getPathHashCount + 1) = .ok b ∧
            isValidPathLen b = false)) := by
  obtain ⟨hwf, -, -⟩ := readFrom_sound hread
  obtain ⟨r, hc⟩ := hwf.carries
  constructor
  · intro f hf
    obtain ⟨s, rfl, hcase⟩ := buildClientRepeatForward_cases hc hkey htrace hf
    obtain ⟨hfw, hpay⟩ := copyPacketForForward_wellFormed hwf s
    have hq : (receive {} ((copyPacketForForward p).withRoute s)).getPathHashes = s.hops :=
      Carries.hashes ⟨rfl, rfl⟩
    refine ⟨_, _, writeTo_eq_ok.mpr ⟨hfw.toWritable, rfl⟩, ?_, readFrom_encode {} hfw, rfl, rfl,
      hpay, ?_, ?_⟩
    · rw [length_encode hfw.toWritable]
      exact getRawLength_le hfw
    · intro hflood
      rw [hq, hc.hashes, hc.hashSize]
      rcases hcase with ⟨-, hs⟩ | ⟨hd, -⟩
      · exact hs
      · exact absurd hd (by simp [isRouteDirect_of_isRouteFlood hflood])
    · intro hdirect
      rw [hq, hc.hashes]
      rcases hcase with ⟨hfl, -⟩ | ⟨-, hs⟩
      · exact absurd hdirect (by simp [isRouteDirect_of_isRouteFlood hfl])
      · exact hs
  · intro hflood
    rw [buildClientRepeatForward_of_flood hflood]
    exact buildFloodForward_eq_none_iff hc hkey

theorem buildClientRepeatForward_faithful_flood :
    ∃ p f q : Packet, ∃ w, readFrom {} [0x11, 0x41, 1, 2, 9] = .ok p ∧
      buildClientRepeatForward (some (List.replicate 32 7)) p = .ok (some f) ∧
      f.writeTo = .ok w ∧ readFrom {} w = .ok q ∧ q.getPathHashes = [[1, 2], [7, 7]] := by
  let p : Packet :=
    { header := 0x11, pathLen := 0x41, path := [1, 2], payload := [9], payloadLen := 1 }
  have hread : readFrom {} [0x11, 0x41, 1, 2, 9] = .ok p := by decide
  let f : Packet :=
    { p with
      path := [1, 2, 7, 7]
      pathLen := 0x42
      floodScopeApplied := true
      pathHashModeApplied := true }
  have hf : buildClientRepeatForward (some (List.replicate 32 7)) p = .ok (some f) := by decide
  obtain ⟨w, q, hw, -, hq, -, -, -, hflood, -⟩ :=
    (buildClientRepeatForward_faithful hread (by decide) (by decide)).1 f hf
  have hhops : p.getPathHashes ++ [(List.replicate 32 7).take p.getPathHashSize] =
      [[1, 2], [7, 7]] := by decide
  exact ⟨p, f, q, w, hread, hf, hw, hq, (hflood (by decide)).trans hhops⟩

end OpenHop.Dispatcher
