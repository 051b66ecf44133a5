import Mathlib.Algebra.Order.Ring.Rat
import OpenHop.Data.Dict
import OpenHop.Machine.Recency
import OpenHop.Machine.SeenTable
import OpenHop.Protocol.Wire

/-! # The packet filter

The filter keeps the time each packet hash was last tracked, for duplicate detection within
a window, and a bounded blacklist of raw frames that did not parse. Keys are the first eight
bytes of a SHA-256 digest; the source writes them as sixteen hexadecimal digits.
-/

namespace OpenHop

structure PacketFilter where
  windowSeconds : ℚ := 30
  packetHashes : Dict Bytes ℚ := Dict.empty
  blacklisted : Dict Bytes ℚ := Dict.empty

namespace PacketFilter

@[simp] def blacklistMaxEntries : ℕ := 4096
@[simp] def blacklistTtlSeconds : ℚ := 300

def generateHash (sha256 : Bytes → Bytes) (data : Bytes) : Bytes := (sha256 data).take 8

def isDuplicate (f : PacketFilter) (packetHash : Bytes) (now : ℚ) : Bool :=
  match f.packetHashes.get? packetHash with
  | some seen => decide (now - seen < f.windowSeconds)
  | none => false

def trackPacket (f : PacketFilter) (packetHash : Bytes) (now : ℚ) : PacketFilter :=
  { f with packetHashes := f.packetHashes.set packetHash now }

def blacklist (f : PacketFilter) (packetHash : Bytes) (now : ℚ) : PacketFilter :=
  let entries := f.blacklisted.setLast packetHash now
  { f with
    blacklisted := if entries.size > blacklistMaxEntries then entries.popFirst else entries }

def isBlacklisted (f : PacketFilter) (packetHash : Bytes) (now : ℚ) : Bool :=
  match f.blacklisted.get? packetHash with
  | none => false
  | some insertedAt => decide (now - insertedAt < blacklistTtlSeconds)

def cleanupOldHashes (f : PacketFilter) (now : ℚ) : PacketFilter :=
  { f with
    packetHashes := f.packetHashes.filter fun _ ts => !decide (now - ts > f.windowSeconds)
    blacklisted := f.blacklisted.filter fun _ ts => !decide (now - ts > blacklistTtlSeconds) }

open SeenTable

/-- The event of hash `h` at time `t` is in the filter's table or has left its window. -/
def Remembers (f : PacketFilter) (now : ℚ) (h : Bytes) (t : ℚ) : Prop :=
  Covered f.windowSeconds now f.packetHashes.get? h t

variable {f : PacketFilter} {now later t : ℚ} {h k : Bytes}

theorem Remembers.trackPacket (hm : f.Remembers now h t) (hle : t ≤ later) (hnow : now ≤ later) :
    (f.trackPacket k later).Remembers later h t := by
  by_cases hk : h = k
  · exact .of_noted (by simp [PacketFilter.trackPacket, hk]) hle
  · exact (hm.mono_now hnow).of_table (by simp [PacketFilter.trackPacket, hk])

theorem remembers_trackPacket (f : PacketFilter) (h : Bytes) (now : ℚ) :
    (f.trackPacket h now).Remembers now h now :=
  .of_noted (by simp [PacketFilter.trackPacket]) le_rfl

theorem Remembers.cleanupOldHashes (hm : f.Remembers now h t) (hnow : now ≤ later) :
    (f.cleanupOldHashes later).Remembers later h t := by
  refine (hm.mono_now hnow).of_expired ?_
  simp only [PacketFilter.cleanupOldHashes, Dict.get?_filter]
  cases hg : f.packetHashes.get? h with
  | none => exact .inl rfl
  | some seen =>
    by_cases hold : later - seen > f.windowSeconds
    · exact .inr ⟨seen, rfl, hold⟩
    · exact .inl (by simp [Option.filter, hold])

theorem Remembers.add_window_le (hm : f.Remembers now h t) (hd : f.isDuplicate h now = false) :
    t + f.windowSeconds ≤ now := by
  refine Covered.add_window_le hm fun seen hs => ?_
  simpa [PacketFilter.isDuplicate, hs] using hd

end PacketFilter

structure PacketHashCache where
  ttlSeconds : ℚ := 60
  maxEntries : ℕ := 4096
  entries : Dict Bytes ℚ := Dict.empty

namespace PacketHashCache

def evictExpired (cache : PacketHashCache) (now : ℚ) : PacketHashCache :=
  { cache with
    entries := cache.entries.dropWhile fun _ seenAt => !decide (now - seenAt ≤ cache.ttlSeconds) }

/-- Whether the hash is still cached, and the cache with it stored or renewed. -/
def checkAndAdd (cache : PacketHashCache) (packetHash : Bytes) (now : ℚ) :
    Bool × PacketHashCache :=
  let cache := cache.evictExpired now
  let hit := cache.entries.contains packetHash
  let entries := cache.entries.setLast packetHash now
  (hit, { cache with
    entries := if entries.size > cache.maxEntries then entries.popFirst else entries })

theorem checkAndAdd_of_absent {cache : PacketHashCache} {packetHash : Bytes}
    (h : cache.entries.get? packetHash = none) (now : ℚ) :
    (cache.checkAndAdd packetHash now).1 = false := by
  have habsent : (cache.evictExpired now).entries.get? packetHash = none :=
    Dict.get?_dropWhile_of_none h _
  simp [checkAndAdd, Dict.contains, habsent]

/-! The cache is a table of recent keys, so what it answers is determined by the calls before. -/

theorem entries_evictExpired (cache : PacketHashCache) (now : ℚ) :
    (cache.evictExpired now).entries.entries =
      cache.entries.entries.dropWhile fun e => cache.ttlSeconds < now - e.2 := by
  simp only [evictExpired, Dict.dropWhile, ← decide_not, not_le]

theorem entries_checkAndAdd (cache : PacketHashCache) (packetHash : Bytes) (now : ℚ) :
    (cache.checkAndAdd packetHash now).2.entries.entries =
      Recency.present cache.maxEntries cache.ttlSeconds cache.entries.entries
        (packetHash, now) := by
  have hset : ((cache.evictExpired now).entries.setLast packetHash now).entries =
      Recency.touch (cache.entries.entries.dropWhile fun e => cache.ttlSeconds < now - e.2)
        (packetHash, now) := by
    rw [Dict.entries_setLast, entries_evictExpired]
    rfl
  simp only [checkAndAdd, apply_ite Dict.entries, Dict.popFirst, Dict.size, hset, gt_iff_lt]
  rfl

theorem checkAndAdd_hit_iff (cache : PacketHashCache) (packetHash : Bytes) (now : ℚ) :
    (cache.checkAndAdd packetHash now).1 = true ↔ packetHash ∈
      (cache.entries.entries.dropWhile fun e => cache.ttlSeconds < now - e.2).map Prod.fst := by
  rw [← entries_evictExpired]
  exact Dict.contains_iff

/-- The cache after calls with the given hashes and clock readings. -/
def afterCalls (cache : PacketHashCache) (calls : List (Bytes × ℚ)) : PacketHashCache :=
  calls.foldl (fun cache call => (cache.checkAndAdd call.1 call.2).2) cache

theorem afterCalls_eq (cache : PacketHashCache) (calls : List (Bytes × ℚ)) :
    (cache.afterCalls calls).ttlSeconds = cache.ttlSeconds ∧
      (cache.afterCalls calls).maxEntries = cache.maxEntries ∧
      (cache.afterCalls calls).entries.entries =
        calls.foldl (Recency.present cache.maxEntries cache.ttlSeconds) cache.entries.entries := by
  induction calls using List.reverseRecOn with
  | nil => exact ⟨rfl, rfl, rfl⟩
  | append_singleton calls call ih =>
    obtain ⟨httl, hmax, hentries⟩ := ih
    rw [afterCalls, List.foldl_append, List.foldl_append]
    refine ⟨httl, hmax, ?_⟩
    refine (entries_checkAndAdd (cache.afterCalls calls) call.1 call.2).trans ?_
    rw [httl, hmax, hentries]
    rfl

/-- A hash is reported just if it was presented within the time to live and fewer than
`maxEntries` other hashes were presented since, and the cache never holds more than that. -/
theorem checkAndAdd_iff_recent (ttlSeconds : ℚ) (maxEntries : ℕ) (calls : List (Bytes × ℚ))
    (packetHash : Bytes) (now : ℚ)
    (hclock : (calls ++ [(packetHash, now)]).Pairwise fun a b => a.2 ≤ b.2) :
    (((({ ttlSeconds, maxEntries } : PacketHashCache).afterCalls calls).checkAndAdd
        packetHash now).1 = true ↔ Recency.Recent maxEntries ttlSeconds calls packetHash now) ∧
      (({ ttlSeconds, maxEntries } : PacketHashCache).afterCalls calls).entries.size ≤
        maxEntries := by
  obtain ⟨httl, -, hentries⟩ := afterCalls_eq { ttlSeconds, maxEntries } calls
  constructor
  · rw [checkAndAdd_hit_iff, httl, hentries]
    exact Recency.mem_keys_foldl_present maxEntries ttlSeconds hclock
  · rw [Dict.size, hentries]
    exact Recency.length_foldl_present_le maxEntries ttlSeconds calls

/-- A renewed hash stays while another one has to go for it. -/
theorem checkAndAdd_iff_recent_renewed :
    let calls : List (Bytes × ℚ) := [([1], 0), ([2], 10), ([1], 20), ([3], 30)]
    Recency.Recent 2 60 calls [1] 80 ∧ ¬Recency.Recent 2 60 calls [2] 80 := by
  refine ⟨(checkAndAdd_iff_recent 60 2 _ [1] 80 (by decide +kernel)).1.mp (by decide +kernel), ?_⟩
  intro hrecent
  exact absurd ((checkAndAdd_iff_recent 60 2 _ [2] 80 (by decide +kernel)).1.mpr hrecent)
    (by decide +kernel)

end PacketHashCache

/-- The digest over type and payload; `path_len` is hashed for TRACE only. -/
def Packet.calculatePacketHash (sha256 : Bytes → Bytes) (p : Packet) : Except PacketError Bytes :=
  let payloadType := p.getPayloadType
  let payload := p.payload.take p.payloadLen
  if payloadType = payloadTypeTrace then
    match Bytes.ofNatLE? 2 p.pathLen with
    | none => .error .structError
    | some pathLen =>
      .ok ((sha256 (UInt8.ofNat payloadType :: (pathLen ++ payload))).take maxHashSize)
  else .ok ((sha256 (UInt8.ofNat payloadType :: payload)).take maxHashSize)

theorem Packet.exists_packetHash (sha256 : Bytes → Bytes) {p : Packet}
    (h : p.getPayloadType ≠ payloadTypeTrace) :
    ∃ packetHash, p.calculatePacketHash sha256 = .ok packetHash := by
  rw [Packet.calculatePacketHash, if_neg h]
  exact ⟨_, rfl⟩

theorem Packet.Writable.exists_packetHash {p : Packet} (h : p.Writable) (sha256 : Bytes → Bytes) :
    ∃ packetHash, p.calculatePacketHash sha256 = .ok packetHash := by
  by_cases htrace : p.getPayloadType = payloadTypeTrace
  · have hlen : p.pathLen < 256 ^ 2 := h.pathLen_lt.trans (by decide)
    rw [calculatePacketHash, if_pos htrace, Bytes.ofNatLE?_eq_some.mpr ⟨hlen, rfl⟩]
    exact ⟨_, rfl⟩
  · exact Packet.exists_packetHash sha256 htrace

end OpenHop
