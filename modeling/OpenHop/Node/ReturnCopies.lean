import Mathlib.Data.Prod.Lex
import OpenHop.Machine.BestOffer
import OpenHop.Protocol.PacketFilter

/-! # The copies of a flood reply

A flood reply arrives in several copies, over different routes. Before all but the first are
dropped as duplicates, a table collects for each reply the copy that came in best: the one
with the fewest hops of those received reliably, or else the one received best.
-/

namespace OpenHop

/-- Compared from left to right, the greater one is better. -/
abbrev CopyRank := ℚ ×ₗ ℚ ×ₗ ℚ ×ₗ ℚ

structure FloodCopy where
  path : Bytes
  lenByte : ℕ
  rssi : ℤ
  margin : ℚ
  rank : CopyRank
  ts : ℚ
  deriving DecidableEq

/-- What a copy says: the path it came over and how its last hop was received, at the spreading
factor `sf` if the radio tells one. -/
structure CopyReading where
  packetHash : Bytes
  path : Bytes
  lenByte : ℕ
  rssi : ℤ
  snr : ℚ
  sf : Option ℤ := none

/-- `SF_DEMOD_SNR_LIMIT_DB` -/
def sfDemodSnrLimitDb : ℤ → Option ℚ
  | 5 => some (-5 / 2)
  | 6 => some (-5)
  | 7 => some (-15 / 2)
  | 8 => some (-10)
  | 9 => some (-25 / 2)
  | 10 => some (-15)
  | 11 => some (-35 / 2)
  | 12 => some (-20)
  | _ => none

/-- The settings of a `ReturnPathTeacher`; `localHash` is missing if the own key is not known. -/
structure TeacherConfig where
  sha256 : Bytes → Bytes
  enabled : Bool := true
  localHash : Option UInt8 := none
  cooldownS : ℚ := 5
  settleS : ℚ := 3
  noiseFloorDbm : ℚ := -108
  minMarginDb : ℚ := 2
  reliableMarginDb : ℚ := 6
  copyCacheMax : ℕ := 128

namespace TeacherConfig

variable (t : TeacherConfig)

/-- The time after which a copy is dropped, which outlives the settle window. -/
def copyTtlS : ℚ := max 8 (t.settleS + 2)

def demodLimitDb (sf : Option ℤ) : ℚ := ((sf.getD 7 |> sfDemodSnrLimitDb).getD (-15 / 2))

/-- The smaller of two estimates, one from the SNR and one from the signal strength. -/
def copyMarginDb (r : CopyReading) : ℚ :=
  let limit := demodLimitDb r.sf
  min (r.snr - limit) (r.rssi - (t.noiseFloorDbm + limit))

/-- Of copies received reliably the fewest hops decide, of others the margin. -/
def copyRank (margin : ℚ) (lenByte : ℕ) (rssi : ℤ) : CopyRank :=
  let hops : ℚ := PathUtils.getPathHashCount lenByte
  if t.reliableMarginDb ≤ margin then toLex (1, toLex (-hops, toLex (margin, (rssi : ℚ))))
  else toLex (0, toLex (margin, toLex (-hops, (rssi : ℚ))))

def pruneCopies (copies : Dict Bytes FloodCopy) (now : ℚ) : Dict Bytes FloodCopy :=
  copies.dropWhile fun _ copy => t.copyTtlS < now - copy.ts

def recordCopy (copies : Dict Bytes FloodCopy) (r : CopyReading) (now : ℚ) :
    Dict Bytes FloodCopy :=
  let margin := t.copyMarginDb r
  if margin < t.minMarginDb then copies
  else
    let copies := t.pruneCopies copies now
    let rank := t.copyRank margin r.lenByte r.rssi
    let store : Dict Bytes FloodCopy :=
      let copies := copies.setLast r.packetHash
        { path := r.path, lenByte := r.lenByte, rssi := r.rssi, margin, rank, ts := now }
      if t.copyCacheMax < copies.size then copies.popFirst else copies
    match copies.get? r.packetHash with
    | some existing =>
      if rank ≤ existing.rank then copies.setLast r.packetHash { existing with ts := now }
      else store
    | none => store

def addressedToUs (destHash : UInt8) : Bool :=
  match t.localHash with
  | none => true
  | some hash => destHash = hash

def validatedInboundPath (pkt : Packet) (lenByte : ℕ) : Option Bytes :=
  if ¬ PathUtils.isValidPathLen lenByte then none
  else if pkt.path.length < PathUtils.getPathByteLen lenByte then none
  else some (pkt.path.take (PathUtils.getPathByteLen lenByte))

/-- The copy that `note_flood_copy` takes down, if the packet is a reply it is meant for. -/
def noted? (pkt : Packet) (sf : Option ℤ) : Option CopyReading :=
  if ¬ t.enabled then none
  else if ¬ pkt.isRouteFlood then none
  else if pkt.getPayloadType ≠ payloadTypeResponse ∧ pkt.getPayloadType ≠ payloadTypePath then none
  else if pkt.payload.length < 2 then none
  else if ¬ t.addressedToUs (pkt.payload.headD 0) then none
  else do
    let path ← validatedInboundPath pkt pkt.pathLen
    -- an exception while hashing is swallowed
    let packetHash ← (pkt.calculatePacketHash t.sha256).toOption
    return { packetHash, path, lenByte := pkt.pathLen, rssi := pkt.rssi, snr := pkt.snr, sf }

def noteFloodCopy (copies : Dict Bytes FloodCopy) (pkt : Packet) (sf : Option ℤ) (now : ℚ) :
    Dict Bytes FloodCopy :=
  match t.noted? pkt sf with
  | none => copies
  | some r => t.recordCopy copies r now

end TeacherConfig

/-- A packet that is noted, or a copy that is recorded directly, as a trigger does. -/
inductive CopyEvent where
  | note (pkt : Packet) (sf : Option ℤ) (now : ℚ)
  | record (r : CopyReading) (now : ℚ)

namespace CopyEvent

def now : CopyEvent → ℚ
  | .note _ _ now | .record _ now => now

def reading? (t : TeacherConfig) : CopyEvent → Option CopyReading
  | .note pkt sf _ => t.noted? pkt sf
  | .record r _ => some r

end CopyEvent

namespace TeacherConfig

variable (t : TeacherConfig)

def copyStep (copies : Dict Bytes FloodCopy) : CopyEvent → Dict Bytes FloodCopy
  | .note pkt sf now => t.noteFloodCopy copies pkt sf now
  | .record r now => t.recordCopy copies r now

def copyRun (copies : Dict Bytes FloodCopy) (events : List CopyEvent) : Dict Bytes FloodCopy :=
  events.foldl t.copyStep copies

/-- The copies of the reply with a given hash, in the order of arrival. -/
def readingsOf (packetHash : Bytes) (events : List CopyEvent) : List CopyReading :=
  events.filterMap fun e => (e.reading? t).filter fun r => r.packetHash = packetHash

def Qualifies (r : CopyReading) : Prop := t.minMarginDb ≤ t.copyMarginDb r

instance (r : CopyReading) : Decidable (t.Qualifies r) :=
  inferInstanceAs (Decidable (t.minMarginDb ≤ t.copyMarginDb r))

def rankOf (r : CopyReading) : CopyRank := t.copyRank (t.copyMarginDb r) r.lenByte r.rssi

def copyOf (r : CopyReading) (now : ℚ) : FloodCopy :=
  { path := r.path, lenByte := r.lenByte, rssi := r.rssi, margin := t.copyMarginDb r
    rank := t.rankOf r, ts := now }

end TeacherConfig

def copyRanking : BestOffer.Ranking FloodCopy CopyRank ℚ where
  rank := FloodCopy.rank
  time := FloodCopy.ts
  renew now copy := { copy with ts := now }
  rank_renew _ _ := rfl
  time_renew _ _ := rfl
  renew_time _ := rfl
  renew_renew _ _ _ := rfl

namespace TeacherConfig

variable (t : TeacherConfig)

def offer? (e : CopyEvent) : Option (Bytes × FloodCopy) :=
  (e.reading? t).bind fun r =>
    if t.Qualifies r then some (r.packetHash, t.copyOf r e.now) else none

def offers (events : List CopyEvent) : List (Bytes × FloodCopy) := events.filterMap t.offer?

theorem recordCopy_eq (copies : Dict Bytes FloodCopy) (r : CopyReading) (now : ℚ) :
    t.recordCopy copies r now =
      if t.Qualifies r then
        BestOffer.offer copyRanking t.copyCacheMax t.copyTtlS copies (r.packetHash, t.copyOf r now)
      else copies := by
  unfold recordCopy
  dsimp only
  by_cases h : t.Qualifies r
  · have hprune : (copies.dropWhile fun _ w =>
        t.copyTtlS < copyRanking.time (t.copyOf r now) - copyRanking.time w) =
          t.pruneCopies copies now := by
      unfold pruneCopies
      congr!
    rw [if_neg (not_lt.mpr h), if_pos h, BestOffer.offer]
    dsimp only
    rw [hprune]
    cases (t.pruneCopies copies now).get? r.packetHash with
    | none => rfl
    | some existing =>
      by_cases hle : t.rankOf r ≤ existing.rank
      · exact (if_pos hle).trans (if_pos hle).symm
      · exact (if_neg hle).trans (if_neg hle).symm
  · rw [if_pos (not_le.mp h), if_neg h]

theorem copyStep_eq (copies : Dict Bytes FloodCopy) (e : CopyEvent) :
    t.copyStep copies e = match t.offer? e with
      | none => copies
      | some o => BestOffer.offer copyRanking t.copyCacheMax t.copyTtlS copies o := by
  have hrecord (r : CopyReading) (now : ℚ) : t.recordCopy copies r now =
      match (if t.Qualifies r then some (r.packetHash, t.copyOf r now) else none) with
      | none => copies
      | some o => BestOffer.offer copyRanking t.copyCacheMax t.copyTtlS copies o := by
    rw [recordCopy_eq]
    split <;> rfl
  cases e with
  | record r now => exact hrecord r now
  | note pkt sf now =>
    unfold copyStep noteFloodCopy offer? CopyEvent.reading?
    dsimp only
    cases t.noted? pkt sf with
    | none => rfl
    | some r => exact hrecord r now

theorem copyRun_eq (copies : Dict Bytes FloodCopy) (events : List CopyEvent) :
    t.copyRun copies events =
      (t.offers events).foldl (BestOffer.offer copyRanking t.copyCacheMax t.copyTtlS) copies := by
  induction events generalizing copies with
  | nil => rfl
  | cons e events ih =>
    rw [copyRun, List.foldl_cons, ← copyRun, ih, copyStep_eq, offers, offers, List.filterMap_cons]
    cases t.offer? e <;> rfl

/-- The events fall into one period of the table, and the replies besides this one whose copies
qualify leave room for it. -/
structure CopyWindow (packetHash : Bytes) (events : List CopyEvent) : Prop where
  period : ∀ e ∈ events, ∀ e' ∈ events, e'.now - e.now ≤ t.copyTtlS
  others : (((t.offers events).map Prod.fst).toFinset.erase packetHash).card < t.copyCacheMax

/-- What a table holds for a reply of which the copies `rs` arrived. -/
structure BestHeld (rs : List CopyReading) (held : Option FloodCopy) : Prop where
  none_iff : held = none ↔ ∀ r ∈ rs, ¬ t.Qualifies r
  greatest : ∀ copy, held = some copy →
    IsGreatest { rank | ∃ r ∈ rs, t.Qualifies r ∧ t.rankOf r = rank } copy.rank
  /-- The copy is one of those that arrived. -/
  arrived : ∀ copy, held = some copy → ∃ r ∈ rs, t.Qualifies r ∧ copy = t.copyOf r copy.ts
  /-- It does not have more hops than any that was received reliably. -/
  reliable : ∀ copy, held = some copy → ∀ r ∈ rs, t.Qualifies r →
    t.reliableMarginDb ≤ t.copyMarginDb r → t.reliableMarginDb ≤ copy.margin ∧
      PathUtils.getPathHashCount copy.lenByte ≤ PathUtils.getPathHashCount r.lenByte

variable {t} {packetHash : Bytes} {events : List CopyEvent} {copies : Dict Bytes FloodCopy}

theorem mem_readingsOf {r : CopyReading} : r ∈ t.readingsOf packetHash events ↔
    ∃ e ∈ events, e.reading? t = some r ∧ r.packetHash = packetHash := by
  simp [readingsOf, List.mem_filterMap, Option.filter_eq_some_iff]

theorem offer?_eq_some {e : CopyEvent} {o : Bytes × FloodCopy} : t.offer? e = some o ↔
    ∃ r, e.reading? t = some r ∧ t.Qualifies r ∧ o = (r.packetHash, t.copyOf r e.now) := by
  simp only [offer?, Option.bind_eq_some_iff, Option.ite_none_right_eq_some, Option.some.injEq,
    eq_comm (b := o)]

theorem mem_offers {copy : FloodCopy} : (packetHash, copy) ∈ t.offers events ↔
    ∃ e ∈ events, ∃ r, e.reading? t = some r ∧ r.packetHash = packetHash ∧ t.Qualifies r ∧
      copy = t.copyOf r e.now := by
  simp only [offers, List.mem_filterMap, offer?_eq_some, Prod.mk.injEq]
  constructor
  · rintro ⟨e, he, r, hr, hq, rfl, rfl⟩
    exact ⟨e, he, r, hr, rfl, hq, rfl⟩
  · rintro ⟨e, he, r, hr, rfl, hq, rfl⟩
    exact ⟨e, he, r, hr, hq, rfl, rfl⟩

theorem CopyWindow.window (h : t.CopyWindow packetHash events) :
    BestOffer.Window copyRanking t.copyCacheMax t.copyTtlS (t.offers events) packetHash where
  period := by
    rintro ⟨hx, x⟩ hmem ⟨hy, y⟩ hmem'
    obtain ⟨e, he, r, -, -, -, rfl⟩ := mem_offers.mp hmem
    obtain ⟨e', he', r', -, -, -, rfl⟩ := mem_offers.mp hmem'
    exact h.period e he e' he'
  others := h.others

theorem reliable_of_rank_le {r r' : CopyReading} (hle : t.rankOf r ≤ t.rankOf r')
    (hr : t.reliableMarginDb ≤ t.copyMarginDb r) :
    t.reliableMarginDb ≤ t.copyMarginDb r' ∧
      PathUtils.getPathHashCount r'.lenByte ≤ PathUtils.getPathHashCount r.lenByte := by
  unfold rankOf copyRank at hle
  dsimp only at hle
  rw [if_pos hr] at hle
  by_cases hr' : t.reliableMarginDb ≤ t.copyMarginDb r'
  · rw [if_pos hr', Prod.Lex.toLex_le_toLex] at hle
    obtain hlt | ⟨-, hle⟩ := hle
    · exact absurd hlt (lt_irrefl _)
    · obtain hlt | ⟨heq, -⟩ := Prod.Lex.toLex_le_toLex.mp hle
      · exact ⟨hr', by exact_mod_cast (neg_lt_neg_iff.mp hlt).le⟩
      · exact ⟨hr', by exact_mod_cast (neg_inj.mp heq).ge⟩
  · rw [if_neg hr', Prod.Lex.toLex_le_toLex] at hle
    obtain hlt | ⟨heq, -⟩ := hle
    · exact absurd hlt (by norm_num)
    · exact absurd heq (by norm_num)

theorem bestHeld_copyRun (hnone : copies.get? packetHash = none)
    (hwindow : t.CopyWindow packetHash events) :
    t.BestHeld (t.readingsOf packetHash events) ((t.copyRun copies events).get? packetHash) := by
  rw [copyRun_eq]
  have hoffers {r : CopyReading} (hr : r ∈ t.readingsOf packetHash events) (hq : t.Qualifies r) :
      ∃ copy, (packetHash, copy) ∈ t.offers events ∧ copy.rank = t.rankOf r := by
    obtain ⟨e, he, hread, hhash⟩ := mem_readingsOf.mp hr
    exact ⟨t.copyOf r e.now, mem_offers.mpr ⟨e, he, r, hread, hhash, hq, rfl⟩, rfl⟩
  obtain ⟨hnew, hget⟩ | ⟨copy, hholds⟩ := BestOffer.foldl_offer hnone hwindow.window
  · rw [hget]
    refine ⟨iff_of_true rfl ?_, ?_, ?_, ?_⟩
    · intro r hr hq
      obtain ⟨copy, hcopy, -⟩ := hoffers hr hq
      exact hnew (List.mem_map.mpr ⟨_, hcopy, rfl⟩)
    all_goals
      intro copy hcopy
      cases hcopy
  · obtain ⟨x, hx, hcopy⟩ := hholds.offered
    obtain ⟨e, he, r, hread, hhash, hq, rfl⟩ := mem_offers.mp hx
    have hr : r ∈ t.readingsOf packetHash events := mem_readingsOf.mpr ⟨e, he, hread, hhash⟩
    have hcopy : copy = t.copyOf r copy.ts := hcopy
    have hupper {r' : CopyReading} (hr' : r' ∈ t.readingsOf packetHash events)
        (hq' : t.Qualifies r') : t.rankOf r' ≤ copy.rank := by
      obtain ⟨c', hc', hrank⟩ := hoffers hr' hq'
      exact hrank ▸ hholds.greatest c' hc'
    rw [hholds.get?]
    refine ⟨iff_of_false nofun fun hno => hno r hr hq, ?_, ?_, ?_⟩
    · rintro _ ⟨⟩
      refine ⟨⟨r, hr, hq, by rw [hcopy]; rfl⟩, ?_⟩
      rintro _ ⟨r', hr', hq', rfl⟩
      exact hupper hr' hq'
    · rintro _ ⟨⟩
      exact ⟨r, hr, hq, hcopy⟩
    · rintro _ ⟨⟩ r' hr' hq' hrel
      have hle := hupper hr' hq'
      rw [hcopy] at hle ⊢
      exact reliable_of_rank_le hle hrel

theorem BestHeld.perm {rs rs' : List CopyReading} {held : Option FloodCopy}
    (h : t.BestHeld rs held) (hperm : rs.Perm rs') : t.BestHeld rs' held where
  none_iff := by simpa only [hperm.mem_iff] using h.none_iff
  greatest := by simpa only [hperm.mem_iff] using h.greatest
  arrived := by simpa only [hperm.mem_iff] using h.arrived
  reliable := by simpa only [hperm.mem_iff] using h.reliable

theorem BestHeld.rank_eq {rs : List CopyReading} {held held' : Option FloodCopy}
    (h : t.BestHeld rs held) (h' : t.BestHeld rs held') :
    held.map FloodCopy.rank = held'.map FloodCopy.rank := by
  cases held with
  | none =>
    rw [h'.none_iff.mpr (h.none_iff.mp rfl)]
  | some copy =>
    cases held' with
    | none => exact absurd (h.none_iff.mpr (h'.none_iff.mp rfl)) nofun
    | some copy' =>
      exact congrArg some ((h.greatest copy rfl).unique (h'.greatest copy' rfl))

/-- The copy that is held for a reply is the best one, and any other order of arrival, at other
times and between other replies, gives one of the same rank. -/
theorem copyRun_order_independent {copies' : Dict Bytes FloodCopy} {events' : List CopyEvent}
    (hnone : copies.get? packetHash = none) (hnone' : copies'.get? packetHash = none)
    (hwindow : t.CopyWindow packetHash events) (hwindow' : t.CopyWindow packetHash events')
    (hperm : (t.readingsOf packetHash events).Perm (t.readingsOf packetHash events')) :
    t.BestHeld (t.readingsOf packetHash events) ((t.copyRun copies events).get? packetHash) ∧
      ((t.copyRun copies events).get? packetHash).map FloodCopy.rank =
        ((t.copyRun copies' events').get? packetHash).map FloodCopy.rank := by
  have hbest := bestHeld_copyRun hnone hwindow
  exact ⟨hbest, (hbest.perm hperm).rank_eq (bestHeld_copyRun hnone' hwindow')⟩

/-- A reply that comes directly at a low margin, over two hops reliably, and over one hop below the
least margin; the copy over two hops is held in whatever order they come. -/
def threeCopies : List CopyReading :=
  [{ packetHash := [1], path := [], lenByte := 0, rssi := -100, snr := -4 },
    { packetHash := [1], path := [7, 8], lenByte := 2, rssi := -60, snr := 10 },
    { packetHash := [1], path := [9], lenByte := 1, rssi := -110, snr := -9 }]

def defaultTeacher : TeacherConfig := { sha256 := id }

theorem copyRun_order_independent_threeCopies :
    (((defaultTeacher.copyRun Dict.empty
        (threeCopies.map (CopyEvent.record · 0))).get? [1]).map FloodCopy.path = some [7, 8]) ∧
      ((defaultTeacher.copyRun Dict.empty
          (threeCopies.map (CopyEvent.record · 0))).get? [1]).map FloodCopy.rank =
        ((defaultTeacher.copyRun Dict.empty
          (threeCopies.reverse.map (CopyEvent.record · 1))).get? [1]).map FloodCopy.rank := by
  refine ⟨by decide +kernel, (copyRun_order_independent rfl rfl ?_ ?_ ?_).2⟩
  · exact ⟨by decide +kernel, by decide +kernel⟩
  · exact ⟨by decide +kernel, by decide +kernel⟩
  · exact (List.reverse_perm _).symm

end TeacherConfig

end OpenHop
