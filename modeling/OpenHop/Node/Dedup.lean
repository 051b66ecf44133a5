import OpenHop.Machine.Runs
import OpenHop.Protocol.PacketFilter

/-! # Duplicate suppression and local delivery

Received frames are parsed, possibly held for a reception delay, and processed in whatever
order their holds end. Processing checks and updates the seen table, except for
routed-direct packets this node is not the next hop of, and then hands the packet to its
handler unless it is still in transit.
-/

namespace OpenHop.Dispatcher

open Packet

/-- What stays fixed during a run: the identity, the registered handlers and the digest. -/
structure RxConfig where
  sha256 : Bytes → Bytes
  localIdentity : Option Bytes
  dedupeEnabled : Bool := true
  hasHandler : ℕ → Bool
  localDelivery : ℕ → Bool

variable (cfg : RxConfig)

def isTransitDirectNotNextHop (pkt : Packet) : Bool :=
  if !pkt.isRouteDirect || decide (pkt.getPathHashCount ≤ 0) then false
  else if pkt.getPayloadType == payloadTypeTrace then false
  else match cfg.localIdentity with
    | none => false
    | some selfKey =>
      let hashSize := pkt.getPathHashSize
      if pkt.path.length < hashSize then false
      else decide (pkt.path.take hashSize ≠ selfKey.take hashSize)

def isTransitDirectDelivery (pkt : Packet) (payloadType : ℕ) : Bool :=
  if !cfg.localDelivery payloadType then false
  else pkt.isRouteDirect && decide (pkt.getPathHashCount > 0)

/-- Whether `_dispatch` calls the handler of the packet's type. -/
def reachesHandler (pkt : Packet) : Bool :=
  let payloadType := pkt.getPayloadType
  cfg.hasHandler payloadType && !isTransitDirectDelivery cfg pkt payloadType

def seenKey (pkt : Packet) : Except PacketError Bytes :=
  (pkt.calculatePacketHash cfg.sha256).map (List.take 8)

/-- What the outside sees of a run. -/
inductive RxEvent where
  | delivered (hash : Bytes) (time : ℚ) (pkt : Packet)
  | transmitted (hash : Bytes) (time : ℚ)
  deriving DecidableEq, Repr

structure RxState where
  clock : ℚ
  packetFilter : PacketFilter
  held : List Packet := []
  log : List RxEvent := []

/-- The first part of `_process_received_packet`, up to the reception delay. `t` is the time of
the blacklist check and `t'` the time a malformed frame is blacklisted at. -/
def receiveFrame (s : RxState) (data : Bytes) (rssi : ℤ) (snr t t' : ℚ) : RxState :=
  let rawHash := PacketFilter.generateHash cfg.sha256 data
  if s.packetFilter.isBlacklisted rawHash t then { s with clock := t }
  else match readFrom {} data with
    | .error _ => { s with clock := t', packetFilter := s.packetFilter.blacklist rawHash t' }
    | .ok pkt => { s with clock := t, held := s.held ++ [{ pkt with rssi := rssi, snr := snr }] }

def dispatch (s : RxState) (packetHash : Bytes) (t : ℚ) (pkt : Packet) : RxState :=
  if reachesHandler cfg pkt then { s with log := s.log ++ [.delivered packetHash t pkt] } else s

/-- The rest of `_process_received_packet`, once the hold of `pkt` is over. `t` is the time of
the duplicate check and `t'` the time the hash is tracked at. -/
def processHeld (s : RxState) (pkt : Packet) (t t' : ℚ) : RxState :=
  match seenKey cfg pkt with
  | .error _ => { s with clock := t' }
  | .ok packetHash =>
    if isTransitDirectNotNextHop cfg pkt then dispatch cfg { s with clock := t' } packetHash t' pkt
    else if cfg.dedupeEnabled && s.packetFilter.isDuplicate packetHash t then { s with clock := t' }
    else
      dispatch cfg
        { s with clock := t', packetFilter := s.packetFilter.trackPacket packetHash t' }
        packetHash t' pkt

/-- The start of `_transmit_locked`, which marks the packet seen before the radio sends it. The
time of `.transmitted` is that of the mark. -/
def transmit (s : RxState) (pkt : Packet) (t : ℚ) : RxState :=
  match seenKey cfg pkt with
  | .error _ => { s with clock := t }
  | .ok packetHash =>
    { s with
      clock := t
      packetFilter := s.packetFilter.trackPacket packetHash t
      log := s.log ++ [.transmitted packetHash t] }

inductive RxAction where
  | receive (data : Bytes) (rssi : ℤ) (snr t t' : ℚ)
  | resume (index : ℕ) (t t' : ℚ)
  | transmit (pkt : Packet) (t : ℚ)
  | cleanup (t : ℚ)

/-- One action; a clock that runs backwards and a packet that is not held are refused. -/
def rxStep (s : RxState) : RxAction → Option RxState
  | .receive data rssi snr t t' =>
    if s.clock ≤ t ∧ t ≤ t' then some (receiveFrame cfg s data rssi snr t t') else none
  | .resume i t t' =>
    match s.held[i]? with
    | none => none
    | some pkt =>
      if s.clock ≤ t ∧ t ≤ t' then
        some (processHeld cfg { s with held := s.held.eraseIdx i } pkt t t')
      else none
  | .transmit pkt t => if s.clock ≤ t then some (transmit cfg s pkt t) else none
  | .cleanup t =>
    if s.clock ≤ t then
      some { s with clock := t, packetFilter := s.packetFilter.cleanupOldHashes t }
    else none

def rxRun (s : RxState) (actions : List RxAction) : Option RxState :=
  Machine.run (rxStep cfg) s actions

/-- The changes a step can make to the seen table and to the log. -/
inductive RxEffect (s s' : RxState) : Prop where
  /-- Nothing is delivered and no packet hash changes. -/
  | quiet (hlog : s'.log = s.log)
      (hseen : s'.packetFilter.packetHashes = s.packetFilter.packetHashes)
      (hwindow : s'.packetFilter.windowSeconds = s.packetFilter.windowSeconds)
  | cleanup (hlog : s'.log = s.log)
      (hfilter : s'.packetFilter = s.packetFilter.cleanupOldHashes s'.clock)
  /-- A hash is tracked, and its packet has no handler. -/
  | track (hash : Bytes) (hlog : s'.log = s.log)
      (hfilter : s'.packetFilter = s.packetFilter.trackPacket hash s'.clock)
  | transmit (hash : Bytes) (hlog : s'.log = s.log ++ [.transmitted hash s'.clock])
      (hfilter : s'.packetFilter = s.packetFilter.trackPacket hash s'.clock)
  /-- A hash that was no duplicate at `t` is tracked and its packet delivered. -/
  | deliver (hash : Bytes) (pkt : Packet) (t : ℚ)
      (hlog : s'.log = s.log ++ [.delivered hash s'.clock pkt])
      (hfilter : s'.packetFilter = s.packetFilter.trackPacket hash s'.clock)
      (hle : s.clock ≤ t) (hle' : t ≤ s'.clock)
      (hfresh : cfg.dedupeEnabled = true → s.packetFilter.isDuplicate hash t = false)
  /-- A transit packet reaches a handler that does not deliver locally. -/
  | pass (hash : Bytes) (pkt : Packet) (hlog : s'.log = s.log ++ [.delivered hash s'.clock pkt])
      (hfilter : s'.packetFilter = s.packetFilter)
      (htransit : cfg.localDelivery pkt.getPayloadType = false)

variable {cfg} {s s' : RxState} {pkt : Packet} {a : RxAction}

theorem localDelivery_of_notNextHop (hn : isTransitDirectNotNextHop cfg pkt = true)
    (hr : reachesHandler cfg pkt = true) : cfg.localDelivery pkt.getPayloadType = false := by
  unfold isTransitDirectNotNextHop at hn
  split at hn
  · cases hn
  · rename_i hdirect
    simp only [Bool.or_eq_true, Bool.not_eq_true', decide_eq_true_eq, not_or, Bool.not_eq_false,
      not_le] at hdirect
    by_contra hlocal
    simp [reachesHandler, isTransitDirectDelivery, hlocal, hdirect.1, hdirect.2] at hr

theorem receiveFrame_effect (data : Bytes) (rssi : ℤ) (snr t t' : ℚ) :
    RxEffect cfg s (receiveFrame cfg s data rssi snr t t') := by
  unfold receiveFrame
  dsimp only
  split
  · exact .quiet rfl rfl rfl
  · split
    · exact .quiet rfl rfl rfl
    · exact .quiet rfl rfl rfl

theorem processHeld_effect {t t' : ℚ} (held : List Packet) (hle : s.clock ≤ t) (hle' : t ≤ t') :
    RxEffect cfg s (processHeld cfg { s with held := held } pkt t t') := by
  unfold processHeld
  split
  · exact .quiet rfl rfl rfl
  · rename_i hash _
    split
    · rename_i hn
      unfold dispatch
      split
      · rename_i hr
        exact .pass hash pkt rfl rfl (localDelivery_of_notNextHop hn hr)
      · exact .quiet rfl rfl rfl
    · split
      · exact .quiet rfl rfl rfl
      · rename_i hdup
        unfold dispatch
        split
        · refine .deliver hash pkt t rfl rfl hle hle' fun hd => ?_
          simpa [hd] using hdup
        · exact .track hash rfl rfl

theorem transmit_effect (t : ℚ) : RxEffect cfg s (transmit cfg s pkt t) := by
  unfold transmit
  split
  · exact .quiet rfl rfl rfl
  · exact .transmit _ rfl rfl

theorem processHeld_clock (t t' : ℚ) : (processHeld cfg s pkt t t').clock = t' := by
  unfold processHeld dispatch
  repeat' split
  all_goals rfl

theorem rxStep_effect (h : rxStep cfg s a = some s') : s.clock ≤ s'.clock ∧ RxEffect cfg s s' := by
  cases a with
  | receive data rssi snr t t' =>
    obtain ⟨⟨hle, hle'⟩, h⟩ := Option.ite_none_right_eq_some.mp h
    obtain rfl := Option.some.inj h
    refine ⟨?_, receiveFrame_effect data rssi snr t t'⟩
    unfold receiveFrame
    dsimp only
    split
    · exact hle
    · split
      · exact hle.trans hle'
      · exact hle
  | resume i t t' =>
    simp only [rxStep] at h
    split at h
    · cases h
    · rename_i pkt _
      obtain ⟨⟨hle, hle'⟩, h⟩ := Option.ite_none_right_eq_some.mp h
      obtain rfl := Option.some.inj h
      refine ⟨?_, processHeld_effect _ hle hle'⟩
      rw [processHeld_clock]
      exact hle.trans hle'
  | transmit pkt t =>
    obtain ⟨hle, h⟩ := Option.ite_none_right_eq_some.mp h
    obtain rfl := Option.some.inj h
    refine ⟨?_, transmit_effect t⟩
    unfold transmit
    split <;> exact hle
  | cleanup t =>
    obtain ⟨hle, h⟩ := Option.ite_none_right_eq_some.mp h
    obtain rfl := Option.some.inj h
    exact ⟨hle, .cleanup rfl rfl⟩

namespace RxEvent

def hash : RxEvent → Bytes
  | delivered h _ _ => h
  | transmitted h _ => h

def time : RxEvent → ℚ
  | delivered _ t _ => t
  | transmitted _ t => t

def IsLocal (cfg : RxConfig) : RxEvent → Prop
  | delivered _ _ pkt => cfg.localDelivery pkt.getPayloadType = true
  | transmitted _ _ => False

def Marks (cfg : RxConfig) : RxEvent → Prop
  | delivered _ _ pkt => cfg.localDelivery pkt.getPayloadType = true
  | transmitted _ _ => True

end RxEvent

/-- Within `window` of a marking event no local delivery of its hash follows. -/
def Spaced (cfg : RxConfig) (window : ℚ) (e e' : RxEvent) : Prop :=
  e.Marks cfg → e'.IsLocal cfg → e.hash = e'.hash → e.time + window ≤ e'.time

/-- Every marking event is remembered by the filter, and the log is spaced. -/
structure RxInv (cfg : RxConfig) (s : RxState) : Prop where
  past : ∀ e ∈ s.log, e.time ≤ s.clock
  remembered : ∀ e ∈ s.log, e.Marks cfg → s.packetFilter.Remembers s.clock e.hash e.time
  spaced : s.log.Pairwise (Spaced cfg s.packetFilter.windowSeconds)

theorem pairwise_append_singleton {α : Type} {R : α → α → Prop} {l : List α} {x : α}
    (hl : l.Pairwise R) (hx : ∀ y ∈ l, R y x) : (l ++ [x]).Pairwise R :=
  List.pairwise_append.mpr ⟨hl, List.pairwise_singleton R x, fun y hy _ hz =>
    List.mem_singleton.mp hz ▸ hx y hy⟩

theorem RxInv.log_tracked {e : RxEvent} (hi : RxInv cfg s) (hclock : s.clock ≤ s'.clock)
    (hlog : s'.log = s.log ++ [e]) (htime : e.time = s'.clock)
    (hfilter : s'.packetFilter = s.packetFilter.trackPacket e.hash s'.clock)
    (hspace : ∀ e' ∈ s.log, Spaced cfg s.packetFilter.windowSeconds e' e) : RxInv cfg s' where
  past := by
    intro e' he
    rw [hlog] at he
    rcases List.mem_append.mp he with he | he
    · exact (hi.past e' he).trans hclock
    · rw [List.mem_singleton.mp he, htime]
  remembered := by
    intro e' he hm
    rw [hlog] at he
    rw [hfilter]
    rcases List.mem_append.mp he with he | he
    · exact (hi.remembered e' he hm).trackPacket ((hi.past e' he).trans hclock) hclock
    · rw [List.mem_singleton.mp he, htime]
      exact PacketFilter.remembers_trackPacket _ _ _
  spaced := by
    rw [hlog, hfilter]
    exact pairwise_append_singleton hi.spaced hspace

theorem RxInv.step (hd : cfg.dedupeEnabled = true) (hi : RxInv cfg s)
    (h : rxStep cfg s a = some s') : RxInv cfg s' := by
  obtain ⟨hclock, heff⟩ := rxStep_effect h
  have hpast : ∀ e ∈ s.log, e.time ≤ s'.clock := fun e he => (hi.past e he).trans hclock
  cases heff with
  | quiet hlog hseen hwindow =>
    refine ⟨hlog ▸ hpast, ?_, by rw [hlog, hwindow]; exact hi.spaced⟩
    intro e he hm
    have hmem := SeenTable.Covered.mono_now (hi.remembered e (hlog ▸ he) hm) hclock
    rwa [← hseen, ← hwindow] at hmem
  | cleanup hlog hfilter =>
    refine ⟨hlog ▸ hpast, ?_, by rw [hlog, hfilter]; exact hi.spaced⟩
    intro e he hm
    rw [hfilter]
    exact (hi.remembered e (hlog ▸ he) hm).cleanupOldHashes hclock
  | track hash hlog hfilter =>
    refine ⟨hlog ▸ hpast, ?_, by rw [hlog, hfilter]; exact hi.spaced⟩
    intro e he hm
    rw [hfilter]
    exact (hi.remembered e (hlog ▸ he) hm).trackPacket (hpast e (hlog ▸ he)) hclock
  | transmit hash hlog hfilter =>
    exact hi.log_tracked hclock hlog rfl hfilter fun e' _ _ hlocal => hlocal.elim
  | deliver hash pkt t hlog hfilter hle hle' hfresh =>
    refine hi.log_tracked hclock hlog rfl hfilter fun e' he hm _ hhash => ?_
    have hmem : s.packetFilter.Remembers t e'.hash e'.time :=
      SeenTable.Covered.mono_now (hi.remembered e' he hm) hle
    rw [hhash] at hmem
    exact (hmem.add_window_le (hfresh hd)).trans hle'
  | pass hash pkt hlog hfilter htransit =>
    -- the new entry marks nothing and is not a local delivery
    have hno : ¬(RxEvent.delivered hash s'.clock pkt).IsLocal cfg := by
      simp [RxEvent.IsLocal, htransit]
    refine ⟨?_, ?_, ?_⟩
    · intro e he
      rw [hlog] at he
      rcases List.mem_append.mp he with he | he
      · exact hpast e he
      · rw [List.mem_singleton.mp he]
        exact le_rfl
    · intro e he hm
      rw [hlog] at he
      rw [hfilter]
      rcases List.mem_append.mp he with he | he
      · exact SeenTable.Covered.mono_now (hi.remembered e he hm) hclock
      · rw [List.mem_singleton.mp he] at hm
        exact absurd hm hno
    · rw [hlog, hfilter]
      exact pairwise_append_singleton hi.spaced fun e' _ _ hlocal => absurd hlocal hno

theorem rxStep_windowSeconds (h : rxStep cfg s a = some s') :
    s'.packetFilter.windowSeconds = s.packetFilter.windowSeconds := by
  obtain ⟨-, heff⟩ := rxStep_effect h
  cases heff with
  | quiet _ _ hwindow => exact hwindow
  | cleanup _ hfilter => rw [hfilter]; rfl
  | track _ _ hfilter => rw [hfilter]; rfl
  | transmit _ _ hfilter => rw [hfilter]; rfl
  | deliver _ _ _ _ hfilter => rw [hfilter]; rfl
  | pass _ _ _ hfilter => rw [hfilter]

/-- Over every interleaving of receptions, holds, transmissions and cleanups, local deliveries of
one hash are a window apart, and none follows a transmission of its hash within the window. -/
theorem rxRun_delivery_spaced {clock window : ℚ} {actions : List RxAction}
    (hd : cfg.dedupeEnabled = true)
    (hrun : rxRun cfg { clock := clock, packetFilter := { windowSeconds := window } } actions =
      some s) :
    (∀ (i j : ℕ) (hash : Bytes) (t t' : ℚ) (pkt pkt' : Packet), i < j →
      s.log[i]? = some (.delivered hash t pkt) → s.log[j]? = some (.delivered hash t' pkt') →
      cfg.localDelivery pkt.getPayloadType = true → cfg.localDelivery pkt'.getPayloadType = true →
      t + window ≤ t') ∧
    (∀ (i j : ℕ) (hash : Bytes) (t t' : ℚ) (pkt' : Packet), i < j →
      s.log[i]? = some (.transmitted hash t) → s.log[j]? = some (.delivered hash t' pkt') →
      cfg.localDelivery pkt'.getPayloadType = true → ¬ t' < t + window) := by
  have hinv : RxInv cfg s ∧ s.packetFilter.windowSeconds = window := by
    refine Machine.run_invariant
      (I := fun s => RxInv cfg s ∧ s.packetFilter.windowSeconds = window) ?_ ?_ hrun
    · rintro s a s' ⟨hi, hw⟩ hs
      exact ⟨hi.step hd hs, (rxStep_windowSeconds hs).trans hw⟩
    · exact ⟨⟨by simp, by simp, List.Pairwise.nil⟩, rfl⟩
  obtain ⟨hi, hw⟩ := hinv
  have hspaced : ∀ {i j : ℕ} {e e' : RxEvent}, i < j → s.log[i]? = some e → s.log[j]? = some e' →
      Spaced cfg window e e' := by
    intro i j e e' hij he he'
    obtain ⟨hi₁, rfl⟩ := List.getElem?_eq_some_iff.mp he
    obtain ⟨hj₁, rfl⟩ := List.getElem?_eq_some_iff.mp he'
    exact hw ▸ List.pairwise_iff_getElem.mp hi.spaced i j hi₁ hj₁ hij
  constructor
  · intro i j hash t t' pkt pkt' hij he he' hlocal hlocal'
    have happart := hspaced hij he he'
    exact happart hlocal hlocal' rfl
  · intro i j hash t t' pkt' hij he he' hlocal'
    have happart := hspaced hij he he'
    exact not_lt.mpr (happart trivial hlocal' rfl)

theorem rxRun_delivery_spaced_flood :
    ∃ (cfg : RxConfig) (s : RxState) (pkt pkt' : Packet),
      rxRun cfg { clock := 0, packetFilter := { windowSeconds := 30 } }
        [.receive [0x09, 0, 1] 0 0 0 0, .receive [0x09, 1, 5, 1] 0 0 1 1, .resume 1 2 2,
          .resume 0 3 3, .receive [0x09, 0, 1] 0 0 40 40, .resume 0 41 41] = some s ∧
      s.log = [.delivered [2, 1] 2 pkt, .delivered [2, 1] 41 pkt'] ∧ (2 : ℚ) + 30 ≤ 41 := by
  let cfg : RxConfig :=
    { sha256 := id, localIdentity := some (List.replicate 32 7)
      hasHandler := fun _ => true, localDelivery := fun _ => true }
  let pkt : Packet := { header := 9, pathLen := 1, path := [5], payload := [1], payloadLen := 1 }
  let pkt' : Packet := { header := 9, payload := [1], payloadLen := 1 }
  have hlog : (rxRun cfg { clock := 0, packetFilter := { windowSeconds := 30 } }
      [.receive [0x09, 0, 1] 0 0 0 0, .receive [0x09, 1, 5, 1] 0 0 1 1, .resume 1 2 2,
        .resume 0 3 3, .receive [0x09, 0, 1] 0 0 40 40, .resume 0 41 41]).map (·.log) =
      some [.delivered [2, 1] 2 pkt, .delivered [2, 1] 41 pkt'] := by decide +kernel
  obtain ⟨s, hs, hl⟩ := Option.map_eq_some_iff.mp hlog
  refine ⟨cfg, s, pkt, pkt', hs, hl, ?_⟩
  exact (rxRun_delivery_spaced rfl hs).1 0 1 [2, 1] 2 41 pkt pkt' (by decide)
    (by rw [hl]; rfl) (by rw [hl]; rfl) rfl rfl

end OpenHop.Dispatcher
