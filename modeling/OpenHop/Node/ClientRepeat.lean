import OpenHop.Node.Dedup
import OpenHop.Node.ForwardRepeat
import OpenHop.Node.SendPacket

/-! # A client-repeat node

With client-repeat on, a packet that passes the duplicate check is handed to its handler,
and the forward built from it goes to the send funnel after a random delay, where its own
hash is marked seen before it is transmitted.
-/

namespace OpenHop.Dispatcher

open Packet

structure RelayConfig (Seed : Type) where
  crypto : Crypto Seed
  selfKey : Bytes
  dispatcher : DispatcherConfig := {}
  dedupeEnabled : Bool := true
  hasHandler : ℕ → Bool := fun _ => true
  localDelivery : ℕ → Bool := fun _ => false

def RelayConfig.rx {Seed : Type} (cfg : RelayConfig Seed) : RxConfig where
  sha256 := cfg.crypto.sha256
  localIdentity := some cfg.selfKey
  dedupeEnabled := cfg.dedupeEnabled
  hasHandler := cfg.hasHandler
  localDelivery := cfg.localDelivery

/-- What the seen table makes of a received packet. -/
inductive Admission where
  | unhashed
  | transit
  | duplicate
  | checkedIn
  deriving DecidableEq

def admission (cfg : RxConfig) (packetFilter : PacketFilter) (pkt : Packet) (t : ℚ) : Admission :=
  match seenKey cfg pkt with
  | .error _ => .unhashed
  | .ok packetHash =>
    if isTransitDirectNotNextHop cfg pkt then .transit
    else if cfg.dedupeEnabled && packetFilter.isDuplicate packetHash t then .duplicate
    else .checkedIn

/-- The forward that is scheduled, unless it is a flood that a handler has marked as consumed. -/
def forwardOf (cfg : RxConfig) (a : Admission) (pkt : Packet) (consumed : Bool) : Option Packet :=
  match a with
  | .unhashed | .duplicate => none
  | .transit | .checkedIn =>
    match buildClientRepeatForward cfg.localIdentity pkt with
    | .ok (some f) => if f.isRouteFlood && consumed then none else some f
    | _ => none

/-- A packet whose hash was marked seen, on reception or before its transmission. -/
structure Tracked where
  pkt : Packet
  time : ℚ
  sent : Bool
  deriving DecidableEq

/-- A node with the forwards it has scheduled and all that it marked seen. -/
structure Relay where
  rx : RxState
  pending : List Packet := []
  tracked : List Tracked := []

inductive RelayAction where
  | receive (data : Bytes) (rssi : ℤ) (snr t t' : ℚ)
  | resume (index : ℕ) (t t' : ℚ) (consumed : Bool)
  | retransmit (index : ℕ) (t : ℚ)
  | transmit (pkt : Packet) (t : ℚ)
  | cleanup (t : ℚ)

variable {Seed : Type}

def trackedAt (cfg : RxConfig) (pkt : Packet) (t : ℚ) : List Tracked :=
  match seenKey cfg pkt with
  | .error _ => []
  | .ok _ => [⟨pkt, t, true⟩]

/-- A packet through `_transmit_locked`, with the bytes it puts on the air. -/
def Relay.transmit (cfg : RelayConfig Seed) (n : Relay) (pkt : Packet) (t : ℚ) :
    Option (Relay × Option Bytes) :=
  (rxStep cfg.rx n.rx (.transmit pkt t)).map fun rx =>
    ({ n with rx, tracked := n.tracked ++ trackedAt cfg.rx pkt t }, pkt.writeTo.toOption)

def relayStep (cfg : RelayConfig Seed) (n : Relay) : RelayAction → Option (Relay × Option Bytes)
  | .receive data rssi snr t t' =>
    (rxStep cfg.rx n.rx (.receive data rssi snr t t')).map fun rx => ({ n with rx }, none)
  | .resume i t t' consumed =>
    match n.rx.held[i]? with
    | none => none
    | some pkt =>
      let a := admission cfg.rx n.rx.packetFilter pkt t
      (rxStep cfg.rx n.rx (.resume i t t')).map fun rx =>
        ({ rx
           pending := n.pending ++ (forwardOf cfg.rx a pkt consumed).toList
           tracked := n.tracked ++ if a = .checkedIn then [⟨pkt, t', false⟩] else [] }, none)
  | .retransmit i t =>
    match n.pending[i]? with
    | none => none
    | some f =>
      let n := { n with pending := n.pending.eraseIdx i }
      -- a flood TRACE is dropped before it is marked seen
      if f.isRouteFlood && f.getPayloadType == payloadTypeTrace then some (n, none)
      else
        match cfg.dispatcher.outgoing cfg.crypto f with
        | none => some (n, none)
        | some p => n.transmit cfg p t
  | .transmit pkt t => n.transmit cfg pkt t
  | .cleanup t => (rxStep cfg.rx n.rx (.cleanup t)).map fun rx => ({ n with rx }, none)

/-- The moves of a node. -/
inductive RelayMove (cfg : RelayConfig Seed) (n : Relay) :
    RelayAction → Relay → Option Bytes → Prop where
  | received {data : Bytes} {rssi : ℤ} {snr t t' : ℚ} {rx : RxState}
      (hrx : rxStep cfg.rx n.rx (.receive data rssi snr t t') = some rx) :
      RelayMove cfg n (.receive data rssi snr t t') { n with rx } none
  | resumed {i : ℕ} {t t' : ℚ} {consumed : Bool} {pkt : Packet} {rx : RxState}
      (hheld : n.rx.held[i]? = some pkt)
      (hrx : rxStep cfg.rx n.rx (.resume i t t') = some rx) :
      RelayMove cfg n (.resume i t t' consumed)
        { rx
          pending := n.pending ++
            (forwardOf cfg.rx (admission cfg.rx n.rx.packetFilter pkt t) pkt consumed).toList
          tracked := n.tracked ++
            if admission cfg.rx n.rx.packetFilter pkt t = .checkedIn then [⟨pkt, t', false⟩]
            else [] } none
  | dropped {i : ℕ} {t : ℚ} :
      RelayMove cfg n (.retransmit i t) { n with pending := n.pending.eraseIdx i } none
  | retransmitted {i : ℕ} {t : ℚ} {f p : Packet} {rx : RxState} (hpending : n.pending[i]? = some f)
      (hout : cfg.dispatcher.outgoing cfg.crypto f = some p)
      (hrx : rxStep cfg.rx n.rx (.transmit p t) = some rx) :
      RelayMove cfg n (.retransmit i t)
        { rx
          pending := n.pending.eraseIdx i
          tracked := n.tracked ++ trackedAt cfg.rx p t } p.writeTo.toOption
  | transmitted {pkt : Packet} {t : ℚ} {rx : RxState}
      (hrx : rxStep cfg.rx n.rx (.transmit pkt t) = some rx) :
      RelayMove cfg n (.transmit pkt t)
        { n with rx, tracked := n.tracked ++ trackedAt cfg.rx pkt t } pkt.writeTo.toOption
  | cleaned {t : ℚ} {rx : RxState} (hrx : rxStep cfg.rx n.rx (.cleanup t) = some rx) :
      RelayMove cfg n (.cleanup t) { n with rx } none

variable {cfg : RelayConfig Seed} {n n' : Relay} {a : RelayAction} {frame : Option Bytes}

theorem relayStep_cases (h : relayStep cfg n a = some (n', frame)) :
    RelayMove cfg n a n' frame := by
  cases a with
  | receive data rssi snr t t' =>
    obtain ⟨rx, hrx, heq⟩ := Option.map_eq_some_iff.mp h
    cases heq
    exact .received hrx
  | resume i t t' consumed =>
    simp only [relayStep] at h
    split at h
    · cases h
    · rename_i pkt hheld
      obtain ⟨rx, hrx, heq⟩ := Option.map_eq_some_iff.mp h
      cases heq
      exact .resumed hheld hrx
  | retransmit i t =>
    simp only [relayStep] at h
    split at h
    · cases h
    rename_i f hpending
    split at h
    · cases h
      exact .dropped
    split at h
    · cases h
      exact .dropped
    · rename_i p hout
      obtain ⟨rx, hrx, heq⟩ := Option.map_eq_some_iff.mp h
      cases heq
      exact .retransmitted hpending hout hrx
  | transmit pkt t =>
    obtain ⟨rx, hrx, heq⟩ := Option.map_eq_some_iff.mp h
    cases heq
    exact .transmitted hrx
  | cleanup t =>
    obtain ⟨rx, hrx, heq⟩ := Option.map_eq_some_iff.mp h
    cases heq
    exact .cleaned hrx

theorem RelayMove.clock_le (h : RelayMove cfg n a n' frame) : n.rx.clock ≤ n'.rx.clock := by
  cases h with
  | received hrx => exact (rxStep_effect hrx).1
  | resumed _ hrx => exact (rxStep_effect hrx).1
  | dropped => exact le_rfl
  | retransmitted _ _ hrx => exact (rxStep_effect hrx).1
  | transmitted hrx => exact (rxStep_effect hrx).1
  | cleaned hrx => exact (rxStep_effect hrx).1

/-- What a step does to the seen table and to the record of what was marked. -/
inductive TableEffect (cfg : RxConfig) (n n' : Relay) : Prop where
  | quiet (hhashes : n'.rx.packetFilter.packetHashes = n.rx.packetFilter.packetHashes)
      (hwindow : n'.rx.packetFilter.windowSeconds = n.rx.packetFilter.windowSeconds)
      (htracked : n'.tracked = n.tracked)
  | cleanup (hfilter : n'.rx.packetFilter = n.rx.packetFilter.cleanupOldHashes n'.rx.clock)
      (htracked : n'.tracked = n.tracked)
  | track (e : Tracked) (packetHash : Bytes) (hkey : seenKey cfg e.pkt = .ok packetHash)
      (htime : e.time = n'.rx.clock)
      (hfilter : n'.rx.packetFilter = n.rx.packetFilter.trackPacket packetHash n'.rx.clock)
      (htracked : n'.tracked = n.tracked ++ [e])

theorem dispatch_packetFilter (c : RxConfig) (s : RxState) (packetHash : Bytes) (t : ℚ)
    (pkt : Packet) : (dispatch c s packetHash t pkt).packetFilter = s.packetFilter := by
  unfold dispatch
  split <;> rfl

theorem processHeld_of_checkedIn {c : RxConfig} {pkt : Packet} {t : ℚ} (s : RxState) (t' : ℚ)
    (h : admission c s.packetFilter pkt t = .checkedIn) :
    ∃ packetHash, seenKey c pkt = .ok packetHash ∧
      (processHeld c s pkt t t').packetFilter = s.packetFilter.trackPacket packetHash t' := by
  unfold admission at h
  unfold processHeld
  cases hkey : seenKey c pkt with
  | error e =>
    rw [hkey] at h
    cases h
  | ok packetHash =>
    rw [hkey] at h
    dsimp only at h ⊢
    refine ⟨packetHash, rfl, ?_⟩
    split
    · rename_i htransit
      rw [if_pos htransit] at h
      cases h
    · rename_i htransit
      rw [if_neg htransit] at h
      split
      · rename_i hdup
        rw [if_pos hdup] at h
        cases h
      · exact dispatch_packetFilter c _ packetHash t' pkt

theorem processHeld_of_not_checkedIn {c : RxConfig} {pkt : Packet} {t : ℚ} (s : RxState)
    (t' : ℚ) (h : admission c s.packetFilter pkt t ≠ .checkedIn) :
    (processHeld c s pkt t t').packetFilter = s.packetFilter := by
  unfold admission at h
  unfold processHeld
  cases hkey : seenKey c pkt with
  | error e => rfl
  | ok packetHash =>
    rw [hkey] at h
    dsimp only at h ⊢
    split
    · exact dispatch_packetFilter c _ packetHash t' pkt
    · rename_i htransit
      rw [if_neg htransit] at h
      split
      · rfl
      · rename_i hdup
        rw [if_neg hdup] at h
        exact absurd rfl h

theorem receiveFrame_packetHashes (c : RxConfig) (s : RxState) (data : Bytes) (rssi : ℤ)
    (snr t t' : ℚ) :
    (receiveFrame c s data rssi snr t t').packetFilter.packetHashes =
        s.packetFilter.packetHashes ∧
      (receiveFrame c s data rssi snr t t').packetFilter.windowSeconds =
        s.packetFilter.windowSeconds := by
  unfold receiveFrame
  dsimp only
  split
  · exact ⟨rfl, rfl⟩
  · split <;> exact ⟨rfl, rfl⟩

theorem rxStep_transmit_table {pkt : Packet} {t : ℚ} {rx : RxState} (pending : List Packet)
    (hrx : rxStep cfg.rx n.rx (.transmit pkt t) = some rx) :
    TableEffect cfg.rx n
      { rx, pending, tracked := n.tracked ++ trackedAt cfg.rx pkt t } := by
  obtain ⟨-, hrx⟩ := Option.ite_none_right_eq_some.mp hrx
  obtain rfl := Option.some.inj hrx
  unfold Dispatcher.transmit trackedAt
  cases hkey : seenKey cfg.rx pkt with
  | error e => exact .quiet rfl rfl (List.append_nil _)
  | ok packetHash => exact .track ⟨pkt, t, true⟩ packetHash hkey rfl rfl rfl

theorem RelayMove.table (h : RelayMove cfg n a n' frame) : TableEffect cfg.rx n n' := by
  cases h with
  | @received data rssi snr t t' rx hrx =>
    obtain ⟨-, hrx⟩ := Option.ite_none_right_eq_some.mp hrx
    obtain rfl := Option.some.inj hrx
    obtain ⟨hhashes, hwindow⟩ := receiveFrame_packetHashes cfg.rx n.rx data rssi snr t t'
    exact .quiet hhashes hwindow rfl
  | @resumed i t t' consumed pkt rx hheld hrx =>
    simp only [rxStep, hheld] at hrx
    obtain ⟨-, hrx⟩ := Option.ite_none_right_eq_some.mp hrx
    obtain rfl := Option.some.inj hrx
    by_cases hadm : admission cfg.rx n.rx.packetFilter pkt t = .checkedIn
    · obtain ⟨packetHash, hkey, hfilter⟩ :=
        processHeld_of_checkedIn { n.rx with held := n.rx.held.eraseIdx i } t' hadm
      refine .track ⟨pkt, t', false⟩ packetHash hkey (processHeld_clock t t').symm ?_ ?_
      · rw [processHeld_clock]
        exact hfilter
      · rw [if_pos hadm]
    · have hfilter :=
        processHeld_of_not_checkedIn { n.rx with held := n.rx.held.eraseIdx i } t' hadm
      refine .quiet (congrArg _ hfilter) (congrArg _ hfilter) ?_
      rw [if_neg hadm, List.append_nil]
  | dropped => exact .quiet rfl rfl rfl
  | retransmitted _ _ hrx => exact rxStep_transmit_table _ hrx
  | transmitted hrx => exact rxStep_transmit_table _ hrx
  | cleaned hrx =>
    obtain ⟨-, hrx⟩ := Option.ite_none_right_eq_some.mp hrx
    obtain rfl := Option.some.inj hrx
    exact .cleanup rfl rfl

/-- The table remembers what was marked seen, and holds nothing else. -/
structure TableInv (cfg : RxConfig) (window : ℚ) (n : Relay) : Prop where
  window_eq : n.rx.packetFilter.windowSeconds = window
  past : ∀ e ∈ n.tracked, e.time ≤ n.rx.clock
  remembered : ∀ e ∈ n.tracked, ∀ packetHash, seenKey cfg e.pkt = .ok packetHash →
    n.rx.packetFilter.Remembers n.rx.clock packetHash e.time
  backed : ∀ packetHash seen, n.rx.packetFilter.packetHashes.get? packetHash = some seen →
    ∃ e ∈ n.tracked, seenKey cfg e.pkt = .ok packetHash ∧ e.time = seen

namespace TableInv

variable {window : ℚ}

theorem track {e : Tracked} {packetHash : Bytes} (hi : TableInv cfg.rx window n)
    (hclock : n.rx.clock ≤ n'.rx.clock) (hkey : seenKey cfg.rx e.pkt = .ok packetHash)
    (htime : e.time = n'.rx.clock)
    (hfilter : n'.rx.packetFilter = n.rx.packetFilter.trackPacket packetHash n'.rx.clock)
    (htracked : n'.tracked = n.tracked ++ [e]) : TableInv cfg.rx window n' where
  window_eq := by
    rw [hfilter]
    exact hi.window_eq
  past := by
    intro e' he
    rw [htracked] at he
    rcases List.mem_append.mp he with he | he
    · exact (hi.past e' he).trans hclock
    · rw [List.mem_singleton.mp he, htime]
  remembered := by
    intro e' he packetHash' hkey'
    rw [htracked] at he
    rw [hfilter]
    rcases List.mem_append.mp he with he | he
    · exact (hi.remembered e' he packetHash' hkey').trackPacket
        ((hi.past e' he).trans hclock) hclock
    · rw [List.mem_singleton.mp he] at hkey' ⊢
      cases hkey.symm.trans hkey'
      rw [htime]
      exact PacketFilter.remembers_trackPacket _ _ _
  backed := by
    intro packetHash' seen hget
    rw [htracked]
    rw [hfilter, PacketFilter.trackPacket, Dict.get?_set] at hget
    split at hget
    · rename_i heq
      cases hget
      exact ⟨e, List.mem_append_right _ (List.mem_singleton_self e), heq ▸ hkey, htime⟩
    · obtain ⟨e', he, hkey', htime'⟩ := hi.backed packetHash' seen hget
      exact ⟨e', List.mem_append_left _ he, hkey', htime'⟩

theorem move (hi : TableInv cfg.rx window n) (h : RelayMove cfg n a n' frame) :
    TableInv cfg.rx window n' := by
  have hclock := h.clock_le
  cases h.table with
  | quiet hhashes hwindow htracked =>
    refine ⟨hwindow.trans hi.window_eq, ?_, ?_, ?_⟩
    · rw [htracked]
      exact fun e he => (hi.past e he).trans hclock
    · rw [htracked]
      intro e he packetHash hkey
      have hmem := SeenTable.Covered.mono_now (hi.remembered e he packetHash hkey) hclock
      rwa [← hhashes, ← hwindow] at hmem
    · rw [htracked, hhashes]
      exact hi.backed
  | cleanup hfilter htracked =>
    refine ⟨by rw [hfilter]; exact hi.window_eq, ?_, ?_, ?_⟩
    · rw [htracked]
      exact fun e he => (hi.past e he).trans hclock
    · rw [htracked, hfilter]
      intro e he packetHash hkey
      exact (hi.remembered e he packetHash hkey).cleanupOldHashes hclock
    · rw [htracked, hfilter]
      intro packetHash seen hget
      rw [PacketFilter.cleanupOldHashes, Dict.get?_filter] at hget
      exact hi.backed packetHash seen (Option.eq_some_of_filter_eq_some hget)
  | track e packetHash hkey htime hfilter htracked =>
    exact hi.track hclock hkey htime hfilter htracked

theorem isDuplicate_iff {packetHash : Bytes} {t : ℚ} (hi : TableInv cfg.rx window n)
    (ht : n.rx.clock ≤ t) :
    n.rx.packetFilter.isDuplicate packetHash t = true ↔
      ∃ e ∈ n.tracked, seenKey cfg.rx e.pkt = .ok packetHash ∧ t < e.time + window := by
  constructor
  · intro hdup
    unfold PacketFilter.isDuplicate at hdup
    split at hdup
    · rename_i seen hget
      obtain ⟨e, he, hkey, rfl⟩ := hi.backed packetHash seen hget
      refine ⟨e, he, hkey, ?_⟩
      rw [decide_eq_true_eq, hi.window_eq] at hdup
      linarith
    · cases hdup
  · rintro ⟨e, he, hkey, hlt⟩
    by_contra hnot
    have hmem : n.rx.packetFilter.Remembers t packetHash e.time :=
      SeenTable.Covered.mono_now (hi.remembered e he packetHash hkey) ht
    have hge := hmem.add_window_le (Bool.eq_false_iff.mpr hnot)
    rw [hi.window_eq] at hge
    exact absurd hlt (not_lt.mpr hge)

end TableInv

theorem buildClientRepeatForward_eq_copy {localIdentity : Option Bytes} {q f : Packet}
    (h : buildClientRepeatForward localIdentity q = .ok (some f)) :
    ∃ path pathLen, f = { copyPacketForForward q with path := path, pathLen := pathLen } := by
  unfold buildClientRepeatForward at h
  split at h
  · cases h
  split at h
  · unfold buildTraceForward at h
    split at h
    · cases h
    split at h
    · cases h
    split at h
    · cases h
    dsimp only at h
    split at h
    · cases h
    split at h
    · cases h
    cases h
    exact ⟨_, _, rfl⟩
  split at h
  · unfold buildDirectForward at h
    dsimp only at h
    split at h
    · cases h
    split at h
    · cases h
    split at h
    · cases h
    obtain ⟨pathLen, -, h⟩ := bind_eq_ok.mp h
    cases h
    exact ⟨_, _, rfl⟩
  split at h
  · unfold buildFloodForward at h
    dsimp only at h
    split at h
    · cases h
    split at h
    · cases h
    obtain ⟨pathLen, -, h⟩ := bind_eq_ok.mp h
    cases h
    exact ⟨_, _, rfl⟩
  · cases h

theorem outgoing_of_applied {f : Packet} (hscope : f.floodScopeApplied = true)
    (hmode : f.pathHashModeApplied = true) (c : Crypto Seed) (d : DispatcherConfig) :
    d.outgoing c f = some f := by
  have hkept : d.applyDefaultPathHashMode f = .ok f := by
    unfold DispatcherConfig.applyDefaultPathHashMode
    cases d.pathHashMode with
    | none => rfl
    | some mode =>
      dsimp only
      rw [if_pos hmode, ite_self, ite_self]
  rw [DispatcherConfig.outgoing, FloodScope.applyFloodScope, if_pos hscope, Option.bind_some,
    hkept]
  rfl

theorem outgoing_forward {localIdentity : Option Bytes} {q f : Packet}
    (h : buildClientRepeatForward localIdentity q = .ok (some f)) (c : Crypto Seed)
    (d : DispatcherConfig) : d.outgoing c f = some f := by
  obtain ⟨path, pathLen, rfl⟩ := buildClientRepeatForward_eq_copy h
  exact outgoing_of_applied rfl rfl c d

theorem forwardOf_eq_some {c : RxConfig} {b : Admission} {pkt f : Packet} {consumed : Bool}
    (h : forwardOf c b pkt consumed = some f) :
    buildClientRepeatForward c.localIdentity pkt = .ok (some f) := by
  unfold forwardOf at h
  split at h
  · cases h
  · cases h
  all_goals
    split at h
    · rename_i hbuild
      split at h
      · cases h
      · cases h
        exact hbuild
    · cases h

theorem processHeld_held (c : RxConfig) (s : RxState) (pkt : Packet) (t t' : ℚ) :
    (processHeld c s pkt t t').held = s.held := by
  unfold processHeld dispatch
  repeat' split
  all_goals rfl

theorem transmit_held (c : RxConfig) (s : RxState) (pkt : Packet) (t : ℚ) :
    (transmit c s pkt t).held = s.held := by
  unfold transmit
  split <;> rfl

namespace RelayMove

theorem held (h : RelayMove cfg n a n' frame) :
    ∀ q ∈ n'.rx.held, q ∈ n.rx.held ∨ ∃ data rssi snr t t' pkt,
      a = .receive data rssi snr t t' ∧ readFrom {} data = .ok pkt ∧
        q = { pkt with rssi := rssi, snr := snr } := by
  intro q hq
  cases h with
  | @received data rssi snr t t' rx hrx =>
    obtain ⟨-, hrx⟩ := Option.ite_none_right_eq_some.mp hrx
    obtain rfl := Option.some.inj hrx
    unfold receiveFrame at hq
    dsimp only at hq
    split at hq
    · exact .inl hq
    split at hq
    · exact .inl hq
    · rename_i pkt hread
      rcases List.mem_append.mp hq with hq | hq
      · exact .inl hq
      · exact .inr ⟨data, rssi, snr, t, t', pkt, rfl, hread, List.mem_singleton.mp hq⟩
  | resumed hheld hrx =>
    simp only [rxStep, hheld] at hrx
    obtain ⟨-, hrx⟩ := Option.ite_none_right_eq_some.mp hrx
    obtain rfl := Option.some.inj hrx
    rw [processHeld_held] at hq
    exact .inl (List.mem_of_mem_eraseIdx hq)
  | dropped => exact .inl hq
  | retransmitted _ _ hrx =>
    obtain ⟨-, hrx⟩ := Option.ite_none_right_eq_some.mp hrx
    obtain rfl := Option.some.inj hrx
    exact .inl (transmit_held cfg.rx n.rx _ _ ▸ hq)
  | transmitted hrx =>
    obtain ⟨-, hrx⟩ := Option.ite_none_right_eq_some.mp hrx
    obtain rfl := Option.some.inj hrx
    exact .inl (transmit_held cfg.rx n.rx _ _ ▸ hq)
  | cleaned hrx =>
    obtain ⟨-, hrx⟩ := Option.ite_none_right_eq_some.mp hrx
    obtain rfl := Option.some.inj hrx
    exact .inl hq

theorem pending (h : RelayMove cfg n a n' frame) :
    ∀ f ∈ n'.pending, f ∈ n.pending ∨
      ∃ q ∈ n.rx.held, buildClientRepeatForward (some cfg.selfKey) q = .ok (some f) := by
  intro f hf
  cases h with
  | received => exact .inl hf
  | resumed hheld hrx =>
    rcases List.mem_append.mp hf with hf | hf
    · exact .inl hf
    · exact .inr ⟨_, List.mem_of_getElem? hheld, forwardOf_eq_some (Option.mem_toList.mp hf)⟩
  | dropped => exact .inl (List.mem_of_mem_eraseIdx hf)
  | retransmitted => exact .inl (List.mem_of_mem_eraseIdx hf)
  | transmitted => exact .inl hf
  | cleaned => exact .inl hf

def Sends (cfg : RelayConfig Seed) (n : Relay) (a : RelayAction) (p : Packet) : Prop :=
  (∃ f ∈ n.pending, cfg.dispatcher.outgoing cfg.crypto f = some p) ∨ ∃ t, a = .transmit p t

theorem mem_trackedAt {c : RxConfig} {pkt : Packet} {t : ℚ} {e : Tracked}
    (h : e ∈ trackedAt c pkt t) : e = ⟨pkt, t, true⟩ := by
  unfold trackedAt at h
  split at h
  · cases h
  · exact List.mem_singleton.mp h

theorem mem_trackedAt_of_writable {c : RxConfig} {pkt : Packet} (h : pkt.Writable) (t : ℚ) :
    ⟨pkt, t, true⟩ ∈ trackedAt c pkt t := by
  obtain ⟨packetHash, hhash⟩ := h.exists_packetHash c.sha256
  unfold trackedAt seenKey
  rw [hhash]
  exact List.mem_singleton_self _

theorem tracked (h : RelayMove cfg n a n' frame) {e : Tracked} (he : e ∈ n'.tracked)
    (hsent : e.sent = true) : e ∈ n.tracked ∨ Sends cfg n a e.pkt := by
  cases h with
  | received => exact .inl he
  | resumed =>
    rcases List.mem_append.mp he with he | he
    · exact .inl he
    · split at he
      · rw [List.mem_singleton.mp he] at hsent
        cases hsent
      · cases he
  | dropped => exact .inl he
  | retransmitted hpending hout =>
    rcases List.mem_append.mp he with he | he
    · exact .inl he
    · rw [mem_trackedAt he]
      exact .inr (.inl ⟨_, List.mem_of_getElem? hpending, hout⟩)
  | @transmitted pkt t =>
    rcases List.mem_append.mp he with he | he
    · exact .inl he
    · rw [mem_trackedAt he]
      exact .inr (.inr ⟨t, rfl⟩)
  | cleaned => exact .inl he

theorem tracked_mono (h : RelayMove cfg n a n' frame) {e : Tracked} (he : e ∈ n.tracked) :
    e ∈ n'.tracked := by
  cases h with
  | received => exact he
  | resumed => exact List.mem_append_left _ he
  | dropped => exact he
  | retransmitted => exact List.mem_append_left _ he
  | transmitted => exact List.mem_append_left _ he
  | cleaned => exact he

theorem writes {d : Bytes} (h : RelayMove cfg n a n' (some d)) :
    ∃ p t, p.writeTo = .ok d ∧ ⟨p, t, true⟩ ∈ n'.tracked ∧ Sends cfg n a p := by
  have hwrites : ∀ (p : Packet) (t : ℚ), p.writeTo.toOption = some d →
      p.writeTo = .ok d ∧ ⟨p, t, true⟩ ∈ n.tracked ++ trackedAt cfg.rx p t := by
    intro p t hwrite
    cases hp : p.writeTo with
    | error e =>
      rw [hp] at hwrite
      cases hwrite
    | ok d' =>
      rw [hp] at hwrite
      cases hwrite
      exact ⟨rfl, List.mem_append_right _
        (mem_trackedAt_of_writable (writeTo_eq_ok.mp hp).1 t)⟩
  generalize hframe : some d = frame at h
  cases h with
  | received => cases hframe
  | resumed => cases hframe
  | dropped => cases hframe
  | @retransmitted i t f p rx hpending hout hrx =>
    obtain ⟨hwrite, hmem⟩ := hwrites p t hframe.symm
    exact ⟨p, t, hwrite, hmem, .inl ⟨f, List.mem_of_getElem? hpending, hout⟩⟩
  | @transmitted pkt t rx hrx =>
    obtain ⟨hwrite, hmem⟩ := hwrites pkt t hframe.symm
    exact ⟨pkt, t, hwrite, hmem, .inr ⟨t, rfl⟩⟩
  | cleaned => cases hframe

end RelayMove

end OpenHop.Dispatcher
