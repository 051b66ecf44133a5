import Mathlib.Tactic.Linarith
import OpenHop.Hardware.KissModem
import OpenHop.Machine.PairingQueue

/-! # Data frames waiting for their metrics

A Data frame from the modem waits in the pending queue. An RxMeta frame pairs its metrics
with the oldest waiting frame; a timeout delivers the frames at the front whose deadline has
passed, with sentinel metrics.
-/

namespace OpenHop.Kiss.KissModemWrapper

open PairingQueue (Op Log pushed paired Numbered Timely Own)

/-- The loop of `_flush_expired_rx_frames` over the queue `queue`. -/
def flushLoop (now : ℚ) (m : RxSide) (queue : List (Bytes × ℚ)) : RxSide :=
  match queue with
  | [] => { m with pendingRxQueue := [] }
  | (payload, deadline) :: rest =>
    if deadline > now then { m with pendingRxQueue := (payload, deadline) :: rest }
    else
      let m := { m with rxPackets := m.rxPackets + 1 }
      flushLoop now
        { m with
          dispatched :=
            if m.hasCallback then m.dispatched ++ [(payload, -999, -999)] else m.dispatched }
        rest

def flushExpiredRxFrames (clock : ℕ → ℚ) (m : RxSide) : RxSide :=
  let now := clock m.reads
  flushLoop now { m with reads := m.reads + 1 } m.pendingRxQueue

inductive RxEvent where
  | frame (buffer : Bytes)
  | flush

def rxStep (clock : ℕ → ℚ) (m : RxSide) : RxEvent → RxSide
  | .frame buffer => processReceivedFrame clock m buffer
  | .flush => flushExpiredRxFrames clock m

def receive (clock : ℕ → ℚ) (events : List RxEvent) : RxSide := events.foldl (rxStep clock) {}

inductive FrameKind where
  | data (payload : Bytes)
  | rxMeta (payload : Bytes)
  | other

def frameKind : Bytes → FrameKind
  | [] => .other
  | typeByte :: body =>
    if (typeByte.toNat >>> 4) &&& 0x0F ≠ 0 then .other
    else if typeByte.toNat &&& 0x0F = cmdData then .data body
    else if typeByte.toNat &&& 0x0F = kissCmdSetHardware then
      match body with
      | [] => .other
      | subCmd :: payload => if subCmd = hwRespRxMeta then .rxMeta payload else .other
    else .other

/-- RSSI and SNR as an RxMeta frame reports them. -/
def rxMetrics : Bytes → ℤ × ℚ
  | snrRaw :: rssiRaw :: _ => (signedByte rssiRaw, (signedByte snrRaw : ℚ) / 4)
  | _ => (-999, -999)

def RxLine.data (clock : ℕ → ℚ) (r : RxLine) (payload : Bytes) : RxLine :=
  if r.pendingRxQueue.length < maxPendingRxFrames then
    { r with
      reads := r.reads + 1
      pendingRxQueue := r.pendingRxQueue ++ [(payload, clock r.reads + rxMetaWaitSeconds)] }
  else { r with frameErrors := r.frameErrors + 1 }

def RxLine.rxMeta (r : RxLine) (payload : Bytes) : RxLine :=
  match r.pendingRxQueue with
  | [] => r
  | entry :: queue =>
    { r with
      pendingRxQueue := queue
      dispatched :=
        if r.hasCallback then r.dispatched ++ [(entry.1, rxMetrics payload)] else r.dispatched }

def RxLine.flush (clock : ℕ → ℚ) (r : RxLine) : RxLine :=
  { r with
    reads := r.reads + 1
    pendingRxQueue := r.pendingRxQueue.dropWhile (PairingQueue.isDue (clock r.reads))
    dispatched := r.dispatched ++
      (r.pendingRxQueue.takeWhile (PairingQueue.isDue (clock r.reads))).map
        fun e => (e.1, -999, -999) }

theorem processData_line (clock : ℕ → ℚ) (m : RxSide) (payload : Bytes) :
    (processData clock m payload).line = m.line.data clock payload := by
  unfold processData RxLine.data
  split
  · rename_i hfull
    exact (if_neg (not_lt.mpr hfull)).symm
  · rename_i hfree
    exact (if_pos (not_le.mp hfree)).symm

theorem processRxMeta_line (m : RxSide) (payload : Bytes) :
    (processRxMeta m payload).line = m.line.rxMeta payload := by
  rcases payload with _ | ⟨a, _ | ⟨b, payload⟩⟩ <;> rcases m with ⟨_ | ⟨entry, queue⟩⟩ <;> rfl

theorem processReceivedFrame_line (clock : ℕ → ℚ) (m : RxSide) (buffer : Bytes) :
    (processReceivedFrame clock m buffer).line =
      match frameKind buffer with
      | .data payload => m.line.data clock payload
      | .rxMeta payload => m.line.rxMeta payload
      | .other => m.line := by
  rcases buffer with _ | ⟨typeByte, body⟩
  · rfl
  · unfold processReceivedFrame frameKind
    dsimp only
    split
    · rfl
    · split
      · exact processData_line clock _ body
      · split
        · rcases body with _ | ⟨subCmd, payload⟩
          · rfl
          · rw [processSetHardware_line]
            dsimp only
            split
            · exact processRxMeta_line _ payload
            · rfl
        · rfl

theorem flushLoop_line (now : ℚ) (m : RxSide) (queue : List (Bytes × ℚ))
    (hcallback : m.hasCallback = true) :
    (flushLoop now m queue).line =
      { m.line with
        pendingRxQueue := queue.dropWhile (PairingQueue.isDue now)
        dispatched := m.dispatched ++
          (queue.takeWhile (PairingQueue.isDue now)).map fun e => (e.1, -999, -999) } := by
  induction queue generalizing m with
  | nil => simp [flushLoop, RxSide.line]
  | cons entry rest ih =>
    unfold flushLoop
    by_cases hdue : entry.2 ≤ now
    · have hd : PairingQueue.isDue now entry = true := by simpa [PairingQueue.isDue] using hdue
      simp only [not_lt.mpr hdue, if_false, hcallback, if_true]
      rw [ih]
      · simp [RxSide.line, hd, hcallback]
      · rfl
    · have hd : PairingQueue.isDue now entry = false := by simpa [PairingQueue.isDue] using hdue
      simp [RxSide.line, hd, not_le.mp hdue]

theorem flushExpiredRxFrames_line (clock : ℕ → ℚ) (m : RxSide) (hcallback : m.hasCallback = true) :
    (flushExpiredRxFrames clock m).line = m.line.flush clock :=
  flushLoop_line _ _ _ hcallback

/-- A Data frame with its number among the Data frames received. -/
structure DataFrame where
  number : ℕ
  payload : Bytes
  arrived : ℚ

/-- The queue the receive side should be, as operations on numbered frames. -/
structure Watch where
  datas : ℕ := 0
  metas : ℕ := 0
  reads : ℕ := 0
  ops : List (Op DataFrame ℕ ℚ) := []

def Watch.log (w : Watch) : Log DataFrame ℕ ℚ := PairingQueue.run maxPendingRxFrames w.ops

def Watch.data (clock : ℕ → ℚ) (w : Watch) (payload : Bytes) : Watch where
  datas := w.datas + 1
  metas := w.metas
  reads := if w.log.held.length < maxPendingRxFrames then w.reads + 1 else w.reads
  ops := w.ops ++ [.push ⟨w.datas, payload, clock w.reads⟩ (clock w.reads + rxMetaWaitSeconds)]

def Watch.rxMeta (w : Watch) : Watch :=
  { w with metas := w.metas + 1, ops := w.ops ++ [.pair w.metas] }

def Watch.flush (clock : ℕ → ℚ) (w : Watch) : Watch :=
  { w with reads := w.reads + 1, ops := w.ops ++ [.expire (clock w.reads)] }

def Watch.step (clock : ℕ → ℚ) (w : Watch) : RxEvent → Watch
  | .frame buffer =>
    match frameKind buffer with
    | .data payload => w.data clock payload
    | .rxMeta _ => w.rxMeta
    | .other => w
  | .flush => w.flush clock

def watch (clock : ℕ → ℚ) (events : List RxEvent) : Watch := events.foldl (Watch.step clock) {}

@[simp] theorem receive_append_singleton (clock : ℕ → ℚ) (events : List RxEvent) (e : RxEvent) :
    receive clock (events ++ [e]) = rxStep clock (receive clock events) e :=
  List.foldl_append

@[simp] theorem watch_append_singleton (clock : ℕ → ℚ) (events : List RxEvent) (e : RxEvent) :
    watch clock (events ++ [e]) = (watch clock events).step clock e :=
  List.foldl_append

/-- The metrics of a delivery, given the payloads of the RxMeta frames by number. -/
def deliveredMetrics (metas : ℕ → Bytes) : Option ℕ → ℤ × ℚ
  | none => (-999, -999)
  | some k => rxMetrics (metas k)

structure Tracks (metas : ℕ → Bytes) (r : RxLine) (w : Watch) : Prop where
  pending : r.pendingRxQueue = w.log.held.map fun e => (e.1.payload, e.2)
  dispatched : r.dispatched =
    w.log.delivered.map fun d => (d.1.payload, deliveredMetrics metas d.2)
  errors : r.frameErrors = w.log.refused
  callback : r.hasCallback = true
  reads : r.reads = w.reads

variable {metas : ℕ → Bytes} {clock : ℕ → ℚ} {r : RxLine} {w : Watch}

theorem Tracks.data (h : Tracks metas r w) (payload : Bytes) :
    Tracks metas (r.data clock payload) (w.data clock payload) := by
  have hlen : r.pendingRxQueue.length = w.log.held.length := by rw [h.pending, List.length_map]
  have hlog : (w.data clock payload).log = w.log.step maxPendingRxFrames
      (.push ⟨w.datas, payload, clock w.reads⟩ (clock w.reads + rxMetaWaitSeconds)) :=
    PairingQueue.run_append_singleton
  rw [RxLine.data, hlen]
  by_cases hfree : w.log.held.length < maxPendingRxFrames
  · rw [Log.step, if_pos hfree] at hlog
    rw [if_pos hfree]
    constructor
    · simp only [hlog, List.map_append, List.map_singleton, h.pending, h.reads]
    · simpa only [hlog] using h.dispatched
    · simpa only [hlog] using h.errors
    · exact h.callback
    · simp only [Watch.data, if_pos hfree, h.reads]
  · rw [Log.step, if_neg hfree] at hlog
    rw [if_neg hfree]
    constructor
    · simpa only [hlog] using h.pending
    · simpa only [hlog] using h.dispatched
    · simp only [hlog, h.errors]
    · exact h.callback
    · simpa only [Watch.data, if_neg hfree] using h.reads

theorem Tracks.rxMeta (h : Tracks metas r w) :
    Tracks metas (r.rxMeta (metas w.metas)) w.rxMeta := by
  have hlog : w.rxMeta.log = w.log.step maxPendingRxFrames (.pair w.metas) :=
    PairingQueue.run_append_singleton
  cases hheld : w.log.held with
  | nil =>
    have hnone : r.pendingRxQueue = [] := by rw [h.pending, hheld, List.map_nil]
    simp only [Log.step, hheld] at hlog
    simp only [RxLine.rxMeta, hnone]
    constructor
    · rw [hlog]
      exact h.pending
    · rw [hlog]
      exact h.dispatched
    · rw [hlog]
      exact h.errors
    · exact h.callback
    · exact h.reads
  | cons entry rest =>
    have hsome : r.pendingRxQueue =
        (entry.1.payload, entry.2) :: rest.map fun e => (e.1.payload, e.2) := by
      rw [h.pending, hheld, List.map_cons]
    simp only [Log.step, hheld] at hlog
    simp only [RxLine.rxMeta, hsome, h.callback, if_true]
    constructor
    · rw [hlog]
    · simp only [hlog, List.map_append, List.map_singleton, h.dispatched, deliveredMetrics]
    · rw [hlog]
      exact h.errors
    · rfl
    · exact h.reads

theorem Tracks.flush (h : Tracks metas r w) : Tracks metas (r.flush clock) (w.flush clock) := by
  have hlog : (w.flush clock).log = w.log.step maxPendingRxFrames (.expire (clock w.reads)) :=
    PairingQueue.run_append_singleton
  have hdue : PairingQueue.isDue (clock w.reads) ∘ (fun e : DataFrame × ℚ => (e.1.payload, e.2)) =
      PairingQueue.isDue (clock w.reads) := rfl
  constructor
  · simp only [RxLine.flush, h.pending, h.reads, hlog, Log.step, List.dropWhile_map, hdue]
  · simp only [RxLine.flush, h.pending, h.reads, h.dispatched, hlog, Log.step, List.takeWhile_map,
      hdue, List.map_append, List.map_map]
    rfl
  · rw [hlog]
    exact h.errors
  · exact h.callback
  · exact congrArg (· + 1) h.reads

def rxMetas (events : List RxEvent) : List Bytes :=
  events.filterMap fun
    | .frame buffer =>
      match frameKind buffer with
      | .rxMeta payload => some payload
      | _ => none
    | .flush => none

theorem rxMetas_append (events events' : List RxEvent) :
    rxMetas (events ++ events') = rxMetas events ++ rxMetas events' :=
  List.filterMap_append

theorem watch_metas (clock : ℕ → ℚ) (events : List RxEvent) :
    (watch clock events).metas = (rxMetas events).length := by
  induction events using List.reverseRecOn with
  | nil => rfl
  | append_singleton events e ih =>
    rw [watch_append_singleton, rxMetas_append, List.length_append, ← ih]
    cases e with
    | flush => rfl
    | frame buffer => cases hkind : frameKind buffer <;> simp [Watch.step, rxMetas, hkind] <;> rfl

theorem tracks_run (clock : ℕ → ℚ) (events : List RxEvent)
    (hmetas : ∀ k p, (rxMetas events)[k]? = some p → metas k = p) :
    Tracks metas (receive clock events).line (watch clock events) := by
  induction events using List.reverseRecOn with
  | nil => exact ⟨rfl, rfl, rfl, rfl, rfl⟩
  | append_singleton events e ih =>
    have hbefore : ∀ k p, (rxMetas events)[k]? = some p → metas k = p := by
      intro k p hk
      have hlt : k < (rxMetas events).length := (List.getElem?_eq_some_iff.mp hk).1
      exact hmetas k p (by rw [rxMetas_append, List.getElem?_append_left hlt, hk])
    have ih := ih hbefore
    rw [receive_append_singleton, watch_append_singleton]
    cases e with
    | flush =>
      rw [rxStep, flushExpiredRxFrames_line _ _ ih.callback]
      exact ih.flush
    | frame buffer =>
      simp only [rxStep, Watch.step]
      rw [processReceivedFrame_line]
      cases hkind : frameKind buffer with
      | data payload => exact ih.data payload
      | other => exact ih
      | rxMeta payload =>
        have hpayload : metas (watch clock events).metas = payload := by
          refine hmetas _ _ ?_
          rw [watch_metas, rxMetas_append]
          simp [rxMetas, hkind]
        rw [← hpayload]
        exact ih.rxMeta

def dataFrames (events : List RxEvent) : List Bytes :=
  events.filterMap fun
    | .frame buffer =>
      match frameKind buffer with
      | .data payload => some payload
      | _ => none
    | .flush => none

theorem dataFrames_append (events events' : List RxEvent) :
    dataFrames (events ++ events') = dataFrames events ++ dataFrames events' :=
  List.filterMap_append

/-- The operations carry the Data frames and the RxMeta frames, numbered as they come. -/
structure Counted (payloads : List Bytes) (w : Watch) : Prop where
  payloads : (pushed w.ops).map (fun e => e.1.payload) = payloads
  datas : w.datas = (pushed w.ops).length
  pushes : (pushed w.ops).map (fun e => e.1.number) = List.range (pushed w.ops).length
  pairs : paired w.ops = List.range w.metas

theorem counted_run (clock : ℕ → ℚ) (events : List RxEvent) :
    Counted (dataFrames events) (watch clock events) := by
  induction events using List.reverseRecOn with
  | nil => exact ⟨rfl, rfl, rfl, rfl⟩
  | append_singleton events e ih =>
    rw [watch_append_singleton, dataFrames_append]
    obtain ⟨hpayloads, hdatas, hpushes, hpairs⟩ := ih
    cases e with
    | flush =>
      constructor <;> simp [Watch.step, Watch.flush, dataFrames, *]
    | frame buffer =>
      cases hkind : frameKind buffer with
      | data payload =>
        constructor <;> simp [Watch.step, Watch.data, dataFrames, List.range_succ, *]
      | rxMeta payload =>
        constructor <;> simp [Watch.step, Watch.rxMeta, dataFrames, List.range_succ, *]
      | other =>
        constructor <;> simp [Watch.step, dataFrames, *]

/-- Under a clock that does not run backwards, deadlines are pushed in order. -/
structure Timed (clock : ℕ → ℚ) (w : Watch) : Prop where
  sorted : (pushed w.ops).Pairwise fun a b => a.2 ≤ b.2
  deadline : ∀ e ∈ pushed w.ops, e.2 = e.1.arrived + rxMetaWaitSeconds
  arrived : ∀ e ∈ pushed w.ops, e.1.arrived ≤ clock w.reads

theorem Timed.data (hclock : Monotone clock) (h : Timed clock w) (payload : Bytes) :
    Timed clock (w.data clock payload) := by
  have hreads : w.reads ≤ (w.data clock payload).reads := by
    simp only [Watch.data]
    split
    · exact Nat.le_succ _
    · exact le_rfl
  constructor
  · simp only [Watch.data, PairingQueue.pushed_append, PairingQueue.pushed_push]
    refine List.pairwise_append.mpr ⟨h.sorted, List.pairwise_singleton _ _, ?_⟩
    intro a ha b hb
    rw [List.mem_singleton.mp hb, h.deadline a ha]
    exact add_le_add_left (h.arrived a ha) _
  · simp only [Watch.data, PairingQueue.pushed_append, PairingQueue.pushed_push]
    intro e he
    rcases List.mem_append.mp he with he | he
    · exact h.deadline e he
    · rw [List.mem_singleton.mp he]
  · intro e he
    simp only [Watch.data, PairingQueue.pushed_append, PairingQueue.pushed_push] at he
    rcases List.mem_append.mp he with he | he
    · exact (h.arrived e he).trans (hclock hreads)
    · rw [List.mem_singleton.mp he]
      exact hclock hreads

theorem timed_run (hclock : Monotone clock) (events : List RxEvent) :
    Timed clock (watch clock events) := by
  induction events using List.reverseRecOn with
  | nil => exact ⟨.nil, fun _ h => (by cases h), fun _ h => (by cases h)⟩
  | append_singleton events e ih =>
    rw [watch_append_singleton]
    cases e with
    | flush =>
      constructor
      · simpa [Watch.step, Watch.flush] using ih.sorted
      · simpa [Watch.step, Watch.flush] using ih.deadline
      · intro e he
        have he : e ∈ pushed (watch clock events).ops := by
          simpa [Watch.step, Watch.flush] using he
        exact (ih.arrived e he).trans (hclock (Nat.le_succ _))
    | frame buffer =>
      simp only [Watch.step]
      split
      · exact ih.data hclock _
      · exact ⟨by simpa [Watch.rxMeta] using ih.sorted, by simpa [Watch.rxMeta] using ih.deadline,
          by simpa [Watch.rxMeta] using ih.arrived⟩
      · exact ih

theorem tracks_receive (clock : ℕ → ℚ) (events : List RxEvent) :
    Tracks (fun k => (rxMetas events)[k]?.getD []) (receive clock events).line
      (watch clock events) :=
  tracks_run clock events fun k p hk => by simp [hk]

/-- Whatever the interleaving of frames and timeouts: the accepted Data frames are delivered in
order and once, and after a timeout check no frame that has waited long enough is left. -/
theorem accepted_delivered_in_order (clock : ℕ → ℚ) (hclock : Monotone clock)
    (events : List RxEvent) :
    let m := receive clock events
    let accepted := (watch clock events).log.accepted.map Prod.fst
    accepted.map DataFrame.payload =
      m.dispatched.map Prod.fst ++ m.pendingRxQueue.map Prod.fst ∧
    m.pendingRxQueue.length ≤ maxPendingRxFrames ∧
    (∀ f ∈ accepted, (dataFrames events)[f.number]? = some f.payload) ∧
    (accepted.map DataFrame.number).Pairwise (· < ·) ∧
    accepted.length + m.frameErrors = (dataFrames events).length ∧
    ∀ before, events = before ++ [.flush] → ∀ i f, accepted[i]? = some f →
      f.arrived ≤ clock (receive clock before).reads - rxMetaWaitSeconds →
      i < m.dispatched.length := by
  intro m accepted
  have htracks := tracks_receive clock events
  have hcounted := counted_run clock events
  have hkept := PairingQueue.kept_run maxPendingRxFrames (watch clock events).ops
  obtain ⟨hsublist, hcount⟩ :=
    PairingQueue.run_accepted maxPendingRxFrames (watch clock events).ops
  have hdispatched : m.dispatched = _ := htracks.dispatched
  have hpending : m.pendingRxQueue = _ := htracks.pending
  refine ⟨?_, ?_, ?_, ?_, ?_, ?_⟩
  · have horder := PairingQueue.run_delivered_append_held maxPendingRxFrames
      (watch clock events).ops
    rw [hdispatched, hpending]
    simpa [accepted, Watch.log, Function.comp_def] using
      congrArg (List.map DataFrame.payload) horder
  · rw [hpending, List.length_map]
    exact hkept.room
  · intro f hf
    obtain ⟨e, he, rfl⟩ := List.mem_map.mp hf
    obtain ⟨j, hj⟩ := List.mem_iff_getElem?.mp (hsublist.subset he)
    have hlt : j < (pushed (watch clock events).ops).length := (List.getElem?_eq_some_iff.mp hj).1
    have hnumber := congrArg (fun xs => xs[j]?) hcounted.pushes
    simp only [List.getElem?_map, hj, Option.map_some, List.getElem?_range hlt,
      Option.some.injEq] at hnumber
    rw [hnumber, ← hcounted.payloads, List.getElem?_map, hj, Option.map_some]
  · have hall : (pushed (watch clock events).ops).Pairwise fun a b => a.1.number < b.1.number := by
      rw [← List.pairwise_map (f := fun e : DataFrame × ℚ => e.1.number), hcounted.pushes]
      exact List.pairwise_lt_range
    simpa only [accepted, Watch.log, List.pairwise_map] using hall.sublist hsublist
  · have herrors : m.frameErrors = _ := htracks.errors
    rw [herrors, ← hcounted.payloads, List.length_map, List.length_map]
    exact hcount
  · rintro before rfl i f hi hwaited
    obtain ⟨e, he, rfl⟩ : ∃ e, (watch clock (before ++ [.flush])).log.accepted[i]? = some e ∧
        e.1 = f := by
      simpa [accepted, List.getElem?_map] using hi
    have hreads : (receive clock before).reads = _ := (tracks_receive clock before).reads
    have htimed := timed_run hclock before
    have hops : (watch clock (before ++ [.flush])).ops =
        (watch clock before).ops ++ [.expire (clock (watch clock before).reads)] := by
      rw [watch_append_singleton]
      rfl
    rw [Watch.log, hops] at he
    have hmem : e ∈ pushed (watch clock before).ops := by
      have hsub := (PairingQueue.run_accepted maxPendingRxFrames
        ((watch clock before).ops ++ [.expire (clock (watch clock before).reads)])).1
      simpa using hsub.subset (List.mem_of_getElem? he)
    rw [hdispatched, List.length_map, Watch.log, hops]
    refine PairingQueue.delivered_of_due htimed.sorted he ?_
    rw [htimed.deadline e hmem, ← hreads]
    linarith

/-- Frames without RxMeta are delivered by the first timeout check a quarter of a second later. -/
theorem accepted_delivered_after_wait :
    1 < (receive (fun n => (n : ℚ))
      [.frame [0x00, 0x41], .frame [0x00, 0x42], .flush]).dispatched.length := by
  have hreads : (receive (fun n => (n : ℚ)) [.frame [0x00, 0x41], .frame [0x00, 0x42]]).reads = 2 :=
    rfl
  refine (accepted_delivered_in_order (fun n => (n : ℚ)) Nat.mono_cast
    [.frame [0x00, 0x41], .frame [0x00, 0x42], .flush]).2.2.2.2.2
    [.frame [0x00, 0x41], .frame [0x00, 0x42]] rfl 1 ⟨1, [0x42], 1⟩ rfl ?_
  rw [hreads, rxMetaWaitSeconds]
  norm_num

/-- What the modem and the timeout checks do. Data frames and RxMeta frames are numbered as they
come, so that the n-th RxMeta belongs to the n-th Data frame. -/
inductive Signal where
  | data (payload : Bytes)
  | rxMeta
  | flush
  deriving DecidableEq

/-- The events, where `k` RxMeta frames came before. -/
def modemEvents (metas : ℕ → Bytes) : ℕ → List Signal → List RxEvent
  | _, [] => []
  | k, .data payload :: signals => .frame (0x00 :: payload) :: modemEvents metas k signals
  | k, .rxMeta :: signals =>
    .frame (0x06 :: hwRespRxMeta :: metas k) :: modemEvents metas (k + 1) signals
  | k, .flush :: signals => .flush :: modemEvents metas k signals

def Signal.isData : Signal → Bool
  | .data _ => true
  | _ => false

/-- One RxMeta after each Data frame, at any later time. -/
def InOrder (signals : List Signal) : Prop :=
  ∀ pre, pre <+: signals → pre.count .rxMeta ≤ pre.countP Signal.isData

/-- Each packet delivered so far, as the Data frame it is and the metrics it carries. -/
def deliveries (clock : ℕ → ℚ) (events : List RxEvent) : List (DataFrame × ℤ × ℚ) :=
  ((watch clock events).log.accepted.map Prod.fst).zip
    ((receive clock events).dispatched.map Prod.snd)

def Watch.signal (clock : ℕ → ℚ) (w : Watch) : Signal → Watch
  | .data payload => w.data clock payload
  | .rxMeta => w.rxMeta
  | .flush => w.flush clock

def signalled (clock : ℕ → ℚ) (signals : List Signal) : Watch :=
  signals.foldl (Watch.signal clock) {}

@[simp] theorem signalled_append_singleton (signals : List Signal) (s : Signal) :
    signalled clock (signals ++ [s]) = (signalled clock signals).signal clock s :=
  List.foldl_append

theorem foldl_modemEvents (metas : ℕ → Bytes) (k : ℕ) (w : Watch) (signals : List Signal) :
    (modemEvents metas k signals).foldl (Watch.step clock) w =
      signals.foldl (Watch.signal clock) w := by
  induction signals generalizing k w with
  | nil => rfl
  | cons s signals ih => cases s <;> exact ih _ _

theorem watch_modemEvents (metas : ℕ → Bytes) (signals : List Signal) :
    watch clock (modemEvents metas 0 signals) = signalled clock signals :=
  foldl_modemEvents metas 0 {} signals

theorem rxMetas_modemEvents (metas : ℕ → Bytes) (k : ℕ) (signals : List Signal) :
    rxMetas (modemEvents metas k signals) =
      (List.range (signals.count .rxMeta)).map fun i => metas (k + i) := by
  induction signals generalizing k with
  | nil => rfl
  | cons s signals ih =>
    cases s with
    | data payload =>
      rw [List.count_cons_of_ne (by simp)]
      exact ih k
    | flush =>
      rw [List.count_cons_of_ne (by simp)]
      exact ih k
    | rxMeta =>
      have hhead : rxMetas (modemEvents metas k (.rxMeta :: signals)) =
          metas k :: rxMetas (modemEvents metas (k + 1) signals) := rfl
      rw [hhead, ih, List.count_cons_self, List.range_succ_eq_map, List.map_cons, List.map_map]
      simp [Function.comp_def, Nat.add_assoc, Nat.add_comm 1]

theorem deliveries_modemEvents (metas : ℕ → Bytes) (signals : List Signal) :
    deliveries clock (modemEvents metas 0 signals) =
      (signalled clock signals).log.delivered.map fun d =>
        (d.1, deliveredMetrics metas d.2) := by
  have htracks : Tracks metas (receive clock (modemEvents metas 0 signals)).line
      (watch clock (modemEvents metas 0 signals)) := by
    refine tracks_run clock _ fun k p hk => ?_
    rw [rxMetas_modemEvents, List.getElem?_map] at hk
    obtain ⟨i, hi, rfl⟩ := Option.map_eq_some_iff.mp hk
    obtain ⟨hlt, rfl⟩ := List.getElem?_eq_some_iff.mp hi
    rw [List.getElem_range, Nat.zero_add]
  have hdispatched : (receive clock (modemEvents metas 0 signals)).dispatched = _ :=
    htracks.dispatched
  have horder := PairingQueue.run_delivered_append_held maxPendingRxFrames
    (watch clock (modemEvents metas 0 signals)).ops
  rw [deliveries, hdispatched, Watch.log, horder, ← watch_modemEvents metas signals, List.map_map,
    ← List.append_nil (List.map (Prod.snd ∘ _) _), List.zip_append (by simp),
    List.zip_nil_right, List.append_nil]
  exact List.zip_map'

/-- Each RxMeta that finds frames pending finds its own Data frame among them. -/
def RxMetaTimely (clock : ℕ → ℚ) (metas : ℕ → Bytes) (signals : List Signal) : Prop :=
  ∀ pre, pre ++ [.rxMeta] <+: signals →
    (receive clock (modemEvents metas 0 pre)).pendingRxQueue = [] ∨
    ∃ e ∈ (watch clock (modemEvents metas 0 pre)).log.held, e.1.number = pre.count .rxMeta

theorem signalled_metas (signals : List Signal) :
    (signalled clock signals).metas = signals.count .rxMeta := by
  rw [← watch_modemEvents fun _ => [], watch_metas, rxMetas_modemEvents, List.length_map,
    List.length_range]

theorem signalled_pushed (signals : List Signal) :
    (pushed (signalled clock signals).ops).length = signals.countP Signal.isData := by
  induction signals using List.reverseRecOn with
  | nil => rfl
  | append_singleton signals s ih =>
    rw [signalled_append_singleton, List.countP_append, ← ih]
    cases s <;> simp [Watch.signal, Watch.data, Watch.rxMeta, Watch.flush, Signal.isData]

theorem signal_ops (clock : ℕ → ℚ) (w : Watch) (s : Signal) :
    ∃ op, (w.signal clock s).ops = w.ops ++ [op] ∧
      ∀ y, op = .pair y ↔ s = .rxMeta ∧ y = w.metas := by
  cases s with
  | data payload => exact ⟨_, rfl, fun y => by simp⟩
  | rxMeta => exact ⟨_, rfl, fun y => by simp [eq_comm]⟩
  | flush => exact ⟨_, rfl, fun y => by simp⟩

theorem paired_le_pushed {signals : List Signal} (horder : InOrder signals) :
    ∀ pre, pre <+: (signalled clock signals).ops → (paired pre).length ≤ (pushed pre).length := by
  induction signals using List.reverseRecOn with
  | nil =>
    intro pre hpre
    rw [List.prefix_nil.mp hpre]
    rfl
  | append_singleton signals s ih =>
    have hbefore := ih fun pre hpre => horder pre (hpre.trans (List.prefix_append _ _))
    have hpairs := (counted_run clock (modemEvents (fun _ => []) 0 (signals ++ [s]))).pairs
    rw [watch_modemEvents] at hpairs
    intro pre hpre
    obtain ⟨op, hops, -⟩ := signal_ops clock (signalled clock signals) s
    rw [signalled_append_singleton, hops] at hpre
    rcases List.prefix_concat_iff.mp hpre with rfl | hpre
    · rw [← hops, ← signalled_append_singleton, hpairs, List.length_range, signalled_metas,
        signalled_pushed]
      exact horder _ List.prefix_rfl
    · exact hbefore pre hpre

theorem numbered_signals (clock : ℕ → ℚ) {signals : List Signal} (horder : InOrder signals) :
    Numbered DataFrame.number id (signalled clock signals).ops := by
  have hcounted := counted_run clock (modemEvents (fun _ => []) 0 signals)
  rw [watch_modemEvents] at hcounted
  refine ⟨hcounted.pushes, ?_, paired_le_pushed horder⟩
  rw [hcounted.pairs, List.map_id, List.length_range]

theorem rxMetaTimely_append_singleton {signals : List Signal} {s : Signal} :
    RxMetaTimely clock metas (signals ++ [s]) ↔
      RxMetaTimely clock metas signals ∧ (s = .rxMeta →
        (receive clock (modemEvents metas 0 signals)).pendingRxQueue = [] ∨
        ∃ e ∈ (watch clock (modemEvents metas 0 signals)).log.held,
          e.1.number = signals.count .rxMeta) := by
  constructor
  · intro h
    refine ⟨fun pre hpre => h pre (hpre.trans (List.prefix_append _ _)), ?_⟩
    rintro rfl
    exact h signals List.prefix_rfl
  · rintro ⟨hbefore, hlast⟩ pre hpre
    rcases PairingQueue.concat_prefix_concat_iff.mp hpre with ⟨rfl, hs⟩ | hpre
    · exact hlast hs.symm
    · exact hbefore pre hpre

theorem timely_signals (metas : ℕ → Bytes) (signals : List Signal) :
    Timely maxPendingRxFrames DataFrame.number id (signalled clock signals).ops ↔
      RxMetaTimely clock metas signals := by
  induction signals using List.reverseRecOn with
  | nil =>
    refine iff_of_true (fun pre y hpre => ?_) (fun pre hpre => ?_)
    · simp [signalled] at hpre
    · simp at hpre
  | append_singleton signals s ih =>
    obtain ⟨op, hops, hpair⟩ := signal_ops clock (signalled clock signals) s
    have hpending : (receive clock (modemEvents metas 0 signals)).pendingRxQueue = [] ↔
        (signalled clock signals).log.held = [] := by
      have h : (receive clock (modemEvents metas 0 signals)).pendingRxQueue = _ :=
        (tracks_receive clock _).pending
      rw [h, List.map_eq_nil_iff, watch_modemEvents]
    rw [signalled_append_singleton, hops, PairingQueue.timely_append_singleton, ih,
      rxMetaTimely_append_singleton, hpending, watch_modemEvents]
    refine and_congr_right fun _ => ?_
    simp only [hpair, signalled_metas, and_imp, id_eq]
    exact ⟨fun h hs => h _ hs rfl, fun h y hs hy => hy ▸ h hs⟩

/-- When the modem sends one RxMeta after each Data frame, in order: each packet carries the
sentinel or its own metrics exactly if every RxMeta that finds frames pending finds its own among
them. -/
theorem own_metrics_iff (clock : ℕ → ℚ) (signals : List Signal) (horder : InOrder signals) :
    (∀ metas, ∀ d ∈ deliveries clock (modemEvents metas 0 signals),
      d.2 = (-999, -999) ∨ d.2 = rxMetrics (metas d.1.number)) ↔
    ∀ metas, RxMetaTimely clock metas signals := by
  have howned := PairingQueue.own_iff_timely maxPendingRxFrames (numbered_signals clock horder)
  constructor
  · intro hown metas
    rw [← timely_signals, ← howned]
    intro f k hmem
    by_contra hne
    have hmem' : (f, rxMetrics [0, 0]) ∈ deliveries clock
        (modemEvents (fun i => if i = k then [0, 0] else [1, 1]) 0 signals) := by
      rw [deliveries_modemEvents]
      exact List.mem_map.mpr ⟨(f, some k), hmem, by simp [deliveredMetrics]⟩
    rcases hown _ _ hmem' with h | h
    · have hzero : (rxMetrics [0, 0]).1 = -999 := congrArg Prod.fst h
      exact absurd hzero (by decide)
    · have hf : f.number ≠ k := hne
      have hzero : (rxMetrics [0, 0]).1 = (rxMetrics [1, 1]).1 := by
        simpa only [hf, if_false] using congrArg Prod.fst h
      exact absurd hzero (by decide)
  · intro htimely metas d hd
    have hown := howned.mpr ((timely_signals metas signals).mpr (htimely metas))
    rw [deliveries_modemEvents] at hd
    obtain ⟨⟨f, value⟩, hmem, rfl⟩ := List.mem_map.mp hd
    cases value with
    | none => exact Or.inl rfl
    | some k =>
      have hk : f.number = k := hown f k hmem
      exact Or.inr (by rw [hk]; rfl)

instance (signals : List Signal) : Decidable (InOrder signals) :=
  decidable_of_iff (∀ pre ∈ signals.inits, pre.count .rxMeta ≤ pre.countP Signal.isData)
    (by simp only [List.mem_inits, InOrder])

/-- Two Data frames, each with its RxMeta without a timeout check in between. -/
theorem own_metrics_prompt :
    let metas : ℕ → Bytes := fun k => if k = 0 then [0x04, 0x9C] else [0x28, 0xC4]
    let signals : List Signal := [.data [0x41], .rxMeta, .data [0x42], .rxMeta]
    InOrder signals ∧ ∀ d ∈ deliveries (fun n => (n : ℚ)) (modemEvents metas 0 signals),
      d.2 = (-999, -999) ∨ d.2 = rxMetrics (metas d.1.number) := by
  have horder : InOrder [.data [0x41], .rxMeta, .data [0x42], .rxMeta] := by decide
  refine ⟨horder, (own_metrics_iff (fun n => (n : ℚ)) _ horder).mpr (fun metas => ?_) _⟩
  have hnone : RxMetaTimely (fun n => (n : ℚ)) metas [] := fun pre hpre => by simp at hpre
  have hdata {signals : List Signal} (h : RxMetaTimely (fun n => (n : ℚ)) metas signals)
      (payload : Bytes) : RxMetaTimely (fun n => (n : ℚ)) metas (signals ++ [.data payload]) :=
    rxMetaTimely_append_singleton.mpr ⟨h, fun h => by cases h⟩
  have hfirst := (@rxMetaTimely_append_singleton _ _ _ .rxMeta).mpr ⟨hdata hnone [0x41], fun _ =>
    Or.inr ⟨(⟨0, [0x41], 0⟩, 0 + rxMetaWaitSeconds), List.mem_singleton.mpr rfl, rfl⟩⟩
  exact rxMetaTimely_append_singleton.mpr ⟨hdata hfirst [0x42], fun _ =>
    Or.inr ⟨(⟨1, [0x42], 1⟩, 1 + rxMetaWaitSeconds), List.mem_singleton.mpr rfl, rfl⟩⟩

/-- A late RxMeta: its packet timed out, and the next packet gets its metrics. -/
theorem metrics_of_other_packet :
    let metas : ℕ → Bytes := fun k => if k = 0 then [0x04, 0x9C] else [0x28, 0xC4]
    let signals : List Signal := [.data [0x41], .flush, .data [0x42], .rxMeta, .rxMeta]
    InOrder signals ∧
    (receive (fun n => (n : ℚ)) (modemEvents metas 0 signals)).dispatched =
      [([0x41], -999, -999), ([0x42], -100, 1)] ∧
    rxMetrics (metas 0) = (-100, 1) ∧ rxMetrics (metas 1) = (-60, 10) := by
  decide +kernel

/-- The rounds of `_rx_worker`, one per read; an empty chunk is a read that timed out. -/
def rxWorker (clock : ℕ → ℚ) (s : ModemState) (chunks : List Bytes) : ModemState :=
  chunks.foldl (fun s chunk =>
    receiveChunk clock { s with rx := flushExpiredRxFrames clock s.rx } chunk) s

/-- The modem sends each packet in a Data frame and its metrics in an RxMeta frame. -/
def packetFrames (packets : List (Bytes × Bytes)) : List (UInt8 × Bytes) :=
  packets.flatMap fun p => [(0x00, p.1), (0x06, hwRespRxMeta :: p.2)]

def frameEvents (packets : List (Bytes × Bytes)) : List DecoderEvent :=
  (packetFrames packets).map fun f => .frame (f.1 :: f.2)

def metaEvent (p : Bytes × Bytes) : DecoderEvent := .frame (0x06 :: hwRespRxMeta :: p.2)

def Delivers (p : Bytes × Bytes) (d : Bytes × ℤ × ℚ) : Prop :=
  d = (p.1, rxMetrics p.2) ∨ d = (p.1, -999, -999)

/-- The receive side while these events are still to come. -/
inductive Phase (packets : List (Bytes × Bytes)) : List DecoderEvent → RxLine → Prop
  | settled {done rest out} (late : Option (Bytes × Bytes)) (n : ℕ) (hall : packets = done ++ rest)
      (hout : List.Forall₂ Delivers done out) :
      Phase packets (late.toList.map metaEvent ++ frameEvents rest) ⟨[], out, 0, true, n⟩
  | pending {done rest out} (p : Bytes × Bytes) (deadline : ℚ) (n : ℕ)
      (hall : packets = done ++ p :: rest) (hout : List.Forall₂ Delivers done out) :
      Phase packets (metaEvent p :: frameEvents rest) ⟨[(p.1, deadline)], out, 0, true, n⟩

variable {packets : List (Bytes × Bytes)} {todo : List DecoderEvent} {m : RxSide}

theorem Phase.flush (h : Phase packets todo m.line) :
    Phase packets todo (flushExpiredRxFrames clock m).line := by
  generalize hr : m.line = r at h
  have hcallback : m.line.hasCallback = true := by rw [hr]; cases h <;> rfl
  rw [flushExpiredRxFrames_line clock m hcallback, hr]
  cases h with
  | settled late n hall hout => simpa [RxLine.flush] using settled late (n + 1) hall hout
  | pending p deadline n hall hout =>
    by_cases hdue : PairingQueue.isDue (clock n) (p.1, deadline) = true
    · have hout' := List.rel_append hout (.cons (.inr rfl : Delivers p _) .nil)
      simpa [RxLine.flush, hdue] using settled (some p) (n + 1) (by simpa using hall) hout'
    · simpa [RxLine.flush, hdue] using pending p deadline (n + 1) hall hout

theorem Phase.event {e : DecoderEvent} (h : Phase packets (e :: todo) m.line) :
    Phase packets todo (handleEvent clock m e).line := by
  have hmeta : ∀ p, (handleEvent clock m (metaEvent p)).line = m.line.rxMeta p.2 :=
    fun p => processReceivedFrame_line clock m _
  have hdata : ∀ data,
      (handleEvent clock m (.frame (0x00 :: data))).line = m.line.data clock data :=
    fun data => processReceivedFrame_line clock m _
  generalize hr : m.line = r, he : e :: todo = events at h
  cases h with
  | pending p deadline n hall hout =>
    obtain ⟨rfl, rfl⟩ := List.cons.inj he
    rw [hmeta, hr]
    have hout' := List.rel_append hout (.cons (.inl rfl : Delivers p _) .nil)
    exact settled none n (by simpa using hall) hout'
  | @settled done rest _ late n hall hout =>
    cases late with
    | some p =>
      obtain ⟨rfl, rfl⟩ := List.cons.inj he
      rw [hmeta, hr]
      exact settled none n hall hout
    | none =>
      cases rest with
      | nil => cases he
      | cons p rest =>
        obtain ⟨rfl, rfl⟩ := List.cons.inj he
        rw [hdata, hr]
        exact pending p _ _ hall hout

theorem Phase.events {es : List DecoderEvent} (h : Phase packets (es ++ todo) m.line) :
    Phase packets todo (es.foldl (handleEvent clock) m).line := by
  induction es generalizing m with
  | nil => exact h
  | cons e es ih => exact ih h.event

theorem Phase.rounds {s : ModemState} {chunks : List Bytes}
    (h : Phase packets (Stream.feed decodeKiss s.decoder chunks).1 s.rx.line) :
    Phase packets [] (rxWorker clock s chunks).rx.line := by
  induction chunks generalizing s with
  | nil => exact h
  | cons c cs ih => exact ih h.flush.events

theorem Phase.finished (h : Phase packets [] r) :
    List.Forall₂ Delivers packets r.dispatched ∧ r.pendingRxQueue = [] ∧ r.frameErrors = 0 := by
  generalize he : [] = todo at h
  cases h with
  | pending => cases he
  | @settled done rest _ late n hall hout =>
    cases late <;> cases rest <;> cases he
    rw [hall, List.append_nil]
    exact ⟨hout, rfl, rfl⟩

/-- However the serial port cuts the bytes and whatever the clock reads, every packet of the modem
reaches the callback once and in order; nothing stays pending and no error is counted. -/
theorem rxWorker_delivers (clock : ℕ → ℚ) (packets : List (Bytes × Bytes)) (chunks : List Bytes)
    (hfit : ∀ f ∈ packetFrames packets, 1 + f.2.length ≤ maxFrameSize)
    (hchunks : chunks.flatten =
      ((packetFrames packets).map fun f => encodeKissFrame f.1 f.2).flatten) :
    let rx := (rxWorker clock {} chunks).rx
    List.Forall₂ Delivers packets rx.dispatched ∧ rx.pendingRxQueue = [] ∧ rx.frameErrors = 0 := by
  have hframes : ∀ f ∈ packetFrames packets, f.1.toNat ≤ 15 ∧ 1 + f.2.length ≤ maxFrameSize := by
    refine fun f hf => ⟨?_, hfit f hf⟩
    obtain ⟨p, -, hp⟩ := List.mem_flatMap.mp hf
    rcases List.mem_pair.mp hp with rfl | rfl <;> exact Nat.le_of_ble_eq_true rfl
  have hstart : Phase packets (Stream.feed decodeKiss {} chunks).1 ({} : RxSide).line := by
    rw [decodeKiss, feed_decodeKiss, hchunks, (mealy_frames hframes rfl rfl).1]
    exact .settled none 0 rfl .nil
  exact (Phase.rounds (s := {}) hstart).finished

theorem rxWorker_delivers_cut :
    let rx := (rxWorker (fun _ => 0) {} [[0xC0, 0, 5], [], [0xC0, 0xC0, 6, 0xF9, 4],
      [0x9C, 0xC0, 0xC0, 0, 7, 8, 0xC0, 0xC0, 6, 0xF9, 0x28, 0xC4, 0xC0]]).rx
    List.Forall₂ Delivers [([5], [4, 0x9C]), ([7, 8], [0x28, 0xC4])] rx.dispatched ∧
      rx.pendingRxQueue = [] ∧ rx.frameErrors = 0 :=
  rxWorker_delivers _ [([5], [4, 0x9C]), ([7, 8], [0x28, 0xC4])] _ (by decide) (by decide)

end OpenHop.Kiss.KissModemWrapper
