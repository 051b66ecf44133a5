import OpenHop.Hardware.KissCommands

/-! # Confirmed transmits

`send_frame_and_wait` queues a Data frame under the transmit lock and waits for TX_DONE.
The frame is written by the TX worker, and TX_DONE carries no frame id: the receive thread
stores its status and sets an event, for whichever call then waits.
-/

namespace OpenHop.Kiss.KissModemWrapper

open Machine

def kissMaxPacketSize : ℕ := 255
def txBufferSize : ℕ := 1024

/-- Why a Data frame is not confirmed. -/
inductive TxReason
  | shuttingDown
  | linkDownOrReconnecting
  | notWritten
  | linkLost
  | statusZero
  | aborted
  | busyNoTxDone
  | noTxDone
  deriving DecidableEq

abbrev TxVerdict := Bool × Option TxReason

def verdict (reason : TxReason) : TxVerdict := (false, some reason)

def resolveTxDone : Option Bool → TxVerdict
  | some true => (true, none)
  | some false => verdict .statusZero
  | none => verdict .aborted

def Link.refusal (link : Link) (inReconnectThread : Bool) : Option TxReason :=
  if link.shuttingDown then some .shuttingDown
  else if (link.reconnecting || link.degraded) && !inReconnectThread then
    some .linkDownOrReconnecting
  else none

/-- Where the holder of the transmit lock is. `locked` has cleared the event, `begun` also the
result. -/
inductive TxPhase
  | free
  | locked (data : Bytes)
  | begun (call : ℕ) (data : Bytes)
  | waiting (call : ℕ)

/-- The wrapper with its modem. `txHand` is the frame that the TX worker writes; `raising` is set
between the two statements by which the receive thread handles TX_DONE. -/
structure Transmits where
  rx : RxSide := {}
  raising : Bool := false
  calls : ℕ := 0
  phase : TxPhase := .free
  txBuffer : List (ℕ × Bytes) := []
  txHand : Option (ℕ × Bytes) := none
  wire : List (ℕ × Bytes) := []
  inbox : List ℕ := []
  received : List ℕ := []
  answered : List (ℕ × Bytes) := []
  returned : List (ℕ × TxVerdict) := []

inductive TxAction
  | refuse (link : Link) (inReconnectThread : Bool)
  | acquire (link : Link) (inReconnectThread : Bool) (data : Bytes)
  | clear
  | sendFrame (isConnected : Bool)
  | pop
  | write
  /-- A failed write may still have put the frame on the wire. -/
  | writeFails (written : Bool)
  | lose
  | reach
  | txDone (payload : Bytes)
  | raise
  | otherFrame (buffer : Bytes)
  /-- The link is marked as failed, or the wrapper is cleaned up. -/
  | abort
  | resolve
  | giveUp (reason : TxReason)

def storeTxDone (m : RxSide) : Bytes → RxSide
  | result :: _ => { m with txDoneResult := some (result == 0x01), txPackets := m.txPackets + 1 }
  | [] => m

def raiseTxDone (m : RxSide) : RxSide := { m with txDoneEvent := true }

theorem processReceivedFrame_txDone (clock : ℕ → ℚ) (m : RxSide) (payload : Bytes) :
    processReceivedFrame clock m (UInt8.ofNat kissCmdSetHardware :: hwRespTxDone :: payload) =
      raiseTxDone (storeTxDone (countFrame m (hwRespTxDone :: payload)) payload) := by
  cases payload <;> rfl

def isTxDone : Bytes → Bool
  | typeByte :: subCmd :: _ =>
    (typeByte.toNat >>> 4) &&& 0x0F = 0 ∧ typeByte.toNat &&& 0x0F = kissCmdSetHardware ∧
      subCmd = hwRespTxDone
  | _ => false

/-- The frame that `send_frame` queues, unless it refuses the data. -/
def sendFrame (isConnected : Bool) (txBuffer : List (ℕ × Bytes)) (data : Bytes) : Option Bytes :=
  if !isConnected then none
  else if data.length < 2 ∨ data.length > kissMaxPacketSize then none
  else if txBuffer.length < txBufferSize then some (encodeKissFrame (UInt8.ofNat cmdData) data)
  else none

namespace Transmits

def finish (s : Transmits) (call : ℕ) (v : TxVerdict) : Transmits :=
  { s with phase := .free, returned := s.returned ++ [(call, v)] }

def mayGiveUp (s : Transmits) : TxReason → Bool
  | .shuttingDown | .linkLost => true
  | .busyNoTxDone => s.rx.txBusySeen
  | .noTxDone => !s.rx.txBusySeen
  | _ => false

/-- One step of one of the threads, of the wire or of the modem, which completes the frames it has
received in order. -/
def step (clock : ℕ → ℚ) (s : Transmits) : TxAction → Option Transmits
  | .refuse link inReconnectThread =>
    (link.refusal inReconnectThread).map fun reason =>
      { s with calls := s.calls + 1, returned := s.returned ++ [(s.calls, verdict reason)] }
  | .acquire link inReconnectThread data =>
    match s.phase, link.refusal inReconnectThread with
    | .free, none => some { s with
        rx := { s.rx with txDoneEvent := false }, phase := .locked data }
    | _, _ => none
  | .clear =>
    match s.phase with
    | .locked data => some { s with
        rx := { s.rx with txDoneResult := none, txBusySeen := false }
        calls := s.calls + 1
        phase := .begun s.calls data }
    | _ => none
  | .sendFrame isConnected =>
    match s.phase with
    | .begun call data =>
      match KissModemWrapper.sendFrame isConnected s.txBuffer data with
      | some frame => some { s with
          phase := .waiting call, txBuffer := s.txBuffer ++ [(call, frame)] }
      | none => some (s.finish call (verdict .notWritten))
    | _ => none
  | .pop =>
    match s.txHand, s.txBuffer with
    | none, frame :: txBuffer => some { s with txHand := some frame, txBuffer }
    | _, _ => none
  | .write =>
    match s.txHand with
    | some frame => some { s with txHand := none, wire := s.wire ++ [frame] }
    | none => none
  | .writeFails written =>
    match s.txHand with
    | some frame => some { s with
        rx := raiseTxDone s.rx
        txHand := none
        wire := s.wire ++ if written then [frame] else [] }
    | none => none
  | .lose => some { s with wire := s.wire.tail }
  | .reach =>
    match s.wire with
    | (call, _) :: wire =>
      some { s with wire, inbox := s.inbox ++ [call], received := s.received ++ [call] }
    | [] => none
  | .txDone payload =>
    match s.raising, s.inbox with
    | false, call :: inbox => some { s with
        rx := storeTxDone (countFrame s.rx (hwRespTxDone :: payload)) payload
        raising := true
        inbox
        answered := s.answered ++ [(call, payload)] }
    | _, _ => none
  | .raise =>
    if s.raising then some { s with rx := raiseTxDone s.rx, raising := false } else none
  | .otherFrame buffer =>
    if s.raising || isTxDone buffer then none
    else some { s with rx := processReceivedFrame clock s.rx buffer }
  | .abort => some { s with rx := raiseTxDone s.rx }
  | .resolve =>
    match s.phase with
    | .waiting call =>
      if s.rx.txDoneEvent then some (s.finish call (resolveTxDone s.rx.txDoneResult)) else none
    | _ => none
  | .giveUp reason =>
    match s.phase with
    | .waiting call => if s.mayGiveUp reason then some (s.finish call (verdict reason)) else none
    | _ => none

end Transmits

theorem processResponse_txDoneResult (m : RxSide) (subCmd : UInt8) (payload : Bytes) :
    (processResponse m subCmd payload).txDoneResult = m.txDoneResult := by
  unfold processResponse
  split <;> rfl

theorem processRxMeta_txDoneResult (m : RxSide) (payload : Bytes) :
    (processRxMeta m payload).txDoneResult = m.txDoneResult := by
  rcases payload with _ | ⟨a, _ | ⟨b, payload⟩⟩ <;> unfold processRxMeta <;> dsimp only <;>
    split <;> rfl

theorem processError_txDoneResult (m : RxSide) (payload : Bytes) :
    (processError m payload).txDoneResult = m.txDoneResult := by
  unfold processError
  dsimp only
  split
  · split <;> rfl
  · rw [processResponse_txDoneResult]
    split <;> rfl

theorem processSetHardware_txDoneResult (m : RxSide) {subCmd : UInt8} (payload : Bytes)
    (h : subCmd ≠ hwRespTxDone) :
    (processSetHardware m (subCmd :: payload)).txDoneResult = m.txDoneResult := by
  simp only [processSetHardware]
  split
  · exact processRxMeta_txDoneResult m payload
  · split
    · exact processError_txDoneResult m payload
    · exact processResponse_txDoneResult m subCmd payload

theorem processReceivedFrame_txDoneResult (clock : ℕ → ℚ) (m : RxSide) {buffer : Bytes}
    (h : ¬isTxDone buffer) :
    (processReceivedFrame clock m buffer).txDoneResult = m.txDoneResult := by
  apply processReceivedFrame_induction (motive := fun m' => m'.txDoneResult = m.txDoneResult)
  case ignored => rfl
  case counted => exact fun body => rfl
  case data =>
    intro body
    unfold processData
    split <;> rfl
  case setHardware =>
    rintro typeByte subCmd payload rfl hport hcmd
    refine processSetHardware_txDoneResult (countFrame m (subCmd :: payload)) payload ?_
    simpa [isTxDone, hport, hcmd] using h

def TxPhase.holder : TxPhase → Option ℕ
  | .begun call _ | .waiting call => some call
  | .free | .locked _ => none

def TxPhase.unqueued : TxPhase → List ℕ
  | .begun call _ => [call]
  | _ => []

/-- The status of the TX_DONE that the verdict is based on. -/
def TxVerdict.status : TxVerdict → Option Bool
  | (true, _) => some true
  | (false, some .statusZero) => some false
  | (false, _) => none

theorem status_resolveTxDone (result : Option Bool) :
    TxVerdict.status (resolveTxDone result) = result := by
  rcases result with _ | _ | _ <;> rfl

/-- TX_DONE confirms a transmit by status 0x01. -/
def confirms (payload : Bytes) : Bool := payload.head? == some 0x01

theorem storeTxDone_txDoneResult (m : RxSide) (payload : Bytes) :
    (storeTxDone m payload).txDoneResult = m.txDoneResult ∨
      (storeTxDone m payload).txDoneResult = some (confirms payload) := by
  cases payload with
  | nil => exact Or.inl rfl
  | cons result payload => exact Or.inr rfl

namespace Transmits

variable {clock : ℕ → ℚ} {s t : Transmits} {a : TxAction}

def exchange (s : Transmits) : Exchange Bool where
  calls := s.calls
  holder := s.phase.holder
  onWay := (s.wire ++ s.txHand.toList ++ s.txBuffer).map Prod.fst ++ s.phase.unqueued
  outstanding := s.inbox
  slot := s.rx.txDoneResult
  received := s.received
  answered := s.answered.map (Prod.map id confirms)
  returned := s.returned.map (Prod.map id TxVerdict.status)

/-- A TX_DONE is taken by whichever call waits. -/
abbrev Step : Exchange Bool → Exchange Bool → Prop := Exchange.Step fun _ _ => True

theorem exchange_finish {call : ℕ} {v : TxVerdict} (hphase : s.phase = .waiting call)
    (h : v.status = none ∨ v.status = s.rx.txDoneResult) :
    Step s.exchange (s.finish call v).exchange := by
  have hfinish : Step s.exchange _ :=
    .finish (i := call) (v := v.status) (by simp [exchange, hphase, TxPhase.holder]) h
  simpa [exchange, finish, hphase, TxPhase.holder, TxPhase.unqueued] using hfinish

theorem status_of_refusal {link : Link} {inReconnectThread : Bool} {reason : TxReason}
    (h : link.refusal inReconnectThread = some reason) :
    TxVerdict.status (verdict reason) = none := by
  unfold Link.refusal at h
  split_ifs at h <;> cases h <;> rfl

theorem status_of_mayGiveUp {reason : TxReason} (h : s.mayGiveUp reason) :
    TxVerdict.status (verdict reason) = none := by
  cases reason <;> first | rfl | cases h

theorem exchange_clear {data : Bytes} (hphase : s.phase = .locked data) :
    Step s.exchange { s with
      rx := { s.rx with txDoneResult := none, txBusySeen := false }
      calls := s.calls + 1
      phase := .begun s.calls data }.exchange := by
  have hstart : Step s.exchange _ :=
    .start (by simp [exchange, hphase, TxPhase.holder])
  simpa [exchange, hphase, TxPhase.unqueued, TxPhase.holder] using hstart

/-- A frame that `send_frame` refuses is lost, and its call returns. -/
theorem exchange_notWritten {call : ℕ} {data : Bytes} (hphase : s.phase = .begun call data) :
    Relation.ReflTransGen Step s.exchange
      (s.finish call (verdict .notWritten)).exchange := by
  have hgiveUp : Relation.ReflTransGen Step s.exchange _ :=
    Exchange.steps_giveUp (i := call) ((s.wire ++ s.txHand.toList ++ s.txBuffer).map Prod.fst)
      (by simp [exchange, hphase, TxPhase.holder]) (List.sublist_append_left _ _)
  simpa [exchange, finish, TxPhase.holder, TxPhase.unqueued, verdict, TxVerdict.status]
    using hgiveUp

theorem exchange_txDone {call : ℕ} {inbox : List ℕ} (hinbox : s.inbox = call :: inbox)
    (payload : Bytes) :
    Step s.exchange { s with
      rx := storeTxDone (countFrame s.rx (hwRespTxDone :: payload)) payload
      raising := true
      inbox
      answered := s.answered ++ [(call, payload)] }.exchange := by
  have hstored := storeTxDone_txDoneResult (countFrame s.rx (hwRespTxDone :: payload)) payload
  have hanswer : Step s.exchange _ :=
    .answer hinbox (hstored.imp_right fun h => ⟨h, fun _ _ => trivial⟩)
  simpa [exchange] using hanswer

theorem exchange_step (h : step clock s a = some t) :
    Relation.ReflTransGen Step s.exchange t.exchange := by
  cases a with
  | refuse link inReconnectThread =>
    simp only [step, Option.map_eq_some_iff] at h
    obtain ⟨reason, hreason, rfl⟩ := h
    have hrefuse : Step s.exchange _ := .refuse
    refine .single ?_
    simpa [exchange, status_of_refusal hreason] using hrefuse
  | acquire link inReconnectThread data =>
    simp only [step] at h
    split at h
    · rename_i hphase _
      cases h
      simp only [exchange, hphase]
      exact .refl
    · cases h
  | clear =>
    simp only [step] at h
    split at h
    · rename_i data hphase
      cases h
      exact .single (exchange_clear hphase)
    · cases h
  | sendFrame isConnected =>
    simp only [step] at h
    split at h
    · rename_i call data hphase
      split at h
      · cases h
        simp only [exchange, hphase, TxPhase.holder, TxPhase.unqueued, List.map_append,
          List.map_cons, List.map_nil, List.append_nil, List.append_assoc]
        exact .refl
      · cases h
        exact exchange_notWritten hphase
    · cases h
  | pop =>
    simp only [step] at h
    split at h
    · rename_i frame txBuffer hhand hbuffer
      cases h
      simp only [exchange, hhand, hbuffer, Option.toList, List.map_append, List.map_cons,
        List.append_nil, List.append_assoc, List.nil_append, List.cons_append]
      exact .refl
    · cases h
  | write =>
    simp only [step] at h
    split at h
    · rename_i frame hhand
      cases h
      simp only [exchange, hhand, Option.toList, List.append_nil]
      exact .refl
    · cases h
  | writeFails written =>
    simp only [step] at h
    split at h
    · rename_i frame hhand
      cases h
      refine .single (.lose ?_)
      cases written
      · simp [exchange, hhand]
      · simp [exchange, hhand]
    · cases h
  | lose =>
    cases h
    refine .single (.lose ?_)
    simp only [exchange, List.append_assoc, List.map_append]
    exact ((List.tail_sublist s.wire).map Prod.fst).append_right _
  | reach =>
    simp only [step] at h
    split at h
    · rename_i call frame wire hwire
      cases h
      exact .single (.receive (by simp [exchange, hwire]))
    · cases h
  | txDone payload =>
    simp only [step] at h
    split at h
    · rename_i call inbox hraising hinbox
      cases h
      exact .single (exchange_txDone hinbox payload)
    · cases h
  | raise =>
    simp only [step, Option.ite_none_right_eq_some, Option.some.injEq] at h
    obtain ⟨-, rfl⟩ := h
    exact .refl
  | otherFrame buffer =>
    simp only [step, Option.ite_none_left_eq_some, Option.some.injEq, Bool.or_eq_true,
      not_or] at h
    obtain ⟨⟨-, hother⟩, rfl⟩ := h
    simp only [exchange, processReceivedFrame_txDoneResult clock s.rx hother]
    exact .refl
  | abort =>
    cases h
    exact .refl
  | resolve =>
    simp only [step] at h
    split at h
    · rename_i call hphase
      simp only [Option.ite_none_right_eq_some, Option.some.injEq] at h
      obtain ⟨-, rfl⟩ := h
      exact .single (exchange_finish hphase (Or.inr (status_resolveTxDone _)))
    · cases h
  | giveUp reason =>
    simp only [step] at h
    split at h
    · rename_i call hphase
      simp only [Option.ite_none_right_eq_some, Option.some.injEq] at h
      obtain ⟨hreason, rfl⟩ := h
      exact .single (exchange_finish hphase (Or.inl (status_of_mayGiveUp hreason)))
    · cases h

theorem exchange_run {actions : List TxAction} (h : run (step clock) {} actions = some s) :
    s.exchange.Reachable fun _ _ => True :=
  run_invariant (fun _ _ _ hs hstep => Relation.ReflTransGen.trans hs (exchange_step hstep))
    (I := fun s => s.exchange.Reachable fun _ _ => True) Relation.ReflTransGen.refl h

/-- In every interleaving in which the modem completes no frame whose call returns without the
status of a TX_DONE, a call that returns true was completed by the TX_DONE of its own frame, and
that has status 0x01. -/
theorem sendFrameAndWait_own_txDone (clock : ℕ → ℚ) (actions : List TxAction) (s : Transmits)
    (hrun : run (step clock) {} actions = some s)
    (hkept : ∀ r ∈ s.returned, r.2.status = none → ∀ answer ∈ s.answered, answer.1 ≠ r.1) :
    ∀ call reason, (call, (true, reason)) ∈ s.returned →
      ∃ payload, (call, payload) ∈ s.answered ∧ payload.head? = some 0x01 := by
  intro call reason hmem
  have hexchange : s.exchange.Kept fun _ _ => True := by
    intro i result hnone hanswer
    obtain ⟨⟨j, v⟩, hv, heq⟩ := List.mem_map.mp hnone
    obtain ⟨rfl, hstatus⟩ := Prod.mk.inj heq
    obtain ⟨answer, hanswer, heq⟩ := List.mem_map.mp hanswer
    exact absurd (congrArg Prod.fst heq) (hkept (j, v) hv hstatus answer hanswer)
  have hown := ((exchange_run hrun).sound hexchange).own call true
    (List.mem_map.mpr ⟨_, hmem, rfl⟩)
  obtain ⟨⟨j, payload⟩, hpayload, heq⟩ := List.mem_map.mp hown
  obtain ⟨rfl, hconfirms⟩ := Prod.mk.inj heq
  exact ⟨payload, hpayload, eq_of_beq hconfirms⟩

/-- The first frame is lost on the wire, and its call times out before the second one is sent. -/
theorem sendFrameAndWait_own_txDone_sent :
    ∃ s, run (step fun _ => 0) {} [.acquire {} false [0x15, 0x00], .clear, .sendFrame true, .pop,
        .write, .lose, .giveUp .noTxDone, .acquire {} false [0x15, 0x01], .clear, .sendFrame true,
        .pop, .write, .reach, .txDone [0x01], .raise, .resolve] = some s ∧
      (0, verdict .noTxDone) ∈ s.returned ∧ (1, (true, none)) ∈ s.returned ∧
      ∃ payload, (1, payload) ∈ s.answered ∧ payload.head? = some 0x01 :=
  ⟨_, rfl, by decide, by decide, sendFrameAndWait_own_txDone (fun _ => 0)
    [.acquire {} false [0x15, 0x00], .clear, .sendFrame true, .pop, .write, .lose,
      .giveUp .noTxDone, .acquire {} false [0x15, 0x01], .clear, .sendFrame true, .pop, .write,
      .reach, .txDone [0x01], .raise, .resolve] _ rfl (by decide) 1 none (by decide)⟩

/-- The first frame is sent after its call has timed out. Its TX_DONE confirms the second frame,
which the TX worker has not even taken from the buffer. -/
theorem late_txDone_confirms :
    ∃ s, run (step fun _ => 0) {} [.acquire {} false [0x15, 0x00], .clear, .sendFrame true, .pop,
        .write, .reach, .giveUp .noTxDone, .acquire {} false [0x15, 0x01], .clear,
        .sendFrame true, .txDone [0x01], .raise, .resolve] = some s ∧
      (1, (true, none)) ∈ s.returned ∧ s.answered = [(0, [0x01])] ∧ s.received = [0] :=
  ⟨_, rfl, by decide, rfl, rfl⟩

end Transmits

end OpenHop.Kiss.KissModemWrapper
