import OpenHop.Node.AckRegistry
import OpenHop.Node.SendPacket
import OpenHop.Protocol.PacketFilter

/-! # Sending a packet and waiting for its acknowledgement

Once the radio has confirmed a transmission the dispatcher pays for its airtime and, where
the caller asked for it, registers a waiter and waits off the transmit lock.
-/

namespace OpenHop

def Packet.getCrc (sha256 : Bytes → Bytes) (p : Packet) : Except PacketError ℕ := do
  let packetHash ← p.calculatePacketHash sha256
  return Bytes.toNatLE (packetHash.take 4)

theorem Packet.Writable.exists_getCrc {p : Packet} (h : p.Writable) (sha256 : Bytes → Bytes) :
    ∃ crc, p.getCrc sha256 = .ok crc := by
  obtain ⟨packetHash, hhash⟩ := h.exists_packetHash sha256
  exact ⟨Bytes.toNatLE (packetHash.take 4), by rw [getCrc, hhash]; rfl⟩

/-- What a caller of `send_packet` asks for besides the packet. -/
structure SendOptions where
  waitForAck : Bool := true
  expectedCrc : Option ℕ := none
  radioId : Option RadioId := none

def SendOptions.waits (o : SendOptions) (p : Packet) : Bool :=
  !(p.getPayloadType == payloadTypeAdvert || p.getPayloadType == payloadTypeAck || !o.waitForAck)

def SendOptions.ackCrc (o : SendOptions) (sha256 : Bytes → Bytes) (p : Packet) :
    Except PacketError ℕ :=
  match o.expectedCrc with
  | some crc => .ok crc
  | none => p.getCrc sha256

/-- What of the dispatcher a send depends on. -/
structure Sender where
  config : DispatcherConfig := {}
  port : RadioPort
  behaviour : RadioBehaviour
  callbackRaises : Bool := false
  clientRepeatEnabled : Bool := false

/-- How the part of a send under the transmit lock ends. -/
inductive LockedEnd where
  | ended (outcome : SendOutcome)
  | waiting (ackEvent ackCrc : ℕ)

/-- A send with its effects: the calls of the radio, the airtime paid for, the registry. -/
structure AckRun where
  calls : List SendCall := []
  outcome : SendOutcome
  debited : Bool := false
  acks : AckSystem

/-- Anything but an exception and `None` confirms the transmission. -/
def SendResult.confirms : SendResult → Bool
  | .raised _ | .nothing => false
  | _ => true

namespace Sender

variable {Seed : Type} (c : Crypto Seed) (s : Sender)

/-- `_transmit_locked` after `radio.send` has come to `result`. -/
def afterSend (o : SendOptions) (p : Packet) (acks : AckSystem) (result : SendResult) :
    LockedEnd × AckSystem :=
  match result.outcome s.callbackRaises with
  | .returned true =>
    if o.waits p then
      match o.ackCrc c.sha256 p with
      | .error _ => (.ended .raised, acks)
      | .ok crc => (.waiting acks.registry.events.length crc, acks.step (.expectAck crc))
    else (.ended (.returned true), acks)
  | outcome => (.ended outcome, acks)

/-- The wait for the acknowledgement, while other tasks do `during` to the registry. -/
def awaitAck (during : List AckAction) : LockedEnd × AckSystem → SendOutcome × AckSystem
  | (.ended outcome, acks) => (outcome, acks)
  | (.waiting ackEvent _, acks) =>
    let acks := during.foldl AckSystem.step acks
    (.returned (acks.registry.events[ackEvent]? == some true), acks.step (.exit ackEvent))

/-- `send_packet`; what `during` holds happens between the registration of the waiter and the
end of its wait. -/
def sendPacket (packet : Packet) (o : SendOptions) (acks : AckSystem) (during : List AckAction) :
    AckRun :=
  if packet.isRouteFlood ∧ packet.getPayloadType = payloadTypeTrace then
    { outcome := .returned false, acks }
  else
    match s.config.outgoing c packet with
    | none => { outcome := .raised, acks }
    | some p =>
      match p.writeTo with
      | .error _ => { outcome := .raised, acks }
      | .ok raw =>
        let (calls, result) := transmit s.port s.behaviour raw o.radioId
        let (outcome, acks) := awaitAck during (s.afterSend c o p acks result)
        { calls, outcome, debited := s.clientRepeatEnabled && result.confirms, acks }

theorem outcome_of_not_confirms {result : SendResult} (h : result.confirms = false)
    (callbackRaises : Bool) : result.outcome callbackRaises ≠ .returned true := by
  cases result with
  | raised e => exact SendResult.outcome_raised_ne_true e callbackRaises
  | nothing => nofun
  | _ => cases h

theorem outcome_of_confirms {result : SendResult} (h : result.confirms = true) :
    result.outcome false = .returned true := by
  cases result with
  | raised e => cases h
  | nothing => cases h
  | _ => rfl

variable {c s} {packet p : Packet} {o : SendOptions} {acks : AckSystem} {during : List AckAction}
  {raw : Bytes} {result : SendResult}

theorem afterSend_of_not_confirms (h : result.confirms = false) :
    s.afterSend c o p acks result = (.ended (result.outcome s.callbackRaises), acks) := by
  have hne := outcome_of_not_confirms h s.callbackRaises
  unfold afterSend
  split
  · rename_i htrue
    exact absurd htrue hne
  · rfl

theorem afterSend_of_not_waits (h : result.confirms = true) (hcallback : s.callbackRaises = false)
    (hwaits : o.waits p = false) :
    s.afterSend c o p acks result = (.ended (.returned true), acks) := by
  unfold afterSend
  rw [hcallback, outcome_of_confirms h, hwaits]
  rfl

theorem afterSend_of_waits {crc : ℕ} (h : result.confirms = true)
    (hcallback : s.callbackRaises = false) (hwaits : o.waits p = true)
    (hcrc : o.ackCrc c.sha256 p = .ok crc) :
    s.afterSend c o p acks result =
      (.waiting acks.registry.events.length crc, acks.step (.expectAck crc)) := by
  unfold afterSend
  rw [hcallback, outcome_of_confirms h, hwaits, hcrc]
  rfl

theorem sendPacket_eq (hroute : ¬ (packet.isRouteFlood ∧ packet.getPayloadType = payloadTypeTrace))
    (hout : s.config.outgoing c packet = some p) (hwrite : p.writeTo = .ok raw) :
    s.sendPacket c packet o acks during =
      { calls := (transmit s.port s.behaviour raw o.radioId).1
        outcome := (awaitAck during (s.afterSend c o p acks
          (transmit s.port s.behaviour raw o.radioId).2)).1
        debited := s.clientRepeatEnabled && (transmit s.port s.behaviour raw o.radioId).2.confirms
        acks := (awaitAck during (s.afterSend c o p acks
          (transmit s.port s.behaviour raw o.radioId).2)).2 } := by
  unfold sendPacket
  rw [if_neg hroute, hout]
  dsimp only
  rw [hwrite]

theorem sendPacket_of_not_waitForAck (h : o.waitForAck = false) :
    (s.sendPacket c packet o acks during).calls =
        (OpenHop.sendPacket c s.config s.port s.behaviour packet o.radioId s.callbackRaises).calls ∧
      (s.sendPacket c packet o acks during).outcome =
        (OpenHop.sendPacket c s.config s.port s.behaviour packet o.radioId
          s.callbackRaises).outcome := by
  have hwaits : ∀ p, o.waits p = false := fun p => by simp [SendOptions.waits, h]
  have hend : ∀ p result, awaitAck during (s.afterSend c o p acks result) =
      (result.outcome s.callbackRaises, acks) := by
    intro p result
    unfold afterSend
    cases hresult : result.outcome s.callbackRaises with
    | returned sent => cases sent <;> simp [hwaits, awaitAck]
    | raised => rfl
    | cancelled => rfl
  unfold sendPacket OpenHop.sendPacket DispatcherConfig.wire
  split
  · exact ⟨rfl, rfl⟩
  cases hout : s.config.outgoing c packet with
  | none => exact ⟨rfl, rfl⟩
  | some p =>
    dsimp only [Option.bind_some]
    cases hwrite : p.writeTo with
    | error e => exact ⟨rfl, rfl⟩
    | ok raw =>
      refine ⟨rfl, ?_⟩
      dsimp only [Except.toOption]
      rw [hend]

def awaitedCrc (c : Crypto Seed) (s : Sender) (packet : Packet) (o : SendOptions) : Option ℕ :=
  (s.config.outgoing c packet).bind fun p =>
    if o.waits p then (o.ackCrc c.sha256 p).toOption else none

/-- A send that does not wait returns `True`, and so does one whose acknowledgement comes during
the wait. -/
structure CountsAsSent (c : Crypto Seed) (s : Sender) (packet : Packet) (o : SendOptions)
    (during : List AckAction) (run : AckRun) : Prop where
  sent : s.awaitedCrc c packet o = none → run.outcome = .returned true
  acked : ∀ crc ts, s.awaitedCrc c packet o = some crc → .ackReceived crc ts ∈ during →
    run.outcome = .returned true

/-- Where a call does not return `True`, only a wait in vain is as it should be. -/
theorem countsAsSent_iff_of_ne {run : AckRun} (h : run.outcome ≠ .returned true) :
    s.CountsAsSent c packet o during run ↔
      ∃ crc, s.awaitedCrc c packet o = some crc ∧ ∀ ts, .ackReceived crc ts ∉ during := by
  constructor
  · intro hcounts
    cases hcrc : s.awaitedCrc c packet o with
    | none => exact absurd (hcounts.sent hcrc) h
    | some crc => exact ⟨crc, rfl, fun ts hack => h (hcounts.acked crc ts hcrc hack)⟩
  · rintro ⟨crc, hcrc, hnone⟩
    refine ⟨fun hnot => ?_, fun crc' ts hcrc' hack => ?_⟩
    · cases hnot.symm.trans hcrc
    · cases hcrc.symm.trans hcrc'
      exact absurd hack (hnone ts)

theorem ackCrc_of_writable (hp : p.Writable) : ∃ crc, o.ackCrc c.sha256 p = .ok crc := by
  unfold SendOptions.ackCrc
  cases o.expectedCrc with
  | some crc => exact ⟨crc, rfl⟩
  | none => exact hp.exists_getCrc c.sha256

/-- Over a radio that confirms the transmission every packet counts as sent: the waiter is
registered before the lock is released, and only this call gives it up. -/
theorem countsAsSent_of_confirms {before : List AckAction}
    (hroute : ¬ (packet.isRouteFlood ∧ packet.getPayloadType = payloadTypeTrace))
    (hout : s.config.outgoing c packet = some p) (hwrite : p.writeTo = .ok raw)
    (hconfirms : (transmit s.port s.behaviour raw o.radioId).2.confirms = true)
    (hcallback : s.callbackRaises = false)
    (hexit : .exit (AckSystem.run before).registry.events.length ∉ during) :
    s.CountsAsSent c packet o during
      (s.sendPacket c packet o (AckSystem.run before) during) := by
  obtain ⟨crc, hcrc⟩ := ackCrc_of_writable (c := c) (o := o) (Packet.writeTo_eq_ok.mp hwrite).1
  rw [sendPacket_eq hroute hout hwrite]
  cases hwaits : o.waits p with
  | false =>
    have hnone : s.awaitedCrc c packet o = none := by simp [awaitedCrc, hout, hwaits]
    rw [afterSend_of_not_waits hconfirms hcallback hwaits]
    refine ⟨fun _ => rfl, fun crc ts hsome => ?_⟩
    cases hnone.symm.trans hsome
  | true =>
    have hsome : s.awaitedCrc c packet o = some crc := by
      simp [awaitedCrc, hout, hwaits, hcrc, Except.toOption]
    rw [afterSend_of_waits hconfirms hcallback hwaits hcrc]
    constructor
    · intro hnone
      cases hsome.symm.trans hnone
    · intro crc' ts hcrc' hack
      cases hsome.symm.trans hcrc'
      have hr := AckSystem.refines_run before
      have hlive : ((AckHistory.ofRun before).step (.expectAck crc)).Live
          (AckSystem.run before).registry.events.length crc := by
        rw [← AckHistory.mem_liveOn, AckHistory.liveOn_expectAck, hr.events_length]
        simp
      have hset := AckSystem.set_of_ackReceived (AckSystem.refines_step hr (.expectAck crc))
        (.inl hlive) hexit hack
      simp only [awaitAck, hset, beq_self_eq_true]

theorem countsAsSent_acked :
    let s : Sender := { port := .single false, behaviour := fun _ _ _ => .metadata none }
    s.CountsAsSent xorCrypto {} { expectedCrc := some 7 } [.ackReceived 7 0]
      (s.sendPacket xorCrypto {} { expectedCrc := some 7 } (AckSystem.run []) [.ackReceived 7 0]) :=
  countsAsSent_of_confirms (by decide) rfl rfl rfl rfl (by simp)

end Sender

end OpenHop
