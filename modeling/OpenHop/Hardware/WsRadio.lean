import OpenHop.Node.SendAck

/-! # The WebSocket radio under the dispatcher

`WsRadio.send` reconnects if it has to, hands the packet to the WebSocket as text and returns
`None` on every path. To the dispatcher `None` is a transmission that was not confirmed, so what
the socket took is reported as not sent, nobody waits for its acknowledgement and its airtime is
not paid for.
-/

namespace OpenHop

/-- The connection, the last transmission and the packets that the WebSocket took. -/
structure WsRadio where
  ws : Bool := false
  connected : Bool := false
  lastTxData : Option Bytes := none
  lastTxTime : ℚ := 0
  taken : List (List Char) := []

/-- What the network does during a call: whether a connection comes about, and whether the
WebSocket takes a frame without an error. -/
structure WsNetwork where
  connects : Bool
  accepts : Bool
  now : ℚ := 0

namespace WsRadio

def hexDigit (n : ℕ) : Char := Char.ofNat (if n < 10 then 48 + n else 55 + n)

/-- The text frame for a packet, `TX:` and the packet in hexadecimal. -/
def txFrame (data : Bytes) : List Char :=
  "TX:".toList ++ data.flatMap fun b => [hexDigit (b.toNat / 16), hexDigit (b.toNat % 16)]

def connect (r : WsRadio) (net : WsNetwork) : WsRadio :=
  if r.connected && r.ws then r else { r with ws := net.connects, connected := net.connects }

def ensure (r : WsRadio) (net : WsNetwork) : WsRadio :=
  if r.connected then r else r.connect net

def ready (r : WsRadio) : Bool := r.ws && r.connected

def send (r : WsRadio) (net : WsNetwork) (data : Bytes) : WsRadio × SendResult :=
  let r := r.ensure net
  if r.ready then
    if net.accepts then
      ({ r with
        taken := r.taken ++ [txFrame data], lastTxData := some data, lastTxTime := net.now },
        .nothing)
    else ({ r with connected := false, ws := false }, .nothing)
  else ({ r with connected := false }, .nothing)

/-- The radio after the calls of a send. -/
def afterCalls (r : WsRadio) (net : WsNetwork) (calls : List SendCall) : WsRadio :=
  calls.foldl (fun r call => (r.send net call.data).1) r

def behaviour (r : WsRadio) (net : WsNetwork) : RadioBehaviour :=
  fun calls _ data => ((r.afterCalls net calls).send net data).2

/-- A dispatcher over this radio, whose `send` takes no radio id. -/
def sender (r : WsRadio) (net : WsNetwork) (config : DispatcherConfig)
    (callbackRaises clientRepeatEnabled : Bool) : Sender where
  config := config
  port := .single false
  behaviour := r.behaviour net
  callbackRaises := callbackRaises
  clientRepeatEnabled := clientRepeatEnabled

variable (r : WsRadio) (net : WsNetwork) (data : Bytes)

theorem send_eq_nothing : (r.send net data).2 = .nothing := by
  unfold send
  dsimp only
  split
  · split <;> rfl
  · rfl

theorem taken_ensure : (r.ensure net).taken = r.taken := by
  unfold ensure connect
  split
  · rfl
  · split <;> rfl

theorem taken_send (haccepts : net.accepts = true) :
    (r.send net data).1.taken =
      if (r.ensure net).ready then r.taken ++ [txFrame data] else r.taken := by
  unfold send
  dsimp only
  rw [if_pos haccepts]
  split
  · dsimp only
    rw [taken_ensure]
  · exact taken_ensure r net

theorem transmit_behaviour (raw : Bytes) (radioId : Option RadioId) :
    transmit (.single false) (r.behaviour net) raw radioId =
      ([⟨.sole, raw, .nothing⟩], .nothing) := by
  have hresult : r.behaviour net [] .sole raw = .nothing := send_eq_nothing r net raw
  have hsend : (RadioPort.single false).send (r.behaviour net) [] raw none =
      ([⟨.sole, raw, .nothing⟩], .nothing) := by
    simp only [RadioPort.send, physicalSend, hresult, List.nil_append, Option.isSome_none,
      Bool.false_eq_true, false_and, if_false]
  cases radioId with
  | none => exact hsend
  | some rid => exact hsend

section Dispatcher

variable {Seed : Type} (c : Crypto Seed) (config : DispatcherConfig)
  (callbackRaises clientRepeatEnabled : Bool) (packet : Packet) (o : SendOptions)
  (acks : AckSystem) (during : List AckAction)

/-- What a send over the radio comes to: never `True`, and no trace of it at the dispatcher. -/
inductive Sent (packet : Packet) (acks : AckSystem) : AckRun → Prop where
  | dropped (hroute : packet.isRouteFlood ∧ packet.getPayloadType = payloadTypeTrace) :
      Sent packet acks { outcome := .returned false, acks }
  | unwritten (hroute : ¬ (packet.isRouteFlood ∧ packet.getPayloadType = payloadTypeTrace))
      (hwire : config.wire c packet = none) : Sent packet acks { outcome := .raised, acks }
  | called {raw : Bytes}
      (hroute : ¬ (packet.isRouteFlood ∧ packet.getPayloadType = payloadTypeTrace))
      (hwire : config.wire c packet = some raw) :
      Sent packet acks
        { calls := [⟨.sole, raw, .nothing⟩], outcome := .returned false, acks }

theorem sendPacket_cases :
    Sent c config packet acks
      ((r.sender net config callbackRaises clientRepeatEnabled).sendPacket c packet o acks
        during) := by
  by_cases hroute : packet.isRouteFlood ∧ packet.getPayloadType = payloadTypeTrace
  · unfold Sender.sendPacket
    rw [if_pos hroute]
    exact .dropped hroute
  cases hout : config.outgoing c packet with
  | none =>
    have hwire : config.wire c packet = none := by
      rw [DispatcherConfig.wire, hout, Option.bind_none]
    unfold Sender.sendPacket
    rw [if_neg hroute]
    dsimp only [sender]
    rw [hout]
    exact .unwritten hroute hwire
  | some p =>
    have hwire : config.wire c packet = p.writeTo.toOption := by
      rw [DispatcherConfig.wire, hout, Option.bind_some]
    cases hwrite : p.writeTo with
    | error e =>
      rw [hwrite] at hwire
      unfold Sender.sendPacket
      rw [if_neg hroute]
      dsimp only [sender]
      rw [hout]
      dsimp only
      rw [hwrite]
      exact .unwritten hroute hwire
    | ok raw =>
      rw [hwrite] at hwire
      rw [Sender.sendPacket_eq hroute hout hwrite]
      have htransmit : transmit (r.sender net config callbackRaises clientRepeatEnabled).port
          (r.sender net config callbackRaises clientRepeatEnabled).behaviour raw o.radioId =
          ([⟨.sole, raw, .nothing⟩], .nothing) := transmit_behaviour r net raw o.radioId
      rw [htransmit, Sender.afterSend_of_not_confirms rfl]
      dsimp only [SendResult.confirms]
      rw [Bool.and_false]
      exact .called hroute hwire

variable {c config packet acks}

theorem Sent.outcome_ne {run : AckRun} (h : Sent c config packet acks run) :
    run.outcome ≠ .returned true := by
  cases h <;> nofun

theorem Sent.taken_eq_iff {run : AckRun} (h : Sent c config packet acks run)
    (haccepts : net.accepts = true) :
    (r.afterCalls net run.calls).taken = r.taken ↔
      packet.isRouteFlood = true ∧ packet.getPayloadType = payloadTypeTrace ∨
      config.wire c packet = none ∨ (r.ensure net).ready = false := by
  cases h with
  | dropped hroute => exact iff_of_true rfl (.inl hroute)
  | unwritten hroute hwire => exact iff_of_true rfl (.inr (.inl hwire))
  | @called raw hroute hwire =>
    have hafter : (r.afterCalls net [⟨.sole, raw, .nothing⟩]).taken =
        if (r.ensure net).ready then r.taken ++ [txFrame raw] else r.taken :=
      taken_send r net raw haccepts
    rw [hafter, hwire, or_iff_right hroute, or_iff_right (by simp)]
    cases (r.ensure net).ready <;> simp

/-- Over a WebSocket that takes every frame, what was put on the socket counts as sent exactly where
nothing was put there or the call waits for an acknowledgement that does not come. -/
theorem taken_counts_as_sent_iff (r : WsRadio) (net : WsNetwork) (c : Crypto Seed)
    (config : DispatcherConfig) (callbackRaises clientRepeatEnabled : Bool) (packet : Packet)
    (o : SendOptions) (acks : AckSystem) (during : List AckAction) (haccepts : net.accepts = true) :
    let s := r.sender net config callbackRaises clientRepeatEnabled
    let run := s.sendPacket c packet o acks during
    ((r.afterCalls net run.calls).taken ≠ r.taken → s.CountsAsSent c packet o during run) ↔
      packet.isRouteFlood = true ∧ packet.getPayloadType = payloadTypeTrace ∨
      config.wire c packet = none ∨ (r.ensure net).ready = false ∨
      ∃ crc, s.awaitedCrc c packet o = some crc ∧ ∀ ts, .ackReceived crc ts ∉ during := by
  intro s run
  have hsent : Sent c config packet acks run :=
    sendPacket_cases r net c config callbackRaises clientRepeatEnabled packet o acks during
  rw [Sender.countsAsSent_iff_of_ne hsent.outcome_ne, ne_eq, hsent.taken_eq_iff r net haccepts,
    ← or_iff_not_imp_left, or_assoc, or_assoc]

def online : WsRadio := { ws := true, connected := true }

/-- The socket takes a datagram whose acknowledgement is waited for and does not come. -/
theorem taken_counts_as_sent_unanswered :
    let net : WsNetwork := { connects := true, accepts := true }
    let s := online.sender net {} false false
    let packet : Packet := { header := 0x0A, payload := [1], payloadLen := 1 }
    let run := s.sendPacket xorCrypto packet { expectedCrc := some 7 } {} []
    (online.afterCalls net run.calls).taken = ["TX:0A0001".toList] ∧
      s.CountsAsSent xorCrypto packet { expectedCrc := some 7 } [] run := by
  intro net s packet run
  have htaken : (online.afterCalls net run.calls).taken = ["TX:0A0001".toList] := by
    decide +kernel
  refine ⟨htaken, (taken_counts_as_sent_iff online net xorCrypto {} false false packet
    { expectedCrc := some 7 } {} [] rfl).mpr (.inr (.inr (.inr ⟨7, by decide +kernel, ?_⟩))) ?_⟩
  · exact fun ts => List.not_mem_nil
  · rw [htaken]
    decide

/-- The socket takes a datagram, and the call returns `False`; its acknowledgement comes while
the caller would wait, and finds nobody. -/
theorem taken_not_counted :
    let net : WsNetwork := { connects := true, accepts := true }
    let s := online.sender net {} false true
    let packet : Packet := { header := 0x0A, payload := [1], payloadLen := 1 }
    let plain := s.sendPacket xorCrypto packet { waitForAck := false } {} []
    let waiting := s.sendPacket xorCrypto packet { expectedCrc := some 7 } {} [.ackReceived 7 0]
    ((online.afterCalls net plain.calls).taken = ["TX:0A0001".toList] ∧
      plain.outcome = .returned false ∧ plain.debited = false ∧
      ¬ s.CountsAsSent xorCrypto packet { waitForAck := false } [] plain) ∧
    (online.afterCalls net waiting.calls).taken = ["TX:0A0001".toList] ∧
      waiting.outcome = .returned false ∧
      ¬ s.CountsAsSent xorCrypto packet { expectedCrc := some 7 } [.ackReceived 7 0] waiting := by
  intro net s packet plain waiting
  have hplain : plain.outcome = .returned false := by decide +kernel
  have hwaiting : waiting.outcome = .returned false := by decide +kernel
  refine ⟨⟨by decide +kernel, hplain, by decide +kernel, fun hcounts => ?_⟩, by decide +kernel,
    hwaiting, fun hcounts => ?_⟩
  · cases hplain.symm.trans (hcounts.sent (by decide +kernel))
  · have hack : .ackReceived 7 0 ∈ [AckAction.ackReceived 7 0] := List.mem_singleton_self _
    cases hwaiting.symm.trans (hcounts.acked 7 0 (by decide +kernel) hack)

end Dispatcher

end WsRadio

end OpenHop
