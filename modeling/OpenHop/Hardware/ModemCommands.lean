import OpenHop.Data.Dict
import OpenHop.Hardware.ModemFrame
import OpenHop.Machine.Exchange
import OpenHop.Machine.Runs

/-! # Commands to a USB or TCP modem

A command registers an event for the response code that it expects, writes its frame and
waits. The receive thread matches answers by their code alone, and an error wakes whoever
waits.
-/

namespace OpenHop.Modem

open Machine

def cmdTxRequest : UInt8 := 0x01
def cmdTxDone : UInt8 := 0x02
def cmdTxFail : UInt8 := 0x03
def cmdRxPacket : UInt8 := 0x04
def cmdError : UInt8 := 0xFE
def errChannelBusy : UInt8 := 0x0E

/-- The part of a radio that the receive thread works on. An event is known by the call that waits
for it; `toSet` are the events that the event loop was asked to set. -/
structure ModemRadio where
  responseEvents : Dict UInt8 ℕ := Dict.empty
  responseData : Dict UInt8 (Option Bytes) := Dict.empty
  toSet : List ℕ := []
  lastModemError : Option UInt8 := none
  lastRssi : ℤ := -99
  lastSnr : ℚ := 0
  lastSignalRssi : ℤ := -99
  rxCount : ℕ := 0
  rxCallback : Bool := false
  delivered : List Bytes := []

/-- `struct.unpack("<h", d)` -/
def int16LE (d : Bytes) : ℤ :=
  let n := Bytes.toNatLE d
  if n < 2 ^ 15 then n else n - 2 ^ 16

namespace ModemRadio

def complete (r : ModemRadio) (cmd : UInt8) (evt : ℕ) (data : Option Bytes) : ModemRadio :=
  { r with responseData := r.responseData.set cmd data, toSet := r.toSet ++ [evt] }

/-- Whether a packet is passed on is up to the radio: without a running event loop one drops it and
the other calls back from the thread. -/
def rxPacket (r : ModemRadio) (canDeliver : Bool) (payload : Bytes) : ModemRadio :=
  if payload.length < 6 then r
  else { r with
    lastRssi := int16LE (payload.take 2)
    lastSnr := int16LE ((payload.drop 2).take 2) / 10
    lastSignalRssi := int16LE ((payload.drop 4).take 2)
    rxCount := r.rxCount + 1
    delivered := r.delivered ++ if r.rxCallback && canDeliver then [payload.drop 6] else [] }

def dispatch (r : ModemRadio) (canDeliver : Bool) (cmd : UInt8) (payload : Bytes) : ModemRadio :=
  if cmd = cmdRxPacket then r.rxPacket canDeliver payload
  else if cmd = cmdError then
    -- the error may be the answer to any command, so everyone is woken
    r.responseEvents.entries.foldl (fun r (evtCmd, evt) => r.complete evtCmd evt none)
      { r with lastModemError := some (payload.headD 0xFF) }
  else if cmd = cmdTxFail then
    match r.responseEvents.get? cmdTxDone with
    | some evt => r.complete cmdTxDone evt none
    | none => r
  else
    match r.responseEvents.get? cmd with
    | some evt => r.complete cmd evt (some payload)
    | none => r

end ModemRadio

namespace UsbLoRaRadio

def dispatchFrame (loopRunning : Bool) (r : ModemRadio) : UInt8 → Bytes → ModemRadio :=
  r.dispatch loopRunning

end UsbLoRaRadio

namespace TcpLoRaRadio

def dispatchFrame (_loopRunning : Bool) (r : ModemRadio) : UInt8 → Bytes → ModemRadio :=
  r.dispatch true

end TcpLoRaRadio

inductive RadioKind where
  | usb
  | tcp

def RadioKind.dispatchFrame : RadioKind → Bool → ModemRadio → UInt8 → Bytes → ModemRadio
  | .usb => UsbLoRaRadio.dispatchFrame
  | .tcp => TcpLoRaRadio.dispatchFrame

structure Request where
  cmd : UInt8
  payload : Bytes
  expectCmd : UInt8
  deriving DecidableEq

/-- How a call of `_send_command` ends. -/
inductive CallEnd where
  | notConnected
  /-- A failed write that is caught. -/
  | writeFailed
  | timedOut
  /-- The frame cannot be built, the write raises or the task is cancelled. -/
  | raised
  /-- The event was set; what is then stored for the response code. -/
  | woken (data : Option (Option Bytes))
  deriving DecidableEq

def RadioKind.onWriteError : RadioKind → CallEnd
  | .usb => .raised
  | .tcp => .writeFailed

/-- What the call returns. -/
def CallEnd.result : CallEnd → Option Bytes
  | .woken data => data.join
  | _ => none

def CallEnd.isWoken : CallEnd → Bool
  | .woken _ => true
  | _ => false

/-- The call that holds the command lock. -/
structure Waiter where
  call : ℕ
  request : Request
  written : Bool

def Waiter.unwritten (w : Waiter) : List ℕ := if w.written then [] else [w.call]

structure Returned where
  call : ℕ
  request : Request
  ended : CallEnd
  deriving DecidableEq

/-- A radio with its callers and its modem. `registered` are the calls that took the command lock,
`inbox` the frames that the modem has received and not answered. The lists are in the order of the
events. -/
structure Commands where
  radio : ModemRadio := {}
  events : List ℕ := []
  calls : ℕ := 0
  registered : List (ℕ × Request) := []
  holder : Option Waiter := none
  wire : List (ℕ × Bytes) := []
  inbox : List ℕ := []
  received : List ℕ := []
  answered : List (ℕ × UInt8 × Bytes) := []
  returned : List Returned := []

inductive CommandAction where
  | refuse (request : Request)
  | register (request : Request)
  | write
  /-- A failed write may still have put the frame on the wire. -/
  | writeFails (written : Bool)
  | lose
  | reach
  | answer (loopRunning : Bool) (cmd : UInt8) (payload : Bytes)
  | packet (loopRunning : Bool) (payload : Bytes)
  | setEvent
  | wake
  | timeout
  | cancel

namespace Commands

/-- The `finally` block, on every way out. -/
def finish (s : Commands) (w : Waiter) (ended : CallEnd) : Commands :=
  { s with
    radio := { s.radio with
      responseEvents := s.radio.responseEvents.erase w.request.expectCmd
      responseData := s.radio.responseData.erase w.request.expectCmd }
    holder := none
    returned := s.returned ++ [⟨w.call, w.request, ended⟩] }

/-- One step of a caller, of the event loop, of the wire or of the modem, which answers the frames
that it has received in order. -/
def step (kind : RadioKind) (s : Commands) : CommandAction → Option Commands
  | .refuse request =>
    match s.holder with
    | none => some { s with
        calls := s.calls + 1, returned := s.returned ++ [⟨s.calls, request, .notConnected⟩] }
    | some _ => none
  | .register request =>
    match s.holder with
    | none => some { s with
        radio := { s.radio with
          responseEvents := s.radio.responseEvents.set request.expectCmd s.calls
          responseData := s.radio.responseData.erase request.expectCmd }
        calls := s.calls + 1
        registered := s.registered ++ [(s.calls, request)]
        holder := some ⟨s.calls, request, false⟩ }
    | some _ => none
  | .write =>
    match s.holder with
    | some ⟨call, request, false⟩ =>
      match buildFrame request.cmd request.payload with
      | .ok frame => some { s with
          wire := s.wire ++ [(call, frame)], holder := some ⟨call, request, true⟩ }
      | .error _ => some (s.finish ⟨call, request, false⟩ .raised)
    | _ => none
  | .writeFails written =>
    match s.holder with
    | some ⟨call, request, false⟩ =>
      match buildFrame request.cmd request.payload with
      | .ok frame =>
        let s := { s with wire := s.wire ++ if written then [(call, frame)] else [] }
        some (s.finish ⟨call, request, false⟩ kind.onWriteError)
      | .error _ => none
    | _ => none
  | .lose => some { s with wire := s.wire.tail }
  | .reach =>
    match s.wire with
    | (call, _) :: wire =>
      some { s with wire, inbox := s.inbox ++ [call], received := s.received ++ [call] }
    | [] => none
  | .answer loopRunning cmd payload =>
    match s.inbox with
    | call :: inbox => some { s with
        radio := kind.dispatchFrame loopRunning s.radio cmd payload
        inbox
        answered := s.answered ++ [(call, cmd, payload)] }
    | [] => none
  | .packet loopRunning payload =>
    some { s with radio := kind.dispatchFrame loopRunning s.radio cmdRxPacket payload }
  | .setEvent =>
    match s.radio.toSet with
    | evt :: toSet => some { s with
        radio := { s.radio with toSet }, events := s.events ++ [evt] }
    | [] => none
  | .wake =>
    match s.holder with
    | some ⟨call, request, true⟩ =>
      if call ∈ s.events then
        some (s.finish ⟨call, request, true⟩
          (.woken (s.radio.responseData.get? request.expectCmd)))
      else none
    | _ => none
  | .timeout =>
    match s.holder with
    | some ⟨call, request, true⟩ => some (s.finish ⟨call, request, true⟩ .timedOut)
    | _ => none
  | .cancel =>
    match s.holder with
    | some ⟨call, request, true⟩ => some (s.finish ⟨call, request, true⟩ .raised)
    | _ => none

end Commands

/-- A TX_REQUEST of `send` with what the loop reads after it. -/
structure TxAttempt where
  call : ℕ
  ended : CallEnd
  lastModemError : Option UInt8 := none
  beforeDeadline : Bool := true
  delayMs : ℕ := 0

/-- The response that the loop of `send` ends with and the delays so far. A modem that refuses a
busy channel is asked again until the deadline. -/
def transmitLoop (delays : List ℕ) : List TxAttempt → Option Bytes × List ℕ
  | [] => (none, delays)
  | a :: attempts =>
    match a.ended.result with
    | some resp => (some resp, delays)
    | none =>
      if a.ended ≠ .raised ∧ a.lastModemError = some errChannelBusy ∧ a.beforeDeadline then
        transmitLoop (delays ++ [a.delayMs]) attempts
      else (none, delays)

/-- The airtime in a TX_DONE, given there in microseconds. -/
def airtimeMs (resp : Bytes) : ℚ :=
  (if 4 ≤ resp.length then Bytes.toNatLE (resp.take 4) else 0 : ℕ) / 1000

structure TxReport where
  airtimeMs : ℚ
  lbtAttempts : ℕ
  lbtBackoffDelaysMs : List ℕ
  lbtChannelBusy : Bool

/-- `send` with the delays of its channel checks; `rxStart` is how the RX_START after a transmission
ends. -/
def send (initialized : Bool) (delays : List ℕ) (attempts : List TxAttempt) (rxStart : CallEnd) :
    Option TxReport :=
  if !initialized then none
  else
    match transmitLoop delays attempts with
    | (none, _) => none
    | (some resp, delays) =>
      if rxStart = .raised then none
      else some
        { airtimeMs := Modem.airtimeMs resp
          lbtAttempts := delays.length
          lbtBackoffDelaysMs := delays
          lbtChannelBusy := decide (0 < delays.length) }

theorem transmitLoop_eq_some {delays : List ℕ} {attempts : List TxAttempt} {resp : Bytes}
    (h : (transmitLoop delays attempts).1 = some resp) :
    ∃ a ∈ attempts, a.ended.result = some resp := by
  induction attempts generalizing delays with
  | nil => cases h
  | cons a attempts ih =>
    unfold transmitLoop at h
    split at h
    · rename_i resp' hresult
      cases h
      exact ⟨a, List.mem_cons_self, hresult⟩
    split at h
    · obtain ⟨b, hb, hresult⟩ := ih h
      exact ⟨b, List.mem_cons_of_mem a hb, hresult⟩
    · cases h

theorem send_eq_some {initialized : Bool} {delays : List ℕ} {attempts : List TxAttempt}
    {rxStart : CallEnd} {report : TxReport}
    (h : send initialized delays attempts rxStart = some report) :
    ∃ a ∈ attempts, ∃ resp, a.ended.result = some resp ∧
      report.airtimeMs = Modem.airtimeMs resp := by
  unfold send at h
  split at h
  · cases h
  split at h
  · cases h
  rename_i resp delays' hloop
  split at h
  · cases h
  cases h
  obtain ⟨a, ha, hresult⟩ := transmitLoop_eq_some (congrArg Prod.fst hloop)
  exact ⟨a, ha, resp, hresult, rfl⟩

def responseOf (answer : UInt8 × Bytes) : Option (UInt8 × Bytes) :=
  if answer.1 = cmdError ∨ answer.1 = cmdTxFail then none else some answer

/-- A frame with the code wakes a call that expects `expectCmd`. -/
def completes (cmd expectCmd : UInt8) : Bool :=
  if cmd = cmdRxPacket then false
  else if cmd = cmdError then true
  else if cmd = cmdTxFail then expectCmd = cmdTxDone
  else expectCmd = cmd

/-- What a frame can do to the tables. -/
inductive Dispatched (r : ModemRadio) (cmd : UInt8) (payload : Bytes) (r' : ModemRadio) : Prop where
  | ignored (hevents : r'.responseEvents = r.responseEvents)
      (hdata : r'.responseData = r.responseData) (htoSet : r'.toSet = r.toSet)
  | completed {code : UInt8} {evt : ℕ} {data : Option Bytes}
      (hwaits : r.responseEvents.entries = [(code, evt)])
      (hcompletes : completes cmd code = true)
      (hresponse : data.map (Prod.mk code) = responseOf (cmd, payload))
      (hevents : r'.responseEvents = r.responseEvents)
      (hdata : r'.responseData = r.responseData.set code data)
      (htoSet : r'.toSet = r.toSet ++ [evt])

theorem Dispatched.stored {r r' : ModemRadio} {cmd : UInt8} {payload : Bytes}
    (h : Dispatched r cmd payload r') (code : UInt8) :
    (r'.responseData.get? code).map (Option.map (Prod.mk code)) =
        (r.responseData.get? code).map (Option.map (Prod.mk code)) ∨
      completes cmd code = true ∧
        (r'.responseData.get? code).map (Option.map (Prod.mk code)) =
          some (responseOf (cmd, payload)) := by
  cases h with
  | ignored _ hdata => rw [hdata]; exact .inl rfl
  | completed _ hcompletes hresponse _ hdata =>
    rw [hdata, Dict.get?_set]
    split
    · rename_i hcode
      rw [hcode, ← hresponse]
      exact .inr ⟨hcompletes, rfl⟩
    · exact .inl rfl

def ModemRadio.OneWaits (r : ModemRadio) : Prop :=
  r.responseEvents.entries = [] ∨ ∃ code evt, r.responseEvents.entries = [(code, evt)]

theorem ModemRadio.OneWaits.get? {r : ModemRadio} (hone : r.OneWaits) {code : UInt8} {evt : ℕ}
    (h : r.responseEvents.get? code = some evt) : r.responseEvents.entries = [(code, evt)] := by
  rcases hone with hnone | ⟨code', evt', hentries⟩
  · rw [Dict.get?, hnone] at h
    cases h
  · rw [Dict.get?, hentries, Dict.lookup] at h
    split at h
    · rename_i hcode
      cases h
      rw [hentries, hcode]
    · cases h

theorem ModemRadio.dispatch_cases {r : ModemRadio} (hone : r.OneWaits) (canDeliver : Bool)
    (cmd : UInt8) (payload : Bytes) :
    Dispatched r cmd payload (r.dispatch canDeliver cmd payload) := by
  unfold dispatch
  split
  · unfold rxPacket
    split
    · exact .ignored rfl rfl rfl
    · exact .ignored rfl rfl rfl
  rename_i hpacket
  split
  · rename_i herror
    rcases hone with hnone | ⟨code, evt, hentries⟩
    · rw [hnone]
      exact .ignored rfl rfl rfl
    · rw [hentries]
      refine .completed hentries ?_ (if_pos (.inl herror)).symm rfl rfl rfl
      rw [completes, if_neg hpacket, if_pos herror]
  rename_i herror
  split
  · rename_i hfail
    split
    · rename_i evt hevt
      refine .completed (hone.get? hevt) ?_ (if_pos (.inr hfail)).symm rfl rfl rfl
      rw [completes, if_neg hpacket, if_neg herror, if_pos hfail]
      exact decide_eq_true rfl
    · exact .ignored rfl rfl rfl
  · rename_i hfail
    split
    · rename_i evt hevt
      refine .completed (hone.get? hevt) ?_ (if_neg (not_or.mpr ⟨herror, hfail⟩)).symm rfl rfl rfl
      rw [completes, if_neg hpacket, if_neg herror, if_neg hfail]
      exact decide_eq_true rfl
    · exact .ignored rfl rfl rfl

theorem RadioKind.dispatchFrame_cases (kind : RadioKind) (loopRunning : Bool) {r : ModemRadio}
    (hone : r.OneWaits) (cmd : UInt8) (payload : Bytes) :
    Dispatched r cmd payload (kind.dispatchFrame loopRunning r cmd payload) := by
  cases kind with
  | usb => exact ModemRadio.dispatch_cases hone loopRunning cmd payload
  | tcp => exact ModemRadio.dispatch_cases hone true cmd payload

theorem RadioKind.dispatchFrame_rxPacket (kind : RadioKind) (loopRunning : Bool) (r : ModemRadio)
    (payload : Bytes) :
    (kind.dispatchFrame loopRunning r cmdRxPacket payload).responseEvents = r.responseEvents ∧
      (kind.dispatchFrame loopRunning r cmdRxPacket payload).responseData = r.responseData ∧
      (kind.dispatchFrame loopRunning r cmdRxPacket payload).toSet = r.toSet := by
  have hpacket (canDeliver : Bool) : r.dispatch canDeliver cmdRxPacket payload =
      r.rxPacket canDeliver payload := if_pos rfl
  cases kind <;>
    simp only [RadioKind.dispatchFrame, UsbLoRaRadio.dispatchFrame, TcpLoRaRadio.dispatchFrame,
      hpacket, ModemRadio.rxPacket] <;>
    split <;> exact ⟨rfl, rfl, rfl⟩

namespace Commands

variable {kind : RadioKind} {s t : Commands} {a : CommandAction}

/-- The entry of the call that holds the lock. -/
def waiting (s : Commands) : List (UInt8 × ℕ) :=
  (s.holder.map fun w => (w.request.expectCmd, w.call)).toList

inductive Move (s : Commands) : Commands → Prop where
  | refused (request : Request) : Move s { s with
      calls := s.calls + 1, returned := s.returned ++ [⟨s.calls, request, .notConnected⟩] }
  | registered (hfree : s.holder = none) (request : Request) : Move s { s with
      radio := { s.radio with
        responseEvents := s.radio.responseEvents.set request.expectCmd s.calls
        responseData := s.radio.responseData.erase request.expectCmd }
      calls := s.calls + 1
      registered := s.registered ++ [(s.calls, request)]
      holder := some ⟨s.calls, request, false⟩ }
  | wrote {call : ℕ} {request : Request} (hholder : s.holder = some ⟨call, request, false⟩)
      (frame : Bytes) : Move s { s with
        wire := s.wire ++ [(call, frame)], holder := some ⟨call, request, true⟩ }
  /-- A call ends without being woken, and its frame may or may not be on the wire. -/
  | ended {w : Waiter} (hholder : s.holder = some w) {wire : List (ℕ × Bytes)}
      (hwire : (wire.map Prod.fst).Sublist (s.wire.map Prod.fst ++ w.unwritten))
      {ended : CallEnd} (hended : ∀ data, ended ≠ .woken data) :
      Move s ({ s with wire }.finish w ended)
  | woken {w : Waiter} (hholder : s.holder = some w) (hwritten : w.written = true)
      (hset : w.call ∈ s.events) :
      Move s (s.finish w (.woken (s.radio.responseData.get? w.request.expectCmd)))
  | lost : Move s { s with wire := s.wire.tail }
  | reached {call : ℕ} {frame : Bytes} {wire : List (ℕ × Bytes)}
      (hwire : s.wire = (call, frame) :: wire) : Move s { s with
        wire, inbox := s.inbox ++ [call], received := s.received ++ [call] }
  | answered {call : ℕ} {inbox : List ℕ} (hinbox : s.inbox = call :: inbox) {cmd : UInt8}
      {payload : Bytes} {radio : ModemRadio} (hradio : Dispatched s.radio cmd payload radio) :
      Move s { s with radio, inbox, answered := s.answered ++ [(call, cmd, payload)] }
  | passed {radio : ModemRadio} (hevents : radio.responseEvents = s.radio.responseEvents)
      (hdata : radio.responseData = s.radio.responseData) (htoSet : radio.toSet = s.radio.toSet) :
      Move s { s with radio }
  | set {evt : ℕ} {toSet : List ℕ} (htoSet : s.radio.toSet = evt :: toSet) :
      Move s { s with radio := { s.radio with toSet }, events := s.events ++ [evt] }

theorem step_move (hone : s.radio.OneWaits) (h : step kind s a = some t) : Move s t := by
  cases a with
  | refuse request =>
    simp only [step] at h
    split at h
    · cases h
      exact .refused request
    · cases h
  | register request =>
    simp only [step] at h
    split at h
    · rename_i hfree
      cases h
      exact .registered hfree request
    · cases h
  | write =>
    simp only [step] at h
    split at h
    · rename_i call request hholder
      split at h
      · rename_i frame hframe
        cases h
        exact .wrote hholder frame
      · cases h
        exact .ended hholder (List.sublist_append_left _ _) nofun
    · cases h
  | writeFails written =>
    simp only [step] at h
    split at h
    · rename_i call request hholder
      split at h
      · rename_i frame hframe
        cases h
        refine .ended hholder ?_ (by cases kind <;> exact nofun)
        cases written
        · simp [Waiter.unwritten]
        · simp [Waiter.unwritten]
      · cases h
    · cases h
  | lose =>
    cases h
    exact .lost
  | reach =>
    simp only [step] at h
    split at h
    · rename_i call frame wire hwire
      cases h
      exact .reached hwire
    · cases h
  | answer loopRunning cmd payload =>
    simp only [step] at h
    split at h
    · rename_i call inbox hinbox
      cases h
      exact .answered hinbox (kind.dispatchFrame_cases loopRunning hone cmd payload)
    · cases h
  | packet loopRunning payload =>
    cases h
    obtain ⟨hevents, hdata, htoSet⟩ := kind.dispatchFrame_rxPacket loopRunning s.radio payload
    exact .passed hevents hdata htoSet
  | setEvent =>
    simp only [step] at h
    split at h
    · rename_i evt toSet htoSet
      cases h
      exact .set htoSet
    · cases h
  | wake =>
    simp only [step] at h
    split at h
    · rename_i call request hholder
      split at h
      · rename_i hset
        cases h
        exact .woken hholder rfl hset
      · cases h
    · cases h
  | timeout =>
    simp only [step] at h
    split at h
    · rename_i call request hholder
      cases h
      exact .ended hholder (List.sublist_append_left _ _) nofun
    · cases h
  | cancel =>
    simp only [step] at h
    split at h
    · rename_i call request hholder
      cases h
      exact .ended hholder (List.sublist_append_left _ _) nofun
    · cases h

/-- Only the holder of the lock waits, and its event is not set before something is stored. -/
structure Consistent (s : Commands) : Prop where
  entries : s.radio.responseEvents.entries = s.waiting
  stored : ∀ w, s.holder = some w → w.call ∈ s.events ++ s.radio.toSet →
    (s.radio.responseData.get? w.request.expectCmd).isSome = true
  known : ∀ evt ∈ s.events ++ s.radio.toSet, evt < s.calls
  held : ∀ w, s.holder = some w → w.call < s.calls ∧ (w.call, w.request) ∈ s.registered
  given : ∀ r ∈ s.returned, r.ended ≠ .woken none

theorem Consistent.oneWaits (h : s.Consistent) : s.radio.OneWaits := by
  unfold ModemRadio.OneWaits
  rw [h.entries, waiting]
  cases s.holder with
  | none => exact .inl rfl
  | some w => exact .inr ⟨_, _, rfl⟩

theorem Consistent.finish (h : s.Consistent) {w : Waiter} (hw : s.holder = some w)
    {ended : CallEnd} (hended : ended ≠ .woken none) : (s.finish w ended).Consistent where
  entries := by
    have hentries := h.entries
    rw [waiting, hw] at hentries
    simp [Commands.finish, waiting, Dict.erase, Dict.filter, hentries]
  stored _ := nofun
  known := h.known
  held _ := nofun
  given r hr := by
    rcases List.mem_append.mp hr with hr | hr
    · exact h.given r hr
    · cases List.mem_singleton.mp hr
      exact hended

theorem Consistent.answered (h : s.Consistent) {cmd : UInt8} {payload : Bytes} {radio : ModemRadio}
    (hradio : Dispatched s.radio cmd payload radio) : Consistent { s with radio } := by
  cases hradio with
  | ignored hevents hdata htoSet =>
    refine ⟨?_, ?_, ?_, h.held, h.given⟩
    · dsimp only
      rw [hevents]
      exact h.entries
    · dsimp only
      rw [hdata, htoSet]
      exact h.stored
    · dsimp only
      rw [htoSet]
      exact h.known
  | @completed code evt data hwaits hcompletes hresponse hevents hdata htoSet =>
    have hentries := h.entries
    rw [hwaits] at hentries
    obtain ⟨w, hw, hcode, hevt⟩ : ∃ w, s.holder = some w ∧ w.request.expectCmd = code ∧
        w.call = evt := by
      rw [waiting] at hentries
      cases hholder : s.holder with
      | none =>
        rw [hholder] at hentries
        cases hentries
      | some w =>
        rw [hholder] at hentries
        cases hentries
        exact ⟨w, rfl, rfl, rfl⟩
    refine ⟨?_, ?_, ?_, h.held, h.given⟩
    · dsimp only
      rw [hevents]
      exact h.entries
    · intro w' hw' _
      obtain rfl : w = w' := Option.some.inj (hw.symm.trans hw')
      simp [hdata, hcode]
    · intro e he
      dsimp only at he
      rw [htoSet, ← List.append_assoc, List.mem_append, List.mem_singleton] at he
      rcases he with he | rfl
      · exact h.known e he
      · rw [← hevt]
        exact (h.held w hw).1

theorem Consistent.move (h : s.Consistent) (hmove : Move s t) : t.Consistent := by
  cases hmove with
  | refused request =>
    refine ⟨h.entries, h.stored, fun e he => Nat.lt_succ_of_lt (h.known e he),
      fun w hw => (h.held w hw).imp_left Nat.lt_succ_of_lt, fun r hr => ?_⟩
    rcases List.mem_append.mp hr with hr | hr
    · exact h.given r hr
    · cases List.mem_singleton.mp hr
      exact nofun
  | registered hfree request =>
    have hentries := h.entries
    rw [waiting, hfree] at hentries
    refine ⟨?_, ?_, fun e he => Nat.lt_succ_of_lt (h.known e he), ?_, h.given⟩
    · simp [waiting, Dict.set, hentries, Dict.assign]
    · intro w hw hmem
      cases hw
      exact absurd (h.known _ hmem) (Nat.lt_irrefl _)
    · intro w hw
      cases hw
      exact ⟨Nat.lt_succ_self _, List.mem_append_right _ (List.mem_singleton_self _)⟩
  | wrote hholder frame =>
    have hentries := h.entries
    rw [waiting, hholder] at hentries
    have hstored := h.stored _ hholder
    have hheld := h.held _ hholder
    refine ⟨hentries, ?_, h.known, ?_, h.given⟩
    · intro w hw hmem
      cases hw
      exact hstored hmem
    · intro w hw
      cases hw
      exact hheld
  | @ended w hholder wire hwire ended hended =>
    have hwired : Consistent { s with wire } := ⟨h.entries, h.stored, h.known, h.held, h.given⟩
    exact hwired.finish hholder (hended none)
  | @woken w hholder hwritten hset =>
    have hstored := h.stored w hholder (List.mem_append_left _ hset)
    refine h.finish hholder fun hnone => ?_
    rw [CallEnd.woken.inj hnone] at hstored
    cases hstored
  | lost => exact ⟨h.entries, h.stored, h.known, h.held, h.given⟩
  | reached hwire => exact ⟨h.entries, h.stored, h.known, h.held, h.given⟩
  | answered hinbox hradio =>
    obtain ⟨hentries, hstored, hknown, hheld, hgiven⟩ := h.answered hradio
    exact ⟨hentries, hstored, hknown, hheld, hgiven⟩
  | passed hevents hdata htoSet =>
    have hignored : Dispatched s.radio cmdRxPacket [] _ := .ignored hevents hdata htoSet
    exact h.answered hignored
  | @set evt toSet htoSet =>
    have hmoved : s.events ++ [evt] ++ toSet = s.events ++ s.radio.toSet := by
      rw [htoSet, List.append_assoc, List.singleton_append]
    refine ⟨h.entries, ?_, ?_, h.held, h.given⟩
    · dsimp only
      rw [hmoved]
      exact h.stored
    · dsimp only
      rw [hmoved]
      exact h.known

/-- The response that the call in progress would be woken with. -/
def response (s : Commands) (w : Waiter) : Option (Option (UInt8 × Bytes)) :=
  (s.radio.responseData.get? w.request.expectCmd).map (Option.map (Prod.mk w.request.expectCmd))

def responseGiven (r : Returned) : Option (Option (UInt8 × Bytes)) :=
  match r.ended with
  | .woken data => data.map (Option.map (Prod.mk r.request.expectCmd))
  | _ => none

theorem responseGiven_of_not_woken {r : Returned} (h : ∀ data, r.ended ≠ .woken data) :
    responseGiven r = none := by
  unfold responseGiven
  split
  · rename_i data hended
    exact absurd hended (h data)
  · rfl

def exchange (s : Commands) (slot : Option (UInt8 × Bytes))
    (ends : List (ℕ × Option (UInt8 × Bytes))) : Exchange (UInt8 × Bytes) where
  calls := s.calls
  holder := s.holder.map Waiter.call
  onWay := s.wire.map Prod.fst ++ s.holder.toList.flatMap Waiter.unwritten
  outstanding := s.inbox
  slot := slot
  received := s.received
  answered := s.answered
  returned := ends

/-- The call waits, or has waited, for a response that the answer is taken for. -/
def Accepts (s : Commands) (call : ℕ) (answer : UInt8 × Bytes) : Prop :=
  ∃ request, (call, request) ∈ s.registered ∧ completes answer.1 request.expectCmd = true

/-- The run so far is one of the exchange. Its slot is the answer that the call in progress would be
woken with, and `ends` are the answers that the calls were woken with. -/
def Tracked (fits : ℕ → UInt8 × Bytes → Prop) (s : Commands) : Prop :=
  (∀ call answer, s.Accepts call answer → fits call answer) →
    ∃ slot ends, (s.exchange slot ends).Reachable fits ∧
      (∀ w, s.holder = some w → slot.map responseOf = s.response w) ∧
      ends.map (Prod.map id (Option.map responseOf)) =
        s.returned.map fun r => (r.call, responseGiven r)

variable {fits : ℕ → UInt8 × Bytes → Prop}

theorem exchange_finish {slot v : Option (UInt8 × Bytes)}
    {ends : List (ℕ × Option (UInt8 × Bytes))} {w : Waiter} (ended : CallEnd)
    {wire : List (ℕ × Bytes)} (hholder : s.holder = some w)
    (hwire : (wire.map Prod.fst).Sublist (s.wire.map Prod.fst ++ w.unwritten))
    (hv : v = none ∨ v = slot) :
    Relation.ReflTransGen (Exchange.Step fits) (s.exchange slot ends)
      (({ s with wire }.finish w ended).exchange slot (ends ++ [(w.call, v)])) := by
  have hleft : (wire.map Prod.fst).Sublist (s.exchange slot ends).onWay := by
    simpa [exchange, hholder] using hwire
  refine .tail (.single (.lose hleft)) ?_
  have hfinish : Exchange.Step fits
      { s.exchange slot ends with onWay := wire.map Prod.fst } _ :=
    .finish (i := w.call) (v := v) (by simp [exchange, hholder]) hv
  simpa [exchange, finish] using hfinish

theorem registered_move (hmove : Move s t) : s.registered ⊆ t.registered := by
  cases hmove <;> first | exact List.Subset.refl _ | exact List.subset_append_left _ _

theorem Tracked.move (ht : s.Tracked fits) (hs : s.Consistent) (hmove : Move s t) :
    t.Tracked fits := by
  intro hfits
  obtain ⟨slot, ends, hreach, hslot, hends⟩ := ht fun call answer ⟨request, hmem, hcode⟩ =>
    hfits call answer ⟨request, registered_move hmove hmem, hcode⟩
  cases hmove with
  | refused request =>
    refine ⟨slot, ends ++ [(s.calls, none)], .tail hreach ?_, hslot, ?_⟩
    · exact .refuse
    · rw [List.map_append, hends, List.map_append]
      rfl
  | registered hfree request =>
    refine ⟨none, ends, .tail hreach ?_, ?_, hends⟩
    · have hstart : Exchange.Step fits (s.exchange slot ends) _ :=
        .start (by simp [exchange, hfree])
      simpa [exchange, hfree, Waiter.unwritten] using hstart
    · intro w hw
      cases hw
      simp [response]
  | wrote hholder frame =>
    have hresponse := hslot _ hholder
    refine ⟨slot, ends, ?_, ?_, hends⟩
    · simpa [exchange, hholder, Waiter.unwritten] using hreach
    · intro w hw
      cases hw
      exact hresponse
  | @ended w hholder wire hwire ended hended =>
    refine ⟨slot, ends ++ [(w.call, none)],
      Relation.ReflTransGen.trans hreach (exchange_finish ended hholder hwire (.inl rfl)),
      fun _ => nofun, ?_⟩
    have hgiven : responseGiven ⟨w.call, w.request, ended⟩ = none :=
      responseGiven_of_not_woken hended
    simp only [finish, List.map_append, hends, List.map_cons, List.map_nil, hgiven]
    rfl
  | @woken w hholder hwritten hset =>
    refine ⟨slot, ends ++ [(w.call, slot)], Relation.ReflTransGen.trans hreach
      (exchange_finish _ hholder (List.sublist_append_left _ _) (.inr rfl)), fun _ => nofun, ?_⟩
    simp only [finish, List.map_append, hends, List.map_cons, List.map_nil, Prod.map, id,
      hslot w hholder]
    rfl
  | lost =>
    refine ⟨slot, ends, .tail hreach (.lose ?_), hslot, hends⟩
    exact ((List.tail_sublist s.wire).map Prod.fst).append_right _
  | @reached call frame wire hwire =>
    refine ⟨slot, ends, .tail hreach (.receive ?_), hslot, hends⟩
    simp only [exchange, hwire]
    rfl
  | @answered call inbox hinbox cmd payload radio hradio =>
    by_cases hsame : ∀ w, s.holder = some w → response { s with radio } w = s.response w
    · refine ⟨slot, ends, .tail hreach (.answer hinbox (.inl rfl)), fun w hw => ?_, hends⟩
      exact (hslot w hw).trans (hsame w hw).symm
    · simp only [not_forall] at hsame
      obtain ⟨w, hholder, hchanged⟩ := hsame
      obtain ⟨hcode, hstored⟩ := (hradio.stored w.request.expectCmd).resolve_left hchanged
      refine ⟨some (cmd, payload), ends, .tail hreach (.answer hinbox (.inr ⟨rfl, ?_⟩)), ?_, hends⟩
      · intro holder hw
        have hcall : w.call = holder := by
          simpa [exchange, hholder] using hw
        exact hfits holder _ ⟨w.request, hcall ▸ (hs.held w hholder).2, hcode⟩
      · intro w' hw'
        obtain rfl : w = w' := Option.some.inj (hholder.symm.trans hw')
        exact hstored.symm
  | passed hevents hdata htoSet =>
    refine ⟨slot, ends, hreach, fun w hw => ?_, hends⟩
    simp only [response, hdata]
    exact hslot w hw
  | set htoSet => exact ⟨slot, ends, hreach, hslot, hends⟩

theorem run_spec (fits : ℕ → UInt8 × Bytes → Prop) {actions : List CommandAction}
    (h : run (step kind) {} actions = some s) : s.Consistent ∧ s.Tracked fits := by
  refine run_invariant (I := fun s => s.Consistent ∧ s.Tracked fits) ?_ ?_ h
  · rintro s a t ⟨hconsistent, htracked⟩ hstep
    have hmove := step_move hconsistent.oneWaits hstep
    exact ⟨hconsistent.move hmove, htracked.move hconsistent hmove⟩
  · exact ⟨⟨rfl, nofun, nofun, nofun, nofun⟩, fun _ => ⟨none, [], .refl, nofun, rfl⟩⟩

theorem isWoken_of_responseGiven {r : Returned} (hgiven : r.ended ≠ .woken none)
    (h : responseGiven r = none) : r.ended.isWoken = false := by
  unfold responseGiven at h
  split at h
  · rename_i data hended
    rw [Option.map_eq_none_iff] at h
    exact absurd (h ▸ hended) hgiven
  · rename_i hended
    unfold CallEnd.isWoken
    split
    · exact absurd ‹_› (hended _)
    · rfl

theorem result_eq_some {r : Returned} {payload : Bytes} (h : r.ended.result = some payload) :
    responseGiven r = some (some (r.request.expectCmd, payload)) := by
  unfold CallEnd.result at h
  unfold responseGiven
  split at h
  · rename_i data hended
    rw [Option.join_eq_some_iff.mp h]
    rfl
  · cases h

/-- In every interleaving in which no answer to a call that ended without being woken could wake
another call, a response that a call returns is the answer to its own frame, and a transmission
that `send` reports was completed by the TX_DONE for its own TX_REQUEST. -/
theorem sendCommand_own_response (kind : RadioKind) (actions : List CommandAction) (s : Commands)
    (hrun : run (step kind) {} actions = some s)
    (hkept : ∀ r ∈ s.returned, r.ended.isWoken = false →
      ∀ answer ∈ s.answered, answer.1 = r.call → ∀ other ∈ s.registered, other.1 ≠ r.call →
        completes answer.2.1 other.2.expectCmd = false) :
    (∀ r ∈ s.returned, ∀ payload, r.ended.result = some payload →
      (r.call, r.request.expectCmd, payload) ∈ s.answered) ∧
    ∀ data initialized delays attempts rxStart report,
      (∀ a ∈ attempts, ⟨a.call, ⟨cmdTxRequest, data, cmdTxDone⟩, a.ended⟩ ∈ s.returned) →
      send initialized delays attempts rxStart = some report →
      ∃ a ∈ attempts, ∃ payload, (a.call, cmdTxDone, payload) ∈ s.answered ∧
        report.airtimeMs = airtimeMs payload := by
  obtain ⟨hconsistent, htracked⟩ := run_spec s.Accepts hrun
  obtain ⟨slot, ends, hreach, -, hends⟩ := htracked fun _ _ h => h
  have hexchange : (s.exchange slot ends).Kept s.Accepts := by
    rintro call answer hnone hanswer other hother ⟨request, hmem, hcode⟩
    have hended : (call, none) ∈ s.returned.map fun r => (r.call, responseGiven r) := by
      rw [← hends]
      exact List.mem_map.mpr ⟨_, hnone, rfl⟩
    obtain ⟨r, hr, heq⟩ := List.mem_map.mp hended
    obtain ⟨rfl, hgiven⟩ := Prod.mk.inj heq
    have hwoken := isWoken_of_responseGiven (hconsistent.given r hr) hgiven
    have hfree := hkept r hr hwoken (r.call, answer) hanswer rfl (other, request) hmem hother
    rw [hfree] at hcode
    cases hcode
  have hown : ∀ r ∈ s.returned, ∀ payload, r.ended.result = some payload →
      (r.call, r.request.expectCmd, payload) ∈ s.answered := by
    intro r hr payload hresult
    have hmem : (r.call, some (some (r.request.expectCmd, payload))) ∈
        ends.map (Prod.map id (Option.map responseOf)) := by
      rw [hends]
      exact List.mem_map.mpr ⟨r, hr, by rw [result_eq_some hresult]⟩
    obtain ⟨⟨call, v⟩, hv, heq⟩ := List.mem_map.mp hmem
    obtain ⟨rfl, hresponse⟩ := Prod.mk.inj heq
    obtain ⟨answer, rfl, hanswer⟩ := Option.map_eq_some_iff.mp hresponse
    obtain ⟨-, hsame⟩ := Option.ite_none_left_eq_some.mp hanswer
    cases hsame
    exact (hreach.sound hexchange).own _ _ hv
  refine ⟨hown, ?_⟩
  intro data initialized delays attempts rxStart report hattempts hsend
  obtain ⟨a, ha, resp, hresult, hairtime⟩ := send_eq_some hsend
  exact ⟨a, ha, resp, hown _ (hattempts a ha) resp hresult, hairtime⟩

def txRequest (data : Bytes) : Request := ⟨cmdTxRequest, data, cmdTxDone⟩

/-- The noise floor is answered after its call has timed out, while a transmission waits, which then
takes 5 ms. -/
theorem sendCommand_own_response_sent :
    ∃ s, run (step .usb) {} [.register ⟨0x22, [], 0x23⟩, .write, .reach, .timeout,
        .register (txRequest [7]), .write, .reach, .answer true 0x23 [0x90, 0xFF],
        .answer true cmdTxDone [0x88, 0x13, 0, 0], .setEvent, .wake] = some s ∧
      (1, cmdTxDone, [0x88, 0x13, 0, 0]) ∈ s.answered ∧
      ∃ report, send true [] [⟨1, .woken (some (some [0x88, 0x13, 0, 0])), none, true, 0⟩]
        (.woken none) = some report ∧ ∃ payload, (1, cmdTxDone, payload) ∈ s.answered ∧
          report.airtimeMs = airtimeMs payload := by
  obtain ⟨s, hs, hregistered, hanswered, hreturned⟩ :
      ∃ s, run (step .usb) {} [.register ⟨0x22, [], 0x23⟩, .write, .reach, .timeout,
          .register (txRequest [7]), .write, .reach, .answer true 0x23 [0x90, 0xFF],
          .answer true cmdTxDone [0x88, 0x13, 0, 0], .setEvent, .wake] = some s ∧
        s.registered = [(0, ⟨0x22, [], 0x23⟩), (1, txRequest [7])] ∧
        s.answered = [(0, 0x23, [0x90, 0xFF]), (1, cmdTxDone, [0x88, 0x13, 0, 0])] ∧
        s.returned = [⟨0, ⟨0x22, [], 0x23⟩, .timedOut⟩,
          ⟨1, txRequest [7], .woken (some (some [0x88, 0x13, 0, 0]))⟩] :=
    ⟨_, rfl, rfl, rfl, rfl⟩
  have hown := sendCommand_own_response .usb _ s hs
    (by rw [hregistered, hanswered, hreturned]; decide)
  refine ⟨s, hs, hown.1 ⟨1, txRequest [7], .woken (some (some [0x88, 0x13, 0, 0]))⟩
    (by rw [hreturned]; decide) _ rfl, _, rfl, ?_⟩
  obtain ⟨a, ha, hpayload⟩ := hown.2 [7] true []
    [⟨1, .woken (some (some [0x88, 0x13, 0, 0])), none, true, 0⟩] (.woken none) _
    (by rw [hreturned]; decide) rfl
  cases List.mem_singleton.mp ha
  exact hpayload

/-- The TX_DONE of a transmission that timed out wakes the second call, and `send` reports it as
transmitted. -/
theorem late_txDone_completes :
    ∃ s, run (step .usb) {} [.register (txRequest [7]), .write, .reach, .timeout,
        .register (txRequest [8]), .write, .reach, .answer true cmdTxDone [0x88, 0x13, 0, 0],
        .setEvent, .wake] = some s ∧
      s.answered = [(0, cmdTxDone, [0x88, 0x13, 0, 0])] ∧
      ⟨1, txRequest [8], .woken (some (some [0x88, 0x13, 0, 0]))⟩ ∈ s.returned ∧
      (send true [] [⟨1, .woken (some (some [0x88, 0x13, 0, 0])), none, true, 0⟩]
        (.woken none)).isSome = true :=
  ⟨_, rfl, rfl, by decide +kernel, rfl⟩

end Commands

end OpenHop.Modem
