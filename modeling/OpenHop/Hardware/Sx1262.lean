import Mathlib.Algebra.Order.Ring.Rat
import Mathlib.Data.BitVec

/-! # The SX1262 driver and its interrupts

The interrupt handler reads and clears the status of the chip. It keeps the bits that a
packet ends with in a latch, stores the whole status as the last one and wakes the
background task on a terminal bit, unless a transmission uses the buffer.
-/

namespace OpenHop.Sx1262

abbrev IrqStatus := BitVec 16

def irqTxDone : IrqStatus := 0x0001
def irqRxDone : IrqStatus := 0x0002
def irqPreambleDetected : IrqStatus := 0x0004
def irqSyncWordValid : IrqStatus := 0x0008
def irqHeaderValid : IrqStatus := 0x0010
def irqHeaderErr : IrqStatus := 0x0020
def irqCrcErr : IrqStatus := 0x0040
def irqCadDone : IrqStatus := 0x0080
def irqCadDetected : IrqStatus := 0x0100
def irqTimeout : IrqStatus := 0x0200

def rxPacketIrqMask : IrqStatus := irqRxDone ||| irqCrcErr ||| irqHeaderErr

def receptionMarkers : IrqStatus := irqPreambleDetected ||| irqSyncWordValid ||| irqHeaderValid

def terminalInterrupts : IrqStatus := irqRxDone ||| irqCrcErr ||| irqTimeout ||| irqHeaderErr

def getRxIrqMask : IrqStatus :=
  irqRxDone ||| irqCrcErr ||| irqTimeout ||| irqPreambleDetected ||| irqSyncWordValid |||
    irqHeaderValid ||| irqHeaderErr

/-- The status has a bit of the mask. -/
def carries (irq mask : IrqStatus) : Bool := irq &&& mask != 0

theorem carries_or (a b mask : IrqStatus) :
    carries (a ||| b) mask = (carries a mask || carries b mask) := by
  rw [Bool.eq_iff_iff]
  simp [carries, BitVec.and_or_distrib_right, BitVec.or_eq_zero_iff, ← not_and_or]

theorem carries_and {mask part : IrqStatus} (h : mask &&& part = part) (irq : IrqStatus) :
    carries (irq &&& mask) part = carries irq part := by
  rw [carries, carries, BitVec.and_assoc, h]

theorem carries_and_of_false {irq mask : IrqStatus} (h : carries irq mask = false)
    (other : IrqStatus) : carries (irq &&& other) mask = false := by
  have hzero : irq &&& mask = 0 := by simpa [carries] using h
  have hand : (irq &&& other) &&& mask = (irq &&& mask) &&& other := by
    rw [BitVec.and_assoc, BitVec.and_assoc, BitVec.and_comm other mask]
  rw [carries, hand, hzero]
  simp

theorem carries_rxDone (irq : IrqStatus) : carries irq irqRxDone = irq.getLsbD 1 := by
  rw [carries, show irqRxDone = BitVec.twoPow 16 1 from rfl, BitVec.and_twoPow]
  cases irq.getLsbD 1 <;> rfl

theorem not_carries_and_not {irq : IrqStatus} (h : carries irq irqRxDone = true)
    (pending : IrqStatus) : carries (pending &&& ~~~irq) irqRxDone = false := by
  rw [carries_rxDone] at h ⊢
  simp [h]

theorem carries_zero (mask : IrqStatus) : carries 0 mask = false := by
  simp [carries]

theorem ne_zero_of_carries {irq mask : IrqStatus} (h : carries irq mask = true) : irq ≠ 0 := by
  rintro rfl
  rw [carries_zero] at h
  cases h

theorem carries_of_part {irq mask part : IrqStatus} (hpart : mask &&& part = part)
    (h : carries irq part = true) : carries irq mask = true := by
  by_contra hmask
  have hzero : irq &&& mask = 0 := by simpa [carries] using hmask
  have hirq : irq &&& part = 0 := by
    rw [← hpart, ← BitVec.and_assoc, hzero]
    simp
  simp [carries, hirq] at h

structure Metrics where
  rssi : ℤ
  snr : ℚ
  signalRssi : ℤ

structure Driver where
  pendingRxIrqStatus : IrqStatus := 0
  lastIrqStatus : IrqStatus := 0
  txDoneEvent : Bool := false
  rxDoneEvent : Bool := false
  cadEvent : Bool := false
  lastCadDetected : Bool := false
  lastCadIrqStatus : IrqStatus := 0
  rxActivityAt : ℚ := 0
  rxHeaderAt : ℚ := 0
  txBufferBusy : Bool := false
  crcErrorCount : ℕ := 0
  metrics : Metrics := ⟨-99, 0, -99⟩

/-- What the handler gets from the chip: reading the status raises, or it is read and clearing it
raises or not. -/
inductive IrqRead where
  | failed
  | status (irq : IrqStatus) (clearFails : Bool)

namespace Driver

def interruptFailed (d : Driver) : Driver :=
  { d with txDoneEvent := true, rxDoneEvent := d.rxDoneEvent || !d.txBufferBusy }

/-- The bits that a packet ends with are kept before the chip's status is cleared. -/
def latch (d : Driver) (irq : IrqStatus) : Driver :=
  if carries irq rxPacketIrqMask then
    { d with pendingRxIrqStatus := d.pendingRxIrqStatus ||| (irq &&& rxPacketIrqMask) }
  else d

def noteStatus (d : Driver) (irq : IrqStatus) : Driver :=
  { d with
    lastIrqStatus := if irq ≠ 0 then irq else d.lastIrqStatus
    txDoneEvent := d.txDoneEvent || carries irq irqTxDone }

def noteCad (d : Driver) (irq : IrqStatus) : Driver :=
  if carries irq (irqCadDetected ||| irqCadDone) then
    { d with
      lastCadDetected := carries irq irqCadDetected, lastCadIrqStatus := irq, cadEvent := true }
  else d

/-- A header restarts the clock of a reception, and a terminal bit ends it. -/
def noteReception (d : Driver) (now : ℚ) (irq : IrqStatus) : Driver :=
  let d :=
    if carries irq receptionMarkers then
      if carries irq irqHeaderValid then
        { d with
          rxActivityAt := if d.rxHeaderAt ≤ 0 then now else d.rxActivityAt, rxHeaderAt := now }
      else if d.rxActivityAt ≤ 0 then { d with rxActivityAt := now }
      else d
    else d
  if carries irq terminalInterrupts then { d with rxActivityAt := 0, rxHeaderAt := 0 } else d

def noteRx (d : Driver) (now : ℚ) (irq : IrqStatus) : Driver :=
  if carries irq getRxIrqMask then
    let d := d.noteReception now irq
    if carries irq terminalInterrupts ∧ d.txBufferBusy = false then { d with rxDoneEvent := true }
    else d
  else d

def handleInterrupt (d : Driver) (now : ℚ) : IrqRead → Driver
  | .failed => d.interruptFailed
  | .status irq clearFails =>
    let d := d.latch irq
    if irq ≠ 0 ∧ clearFails then d.interruptFailed
    else ((d.noteStatus irq).noteCad irq).noteRx now irq

/-- What a read of the receive buffer gives. -/
inductive BufferRead (α : Type) where
  | failed
  | empty
  | packet (data : α)

def BufferRead.data? {α : Type} : BufferRead α → Option α
  | .packet data => some data
  | _ => none

variable {α : Type}

/-- The locked part of `_drain_pending_rx_irq_before_buffer_reuse` and what it passes on. -/
def drainSection (d : Driver) (read : BufferRead α) : Driver × Option α :=
  let pending := d.pendingRxIrqStatus
  if pending = 0 then (d, none)
  else if carries pending irqCrcErr then
    ({ d with crcErrorCount := d.crcErrorCount + 1, pendingRxIrqStatus := 0 }, none)
  else
    ({ d with pendingRxIrqStatus := 0 },
      if carries pending irqRxDone then read.data? else none)

/-- The locked part of the background task up to its last read, and what it will pass on. The
metrics are none if a read before them raises. -/
def rxSection (d : Driver) (metrics : Option Metrics) (read : BufferRead α) : Driver × Option α :=
  let irq := d.lastIrqStatus
  let d := { d with
    pendingRxIrqStatus := d.pendingRxIrqStatus &&& ~~~(irq &&& rxPacketIrqMask) }
  if carries irq irqCrcErr then ({ d with crcErrorCount := d.crcErrorCount + 1 }, none)
  else if carries irq irqRxDone then
    match metrics with
    | none => (d, none)
    | some metrics => ({ d with metrics }, read.data?)
  else (d, none)

/-- The parts of the driver that the two consumers read. -/
structure SameRx (d d' : Driver) : Prop where
  pending : d'.pendingRxIrqStatus = d.pendingRxIrqStatus
  last : d'.lastIrqStatus = d.lastIrqStatus
  event : d'.rxDoneEvent = d.rxDoneEvent
  busy : d'.txBufferBusy = d.txBufferBusy

theorem noteCad_same (d : Driver) (irq : IrqStatus) : SameRx d (d.noteCad irq) := by
  unfold noteCad
  split <;> exact ⟨rfl, rfl, rfl, rfl⟩

theorem noteReception_same (d : Driver) (now : ℚ) (irq : IrqStatus) :
    SameRx d (d.noteReception now irq) := by
  unfold noteReception
  dsimp only
  split_ifs <;> exact ⟨rfl, rfl, rfl, rfl⟩

theorem latch_pending (d : Driver) (irq : IrqStatus) :
    (d.latch irq).pendingRxIrqStatus = d.pendingRxIrqStatus ||| (irq &&& rxPacketIrqMask) := by
  unfold latch
  split
  · rfl
  · rename_i hnone
    have hzero : irq &&& rxPacketIrqMask = 0 := by simpa [carries] using hnone
    rw [hzero]
    simp

theorem noteRx_spec (d : Driver) (now : ℚ) (irq : IrqStatus) :
    (d.noteRx now irq).pendingRxIrqStatus = d.pendingRxIrqStatus ∧
      (d.noteRx now irq).lastIrqStatus = d.lastIrqStatus ∧
      (d.noteRx now irq).rxDoneEvent =
        (d.rxDoneEvent || (carries irq terminalInterrupts && !d.txBufferBusy)) ∧
      (d.noteRx now irq).txBufferBusy = d.txBufferBusy := by
  obtain ⟨hpending, hlast, hevent, hbusy⟩ := d.noteReception_same now irq
  unfold noteRx
  dsimp only
  rw [hbusy]
  split
  · split
    · rename_i hwake
      exact ⟨hpending, hlast, by simp [hwake.1, hwake.2], rfl⟩
    · rename_i hwake
      refine ⟨hpending, hlast, hevent.trans ?_, hbusy⟩
      cases hterminal : carries irq terminalInterrupts with
      | false => simp
      | true => simp [show d.txBufferBusy = true by simpa [hterminal] using hwake]
  · rename_i hnone
    have hterminal : carries irq terminalInterrupts = false :=
      Bool.eq_false_iff.mpr fun h => hnone (carries_of_part (by decide) h)
    exact ⟨rfl, rfl, by simp [hterminal], rfl⟩

/-- A status that is read and cleared is latched in part and stored as the last one, and a terminal
bit sets the event unless the buffer is in use. -/
theorem handleInterrupt_spec (d : Driver) (now : ℚ) (irq : IrqStatus) :
    (d.handleInterrupt now (.status irq false)).pendingRxIrqStatus =
        d.pendingRxIrqStatus ||| (irq &&& rxPacketIrqMask) ∧
      (d.handleInterrupt now (.status irq false)).lastIrqStatus =
        (if irq ≠ 0 then irq else d.lastIrqStatus) ∧
      (d.handleInterrupt now (.status irq false)).rxDoneEvent =
        (d.rxDoneEvent || (carries irq terminalInterrupts && !d.txBufferBusy)) ∧
      (d.handleInterrupt now (.status irq false)).txBufferBusy = d.txBufferBusy := by
  have hsame : (d.latch irq).lastIrqStatus = d.lastIrqStatus ∧
      (d.latch irq).rxDoneEvent = d.rxDoneEvent ∧ (d.latch irq).txBufferBusy = d.txBufferBusy := by
    unfold latch
    split <;> exact ⟨rfl, rfl, rfl⟩
  have hhandled : d.handleInterrupt now (.status irq false) =
      (((d.latch irq).noteStatus irq).noteCad irq).noteRx now irq := if_neg (by simp)
  obtain ⟨hpending, hlast, hevent, hbusy⟩ :=
    noteRx_spec (((d.latch irq).noteStatus irq).noteCad irq) now irq
  obtain ⟨hpending', hlast', hevent', hbusy'⟩ := noteCad_same ((d.latch irq).noteStatus irq) irq
  rw [hhandled, hpending, hlast, hevent, hbusy, hpending', hlast', hevent', hbusy']
  refine ⟨d.latch_pending irq, ?_, ?_, hsame.2.2⟩
  · simp only [noteStatus, hsame.1]
  · simp only [noteStatus, hsame.2.1, hsame.2.2]

theorem drainSection_spec (d : Driver) (read : BufferRead α) :
    (d.drainSection read).1.pendingRxIrqStatus = 0 ∧
      (d.drainSection read).1.lastIrqStatus = d.lastIrqStatus ∧
      (d.drainSection read).1.rxDoneEvent = d.rxDoneEvent := by
  unfold drainSection
  dsimp only
  split
  · rename_i hzero
    exact ⟨hzero, rfl, rfl⟩
  · split <;> exact ⟨rfl, rfl, rfl⟩

theorem drainSection_data (d : Driver) (read : BufferRead α) :
    (d.drainSection read).2 =
      if carries d.pendingRxIrqStatus irqRxDone ∧ carries d.pendingRxIrqStatus irqCrcErr = false
      then read.data? else none := by
  unfold drainSection
  dsimp only
  split
  · rename_i hzero
    rw [hzero, carries_zero]
    rfl
  · cases hcrc : carries d.pendingRxIrqStatus irqCrcErr <;> simp

theorem rxSection_spec (d : Driver) (metrics : Option Metrics) (read : BufferRead α) :
    (d.rxSection metrics read).1.pendingRxIrqStatus =
        d.pendingRxIrqStatus &&& ~~~(d.lastIrqStatus &&& rxPacketIrqMask) ∧
      (d.rxSection metrics read).1.lastIrqStatus = d.lastIrqStatus ∧
      (d.rxSection metrics read).1.rxDoneEvent = d.rxDoneEvent := by
  unfold rxSection
  dsimp only
  split
  · exact ⟨rfl, rfl, rfl⟩
  split
  · split <;> exact ⟨rfl, rfl, rfl⟩
  · exact ⟨rfl, rfl, rfl⟩

/-- The background task passes on what it reads if the last status has a packet and no CRC error. -/
theorem rxSection_data (d : Driver) (metrics : Metrics) (read : BufferRead α) :
    (d.rxSection (some metrics) read).2 =
      if carries d.lastIrqStatus irqRxDone ∧ carries d.lastIrqStatus irqCrcErr = false
      then read.data? else none := by
  unfold rxSection
  dsimp only
  cases hcrc : carries d.lastIrqStatus irqCrcErr with
  | true => simp
  | false => cases hrx : carries d.lastIrqStatus irqRxDone <;> simp

/-- The handler sets the event for `TX_DONE`, and when it fails. -/
theorem handleInterrupt_txDoneEvent (d : Driver) (now : ℚ) (irq : IrqStatus) (clearFails : Bool) :
    (d.handleInterrupt now (.status irq clearFails)).txDoneEvent =
      (d.txDoneEvent || carries irq irqTxDone || (irq != 0 && clearFails)) := by
  have hlatch : (d.latch irq).txDoneEvent = d.txDoneEvent := by
    unfold latch
    split <;> rfl
  have hcad (d : Driver) : (d.noteCad irq).txDoneEvent = d.txDoneEvent := by
    unfold noteCad
    split <;> rfl
  have hreception (d : Driver) : (d.noteReception now irq).txDoneEvent = d.txDoneEvent := by
    simp only [noteReception]
    split_ifs <;> rfl
  have hrx (d : Driver) : (d.noteRx now irq).txDoneEvent = d.txDoneEvent := by
    simp only [noteRx]
    split_ifs
    · exact hreception d
    · exact hreception d
    · rfl
  simp only [handleInterrupt]
  split
  · rename_i hfails
    rw [hfails.2, bne_iff_ne.mpr hfails.1]
    simp [interruptFailed]
  · rename_i hok
    rw [hrx, hcad, noteStatus, hlatch]
    cases clearFails <;> simp_all

/-! None of them touches the flag. -/

theorem handleInterrupt_txBufferBusy (d : Driver) (now : ℚ) (read : IrqRead) :
    (d.handleInterrupt now read).txBufferBusy = d.txBufferBusy := by
  cases read with
  | failed => rfl
  | status irq clearFails =>
    cases clearFails with
    | false => exact (d.handleInterrupt_spec now irq).2.2.2
    | true =>
      have hlatch : (d.latch irq).txBufferBusy = d.txBufferBusy := by
        unfold latch
        split <;> rfl
      by_cases hzero : irq = 0
      · have hsame : d.handleInterrupt now (.status irq true) =
            d.handleInterrupt now (.status irq false) := by
          simp [handleInterrupt, hzero]
        rw [hsame]
        exact (d.handleInterrupt_spec now irq).2.2.2
      · have hfailed : d.handleInterrupt now (.status irq true) = (d.latch irq).interruptFailed :=
          if_pos ⟨hzero, rfl⟩
        rw [hfailed]
        exact hlatch

theorem drainSection_txBufferBusy (d : Driver) (read : BufferRead α) :
    (d.drainSection read).1.txBufferBusy = d.txBufferBusy := by
  unfold drainSection
  dsimp only
  split_ifs <;> rfl

theorem rxSection_txBufferBusy (d : Driver) (metrics : Option Metrics) (read : BufferRead α) :
    (d.rxSection metrics read).1.txBufferBusy = d.txBufferBusy := by
  unfold rxSection
  dsimp only
  split_ifs
  · rfl
  · cases metrics <;> rfl
  · rfl

/-! Only the background task writes the metrics. -/

theorem handleInterrupt_metrics (d : Driver) (now : ℚ) (read : IrqRead) :
    (d.handleInterrupt now read).metrics = d.metrics := by
  cases read with
  | failed => rfl
  | status irq clearFails =>
    have hlatch : (d.latch irq).metrics = d.metrics := by
      unfold latch
      split <;> rfl
    have hcad : (((d.latch irq).noteStatus irq).noteCad irq).metrics = d.metrics := by
      unfold noteCad
      split <;> exact hlatch
    have hreception (d : Driver) : (d.noteReception now irq).metrics = d.metrics := by
      simp only [noteReception]
      split_ifs <;> rfl
    simp only [handleInterrupt]
    split
    · exact hlatch
    · simp only [noteRx]
      split_ifs
      · exact (hreception _).trans hcad
      · exact (hreception _).trans hcad
      · exact hcad

theorem drainSection_metrics (d : Driver) (read : BufferRead α) :
    (d.drainSection read).1.metrics = d.metrics := by
  unfold drainSection
  dsimp only
  split_ifs <;> rfl

theorem rxSection_metrics (d : Driver) (metrics : Metrics) (read : BufferRead α) :
    (d.rxSection (some metrics) read).1.metrics =
      if carries d.lastIrqStatus irqRxDone && !carries d.lastIrqStatus irqCrcErr then metrics
      else d.metrics := by
  unfold rxSection
  dsimp only
  cases hcrc : carries d.lastIrqStatus irqCrcErr <;>
    cases hrx : carries d.lastIrqStatus irqRxDone <;> rfl

end Driver

end OpenHop.Sx1262
