import OpenHop.Hardware.ListenBeforeTalk
import OpenHop.Machine.Runs

/-! # Completion of a transmission

After `setTx` a send waits until it sees that the chip has sent the packet: through the
event that the interrupt handler sets, or by a poll of the chip's status.
-/

namespace OpenHop.Sx1262

open Machine

/-- The timeout of a packet's airtime, with a margin. -/
def completionTimeoutSeconds (radio : RadioSettings) (length : ℕ) : ℚ :=
  (calculateTxTimeout radio length).1 / 1000 + 1 / 2

theorem completionTimeoutSeconds_pos (radio : RadioSettings) (length : ℕ) :
    0 < completionTimeoutSeconds radio length := by
  have hceil : (0 : ℤ) ≤ (calculateTxTimeout radio length).1 - 1000 := by
    simp only [calculateTxTimeout, add_sub_cancel_right]
    exact Int.ceil_nonneg calculateLoraAirtimeMs_pos.le
  have hms : (0 : ℚ) ≤ (calculateTxTimeout radio length).1 := by
    exact_mod_cast (by omega : (0 : ℤ) ≤ (calculateTxTimeout radio length).1)
  unfold completionTimeoutSeconds
  positivity

/-- A read of the chip's status. -/
inductive ChipRead where
  | raises
  | glitch
  | actual
  deriving DecidableEq

def ChipRead.value (chipIrq : IrqStatus) : ChipRead → Option IrqStatus
  | .raises => none
  | .glitch => some 0xFFFF
  | .actual => some chipIrq

/-- Where the send is. In a sleep and in a wait other callbacks of the event loop may run. -/
inductive TxPc where
  | busyCheck (busyTimeout : ℕ)
  | busySleep (busyTimeout : ℕ)
  | busyRecheck
  | initialStatus (attempt : ℕ)
  | initialSleep (attempt : ℕ)
  | loop (startTime nextPoll : ℚ)
  /-- `wait_for` with a timeout, which is positive or not. -/
  | waiting (startTime nextPoll wakeAt : ℚ) (positive : Bool)
  | poll (startTime nextPoll : ℚ)
  | finalize
  | returned
  | raised
  deriving DecidableEq

def TxPc.awaiting : TxPc → Bool
  | .busySleep _ | .initialSleep _ | .waiting .. => true
  | _ => false

/-- The send is in `_wait_for_transmission_complete`. -/
def TxPc.inLoop : TxPc → Bool
  | .loop .. | .waiting .. | .poll .. => true
  | _ => false

/-- A transmission. `handler` is a run of the interrupt handler that has read the status and not
cleared it yet; `txDoneAt` is when the chip has raised `TX_DONE` for this transmission. -/
structure Transmission where
  driver : Driver
  chipIrq : IrqStatus
  now : ℚ
  pc : TxPc := .busyCheck 0
  handler : Option IrqStatus := none
  deadline : Option ℚ := none
  txDoneAt : Option ℚ := none

inductive TxAction where
  | tick (seconds : ℚ≥0)
  /-- The chip has sent the packet. -/
  | txDone
  | raise (bits : IrqStatus)
  | irqRead (read : ChipRead)
  | irqClear (fails : Bool)
  /-- `none` if the check raises. -/
  | busy (answer : Option Bool)
  | wake
  | initialStatus (read : ChipRead) (clearFails : Bool)
  | loop
  | eventSeen
  | waitTimeout
  | poll (read : ChipRead)
  | finalize (read : ChipRead) (clearFails : Bool)

namespace Transmission

def beginWait (s : Transmission) (timeoutSeconds : ℚ) : Transmission :=
  { s with pc := .loop s.now s.now, deadline := some (s.now + timeoutSeconds) }

/-- The rest of the segment after a status is read, right after the command was accepted. -/
def afterInitialStatus (s : Transmission) (timeoutSeconds : ℚ) (attempt : ℕ) (irq : IrqStatus)
    (clearFails : Bool) : Transmission :=
  if irq = 0xFFFF then { s with pc := .initialSleep attempt }
  else if carries irq irqTimeout then { s with pc := .raised }
  else if irq ≠ 0 then
    -- Whatever is there is cleared, a `TX_DONE` too.
    if clearFails then { s with pc := .raised }
    else { s with chipIrq := s.chipIrq &&& ~~~irq }.beginWait timeoutSeconds
  else s.beginWait timeoutSeconds

def afterPoll (s : Transmission) (startTime nextPoll : ℚ) (irq : IrqStatus) : Transmission :=
  if irq = 0xFFFF then { s with pc := .loop startTime nextPoll }
  else if carries irq irqTxDone then { s with pc := .finalize }
  else if carries irq irqTimeout then { s with pc := .raised }
  else { s with pc := .loop startTime nextPoll }

/-- One step of time, of the chip, of the interrupt handler or, while the handler does not run, of
the send. -/
def step (timeoutSeconds : ℚ) (s : Transmission) : TxAction → Option Transmission
  | .tick seconds => some { s with now := s.now + seconds }
  | .txDone =>
    if s.txDoneAt = none then
      some { s with chipIrq := s.chipIrq ||| irqTxDone, txDoneAt := some s.now }
    else none
  | .raise bits => some { s with chipIrq := s.chipIrq ||| (bits &&& ~~~irqTxDone) }
  | .irqRead read =>
    if s.handler = none ∧ s.pc.awaiting then
      match read.value s.chipIrq with
      | none => some { s with driver := s.driver.handleInterrupt s.now .failed }
      | some irq => some { s with handler := some irq }
    else none
  | .irqClear fails =>
    match s.handler with
    | none => none
    | some irq =>
      some { s with
        driver := s.driver.handleInterrupt s.now (.status irq fails)
        chipIrq := if irq ≠ 0 ∧ fails = false then 0 else s.chipIrq
        handler := none }
  | .busy answer =>
    match s.handler, s.pc, answer with
    | none, .busyCheck _, none => some { s with pc := .raised }
    | none, .busyCheck n, some busy =>
      some { s with pc := if busy ∧ n < 50 then .busySleep n else .busyRecheck }
    | none, .busyRecheck, some false => some { s with pc := .initialStatus 0 }
    | none, .busyRecheck, _ => some { s with pc := .raised }
    | _, _, _ => none
  | .wake =>
    match s.handler, s.pc with
    | none, .busySleep n => some { s with pc := .busyCheck (n + 1) }
    | none, .initialSleep attempt =>
      some (if attempt + 1 < 3 then { s with pc := .initialStatus (attempt + 1) }
        else s.beginWait timeoutSeconds)
    | _, _ => none
  | .initialStatus read clearFails =>
    match s.handler, s.pc with
    | none, .initialStatus attempt =>
      match read.value s.chipIrq with
      | none => some { s with pc := .raised }
      | some irq => some (s.afterInitialStatus timeoutSeconds attempt irq clearFails)
    | _, _ => none
  | .loop =>
    match s.handler, s.pc with
    | none, .loop startTime nextPoll =>
      let remaining := timeoutSeconds - (s.now - startTime)
      if remaining ≤ 0 then some { s with pc := .raised }
      else
        let waitFor := min remaining (max 0 (nextPoll - s.now))
        some { s with pc := .waiting startTime nextPoll (s.now + waitFor) (decide (0 < waitFor)) }
    | _, _ => none
  | .eventSeen =>
    match s.handler, s.pc with
    | none, .waiting _ _ _ true =>
      if s.driver.txDoneEvent then some { s with pc := .finalize } else none
    | _, _ => none
  | .waitTimeout =>
    match s.handler, s.pc with
    | none, .waiting startTime nextPoll wakeAt _ =>
      if wakeAt ≤ s.now then some { s with pc := .poll startTime nextPoll } else none
    | _, _ => none
  | .poll read =>
    match s.handler, s.pc with
    | none, .poll startTime nextPoll =>
      if nextPoll ≤ s.now then
        match read.value s.chipIrq with
        | none => some { s with pc := .loop startTime (s.now + 1 / 20) }
        | some irq => some (s.afterPoll startTime (s.now + 1 / 20) irq)
      else some { s with pc := .loop startTime nextPoll }
    | _, _ => none
  | .finalize read clearFails =>
    match s.handler, s.pc with
    | none, .finalize =>
      some { s with pc := if read = .raises ∨ clearFails then .raised else .returned }
    | _, _ => none

variable {timeoutSeconds : ℚ} {s t : Transmission} {a : TxAction}

/-- Time passes only where the send waits. The chip raises `TX_DONE` while the send waits for it,
and not in the middle of the handler. Until then the handler reads and clears the true status, and
from then on so do the polls. A wait does not time out with the event set, and nothing fails after
the completion is seen. -/
def Orderly (s : Transmission) : TxAction → Prop
  | .tick _ => s.pc.awaiting = true
  | .txDone => s.pc.inLoop = true ∧ s.handler = none
  | .irqRead read => read = .actual ∨ s.txDoneAt ≠ none
  | .irqClear fails => fails = false ∨ s.txDoneAt ≠ none
  | .waitTimeout => s.driver.txDoneEvent = false
  | .poll read => (read = .actual ∧ s.chipIrq ≠ 0xFFFF) ∨ s.txDoneAt = none
  | .finalize read clearFails => read ≠ .raises ∧ clearFails = false
  | _ => True

instance (s : Transmission) : (a : TxAction) → Decidable (s.Orderly a)
  | .tick _ => inferInstanceAs (Decidable (_ = true))
  | .txDone => inferInstanceAs (Decidable (_ ∧ _))
  | .irqRead _ => inferInstanceAs (Decidable (_ ∨ _))
  | .irqClear _ => inferInstanceAs (Decidable (_ ∨ _))
  | .waitTimeout => inferInstanceAs (Decidable (_ = false))
  | .poll _ => inferInstanceAs (Decidable (_ ∨ _))
  | .finalize .. => inferInstanceAs (Decidable (_ ∧ _))
  | .raise _ | .busy _ | .wake | .initialStatus .. | .loop | .eventSeen => isTrue trivial

def Seen (s : Transmission) : Prop :=
  s.driver.txDoneEvent = true ∨ carries s.chipIrq irqTxDone = true ∨
    ∃ irq, s.handler = some irq ∧ carries irq irqTxDone = true

/-- What can be seen of a transmission. -/
structure Observable (s : Transmission) : Prop where
  unsent : s.txDoneAt = none → ¬ s.Seen
  sent : s.txDoneAt ≠ none → s.pc.inLoop = true → s.Seen
  handled : ∀ irq, s.handler = some irq → carries s.chipIrq irqTxDone = true →
    carries irq irqTxDone = true

/-- The send waits, and if the packet was sent, this was after the last poll. -/
structure Looping (timeoutSeconds startTime nextPoll : ℚ) (s : Transmission) : Prop where
  deadline : s.deadline = some (startTime + timeoutSeconds)
  nextPoll_le : nextPoll ≤ s.now + 1 / 20
  late : ∀ sentAt, s.txDoneAt = some sentAt → nextPoll - 1 / 20 ≤ sentAt

def Placed (timeoutSeconds : ℚ) (s : Transmission) : TxPc → Prop
  | .busyCheck _ | .busySleep _ | .busyRecheck | .initialStatus _ | .initialSleep _ =>
    s.txDoneAt = none
  | .loop startTime nextPoll =>
    s.Looping timeoutSeconds startTime nextPoll ∧
      (s.now < nextPoll ∨ s.now < startTime + timeoutSeconds)
  | .waiting startTime nextPoll _ _ => s.Looping timeoutSeconds startTime nextPoll
  | .poll startTime nextPoll =>
    s.Looping timeoutSeconds startTime nextPoll ∧ s.driver.txDoneEvent = false ∧ s.handler = none
  | .finalize | .returned =>
    ∃ sentAt deadline, s.txDoneAt = some sentAt ∧ s.deadline = some deadline
  | .raised => ∀ sentAt, s.txDoneAt = some sentAt →
      ∃ deadline, s.deadline = some deadline ∧ deadline - 1 / 20 < sentAt

structure Followed (timeoutSeconds : ℚ) (s : Transmission) : Prop where
  observable : s.Observable
  placed : s.Placed timeoutSeconds s.pc

theorem carries_txDone (irq : IrqStatus) : carries irq irqTxDone = irq.getLsbD 0 := by
  rw [carries, show irqTxDone = BitVec.twoPow 16 0 from rfl, BitVec.and_twoPow]
  cases irq.getLsbD 0 <;> rfl

theorem carries_raise (irq bits : IrqStatus) :
    carries (irq ||| (bits &&& ~~~irqTxDone)) irqTxDone = carries irq irqTxDone := by
  rw [carries_or, carries_txDone (bits &&& ~~~irqTxDone)]
  simp [irqTxDone]

theorem Observable.of_same (hs : s.Observable) (hdriver : t.driver = s.driver)
    (hchip : t.chipIrq = s.chipIrq) (hhandler : t.handler = s.handler)
    (hsent : t.txDoneAt = s.txDoneAt) (hloop : t.pc.inLoop = true → s.pc.inLoop = true) :
    t.Observable := by
  have hseen : t.Seen ↔ s.Seen := by rw [Seen, Seen, hdriver, hchip, hhandler]
  constructor
  · rw [hsent, hseen]
    exact hs.unsent
  · rw [hsent, hseen]
    exact fun hne hpc => hs.sent hne (hloop hpc)
  · rw [hhandler, hchip]
    exact hs.handled

theorem Observable.chip_of_unsent (hs : s.Observable) (hnone : s.txDoneAt = none) :
    carries s.chipIrq irqTxDone = false :=
  Bool.eq_false_iff.mpr fun h => hs.unsent hnone (Or.inr (Or.inl h))

theorem Observable.of_unsent (hs : s.Observable) (hnone : s.txDoneAt = none)
    (hdriver : t.driver = s.driver) (hchip : carries t.chipIrq irqTxDone = false)
    (hhandler : t.handler = s.handler) (hsent : t.txDoneAt = none) : t.Observable := by
  have hunseen := hs.unsent hnone
  refine ⟨fun _ => ?_, fun hne => absurd hsent hne, fun irq _ hcarries => ?_⟩
  · rintro (hevent | hcarries | hirq)
    · exact hunseen (Or.inl (hdriver ▸ hevent))
    · rw [hchip] at hcarries
      cases hcarries
    · exact hunseen (Or.inr (Or.inr (hhandler ▸ hirq)))
  · rw [hchip] at hcarries
    cases hcarries

theorem Looping.of_same {startTime nextPoll : ℚ} (h : s.Looping timeoutSeconds startTime nextPoll)
    (hnow : t.now = s.now) (hdeadline : t.deadline = s.deadline)
    (hsent : t.txDoneAt = s.txDoneAt) : t.Looping timeoutSeconds startTime nextPoll :=
  ⟨hdeadline.trans h.deadline, hnow ▸ h.nextPoll_le, hsent ▸ h.late⟩

theorem Placed.of_same {pc : TxPc} (h : s.Placed timeoutSeconds pc) (hnow : t.now = s.now)
    (hdeadline : t.deadline = s.deadline) (hsent : t.txDoneAt = s.txDoneAt)
    (hpoll : ∀ startTime nextPoll, pc = .poll startTime nextPoll →
      t.driver.txDoneEvent = s.driver.txDoneEvent ∧ t.handler = s.handler) :
    t.Placed timeoutSeconds pc := by
  cases pc with
  | loop startTime nextPoll => exact ⟨h.1.of_same hnow hdeadline hsent, hnow ▸ h.2⟩
  | waiting startTime nextPoll wakeAt positive => exact Looping.of_same h hnow hdeadline hsent
  | poll startTime nextPoll =>
    obtain ⟨hevent, hhandler⟩ := hpoll startTime nextPoll rfl
    exact ⟨h.1.of_same hnow hdeadline hsent, hevent.trans h.2.1, hhandler.trans h.2.2⟩
  | finalize => rwa [Placed, hsent, hdeadline]
  | returned => rwa [Placed, hsent, hdeadline]
  | raised => rwa [Placed, hsent, hdeadline]
  | _ => exact hsent.trans h

theorem Followed.tick (hs : s.Followed timeoutSeconds) {seconds : ℚ≥0}
    (hok : s.Orderly (.tick seconds)) :
    Followed timeoutSeconds { s with now := s.now + seconds } := by
  refine ⟨hs.observable.of_same rfl rfl rfl rfl id, ?_⟩
  have hplaced := hs.placed
  have hawaiting : s.pc.awaiting = true := hok
  dsimp only
  cases hpc : s.pc <;> rw [hpc] at hplaced hawaiting
  case busySleep n => exact hplaced
  case initialSleep attempt => exact hplaced
  case waiting startTime nextPoll wakeAt positive =>
    have hpos : (0 : ℚ) ≤ seconds := NNRat.coe_nonneg _
    have hnext := hplaced.nextPoll_le
    exact ⟨hplaced.deadline, by dsimp only; linarith, hplaced.late⟩
  all_goals cases hawaiting

theorem Looping.txDone {startTime nextPoll : ℚ} (h : s.Looping timeoutSeconds startTime nextPoll)
    (hnow : t.now = s.now) (hdeadline : t.deadline = s.deadline)
    (hsent : t.txDoneAt = some s.now) : t.Looping timeoutSeconds startTime nextPoll := by
  refine ⟨hdeadline.trans h.deadline, hnow ▸ h.nextPoll_le, fun sentAt hsentAt => ?_⟩
  cases hsent.symm.trans hsentAt
  have := h.nextPoll_le
  linarith

theorem Followed.txDone (hs : s.Followed timeoutSeconds) (hok : s.Orderly .txDone) :
    Followed timeoutSeconds
      { s with chipIrq := s.chipIrq ||| irqTxDone, txDoneAt := some s.now } := by
  obtain ⟨hloop, hhandler⟩ := hok
  have hcarries : carries (s.chipIrq ||| irqTxDone) irqTxDone = true := by
    rw [carries_or]
    exact Bool.or_eq_true_iff.mpr (Or.inr (by decide))
  constructor
  · refine ⟨nofun, fun _ _ => Or.inr (Or.inl hcarries), fun irq hirq => ?_⟩
    rw [hhandler] at hirq
    cases hirq
  · have hplaced := hs.placed
    dsimp only
    cases hpc : s.pc <;> rw [hpc] at hplaced hloop
    case loop startTime nextPoll => exact ⟨hplaced.1.txDone rfl rfl rfl, hplaced.2⟩
    case waiting startTime nextPoll wakeAt positive => exact Looping.txDone hplaced rfl rfl rfl
    case poll startTime nextPoll => exact ⟨hplaced.1.txDone rfl rfl rfl, hplaced.2⟩
    all_goals cases hloop

theorem Followed.raise (hs : s.Followed timeoutSeconds) (bits : IrqStatus) :
    Followed timeoutSeconds { s with chipIrq := s.chipIrq ||| (bits &&& ~~~irqTxDone) } := by
  have hseen : Seen { s with chipIrq := s.chipIrq ||| (bits &&& ~~~irqTxDone) } ↔ s.Seen := by
    simp only [Seen, carries_raise]
  refine ⟨⟨?_, ?_, ?_⟩, hs.placed.of_same rfl rfl rfl fun _ _ _ => ⟨rfl, rfl⟩⟩
  · rw [hseen]
    exact hs.observable.unsent
  · rw [hseen]
    exact hs.observable.sent
  · dsimp only
    rw [carries_raise]
    exact hs.observable.handled

theorem not_poll_of_awaiting {pc : TxPc} (h : pc.awaiting = true) (startTime nextPoll : ℚ) :
    pc ≠ .poll startTime nextPoll := by
  rintro rfl
  cases h

theorem Followed.irqFailed (hs : s.Followed timeoutSeconds) (hawaiting : s.pc.awaiting = true)
    (hsent : s.txDoneAt ≠ none) :
    Followed timeoutSeconds { s with driver := s.driver.handleInterrupt s.now .failed } := by
  constructor
  · exact ⟨fun hnone => absurd hnone hsent, fun _ _ => Or.inl rfl, hs.observable.handled⟩
  · exact hs.placed.of_same rfl rfl rfl fun startTime nextPoll hpc =>
      absurd hpc (not_poll_of_awaiting hawaiting startTime nextPoll)

theorem Followed.irqRead (hs : s.Followed timeoutSeconds) (hawaiting : s.pc.awaiting = true)
    (hidle : s.handler = none) {irq : IrqStatus}
    (hirq : irq = s.chipIrq ∨ irq = 0xFFFF ∧ s.txDoneAt ≠ none) :
    Followed timeoutSeconds { s with handler := some irq } := by
  constructor
  · refine ⟨fun hnone => ?_, fun hsent hloop => ?_, fun read hread hcarries => ?_⟩
    · rintro (hevent | hcarries | ⟨read, hread, hcarries⟩)
      · exact hs.observable.unsent hnone (Or.inl hevent)
      · exact hs.observable.unsent hnone (Or.inr (Or.inl hcarries))
      · cases hread
        rcases hirq with rfl | ⟨-, hsent⟩
        · exact hs.observable.unsent hnone (Or.inr (Or.inl hcarries))
        · exact hsent hnone
    · rcases hs.observable.sent hsent hloop with hevent | hcarries | ⟨read, hread, -⟩
      · exact Or.inl hevent
      · exact Or.inr (Or.inl hcarries)
      · rw [hidle] at hread
        cases hread
    · cases hread
      rcases hirq with rfl | ⟨rfl, -⟩
      · exact hcarries
      · decide
  · exact hs.placed.of_same rfl rfl rfl fun startTime nextPoll hpc =>
      absurd hpc (not_poll_of_awaiting hawaiting startTime nextPoll)

theorem Followed.irqClear (hs : s.Followed timeoutSeconds) {fails : Bool}
    (hok : s.Orderly (.irqClear fails)) {irq : IrqStatus} (hirq : s.handler = some irq) :
    Followed timeoutSeconds { s with
      driver := s.driver.handleInterrupt s.now (.status irq fails)
      chipIrq := if irq ≠ 0 ∧ fails = false then 0 else s.chipIrq
      handler := none } := by
  have hevent := s.driver.handleInterrupt_txDoneEvent s.now irq fails
  constructor
  · refine ⟨fun hnone => ?_, fun hsent hloop => ?_, nofun⟩
    · have hunseen := hs.observable.unsent hnone
      have hfails : fails = false := hok.resolve_right fun hne => hne hnone
      rintro (hset | hcarries | ⟨read, hread, -⟩)
      · rw [hevent, hfails] at hset
        simp only [Bool.and_false, Bool.or_false, Bool.or_eq_true] at hset
        rcases hset with hset | hset
        · exact hunseen (Or.inl hset)
        · exact hunseen (Or.inr (Or.inr ⟨irq, hirq, hset⟩))
      · split at hcarries
        · rw [carries_zero] at hcarries
          cases hcarries
        · exact hunseen (Or.inr (Or.inl hcarries))
      · cases hread
    · have hseen : s.driver.txDoneEvent = true ∨ carries irq irqTxDone = true := by
        rcases hs.observable.sent hsent hloop with hset | hcarries | ⟨read, hread, hcarries⟩
        · exact Or.inl hset
        · exact Or.inr (hs.observable.handled irq hirq hcarries)
        · cases hirq.symm.trans hread
          exact Or.inr hcarries
      refine Or.inl (hevent.trans ?_)
      rcases hseen with hset | hset <;> simp [hset]
  · refine hs.placed.of_same rfl rfl rfl fun startTime nextPoll hpc => ?_
    have hplaced := hs.placed
    rw [hpc] at hplaced
    rw [hplaced.2.2] at hirq
    cases hirq

theorem Followed.early (hs : s.Followed timeoutSeconds) (hnone : s.txDoneAt = none) {pc : TxPc}
    (hpc : s.Placed timeoutSeconds pc) : Followed timeoutSeconds { s with pc } :=
  ⟨hs.observable.of_unsent hnone rfl (hs.observable.chip_of_unsent hnone) rfl hnone,
    hpc.of_same rfl rfl rfl fun _ _ _ => ⟨rfl, rfl⟩⟩

theorem placed_raised_of_unsent (hnone : s.txDoneAt = none) :
    s.Placed timeoutSeconds .raised := by
  intro sentAt hsent
  rw [hnone] at hsent
  cases hsent

theorem Looping.of_unsent {startTime nextPoll : ℚ} (hnone : s.txDoneAt = none)
    (hdeadline : s.deadline = some (startTime + timeoutSeconds))
    (hnext : nextPoll ≤ s.now + 1 / 20) : s.Looping timeoutSeconds startTime nextPoll := by
  refine ⟨hdeadline, hnext, fun sentAt hsent => ?_⟩
  rw [hnone] at hsent
  cases hsent

theorem Followed.beginWait (hs : s.Followed timeoutSeconds) (hnone : s.txDoneAt = none)
    (htimeout : 0 < timeoutSeconds) : (s.beginWait timeoutSeconds).Followed timeoutSeconds := by
  constructor
  · exact hs.observable.of_unsent hnone rfl (hs.observable.chip_of_unsent hnone) rfl hnone
  · have hloop : (s.beginWait timeoutSeconds).Looping timeoutSeconds s.now s.now :=
      .of_unsent hnone rfl (by dsimp only [Transmission.beginWait]; linarith)
    exact ⟨hloop, Or.inr (by dsimp only [Transmission.beginWait]; linarith)⟩

theorem Followed.afterInitialStatus (hs : s.Followed timeoutSeconds) (hnone : s.txDoneAt = none)
    (htimeout : 0 < timeoutSeconds) (attempt : ℕ) (irq : IrqStatus) (clearFails : Bool) :
    (s.afterInitialStatus timeoutSeconds attempt irq clearFails).Followed timeoutSeconds := by
  have hraised : Followed timeoutSeconds { s with pc := .raised } :=
    hs.early hnone (placed_raised_of_unsent hnone)
  unfold Transmission.afterInitialStatus
  split
  · exact hs.early hnone hnone
  split
  · exact hraised
  split
  · split
    · exact hraised
    · have hclear : Followed timeoutSeconds { s with chipIrq := s.chipIrq &&& ~~~irq } := by
        have hchip := carries_and_of_false (hs.observable.chip_of_unsent hnone) (~~~irq)
        exact ⟨hs.observable.of_unsent hnone rfl hchip rfl hnone,
          hs.placed.of_same rfl rfl rfl fun _ _ _ => ⟨rfl, rfl⟩⟩
      exact hclear.beginWait hnone htimeout
  · exact hs.beginWait hnone htimeout

theorem Looping.raised {startTime nextPoll : ℚ} (h : s.Looping timeoutSeconds startTime nextPoll)
    (hnow : s.now < nextPoll ∨ s.now < startTime + timeoutSeconds)
    (hremaining : timeoutSeconds - (s.now - startTime) ≤ 0) : s.Placed timeoutSeconds .raised := by
  intro sentAt hsent
  have hlate := h.late sentAt hsent
  refine ⟨startTime + timeoutSeconds, h.deadline, ?_⟩
  rcases hnow with hnow | hnow
  · linarith
  · linarith

theorem Followed.goTo (hs : s.Followed timeoutSeconds) {pc : TxPc}
    (hloop : pc.inLoop = true → s.pc.inLoop = true) (hpc : s.Placed timeoutSeconds pc) :
    Followed timeoutSeconds { s with pc } :=
  ⟨hs.observable.of_same rfl rfl rfl rfl hloop, hpc.of_same rfl rfl rfl fun _ _ _ => ⟨rfl, rfl⟩⟩

theorem placed_finalize {startTime nextPoll : ℚ} (hs : s.Observable)
    (h : s.Looping timeoutSeconds startTime nextPoll) (hseen : s.Seen) :
    s.Placed timeoutSeconds .finalize := by
  obtain ⟨sentAt, hsent⟩ := Option.ne_none_iff_exists'.mp fun hnone => hs.unsent hnone hseen
  exact ⟨sentAt, _, hsent, h.deadline⟩

theorem Followed.pollAgain (hs : s.Followed timeoutSeconds) (hnone : s.txDoneAt = none)
    {startTime nextPoll : ℚ} (h : s.Looping timeoutSeconds startTime nextPoll) :
    Followed timeoutSeconds { s with pc := .loop startTime (s.now + 1 / 20) } :=
  hs.early hnone ⟨.of_unsent hnone h.deadline le_rfl, Or.inl (by linarith)⟩

theorem Followed.afterPoll (hs : s.Followed timeoutSeconds) {startTime nextPoll : ℚ}
    (hpc : s.pc = .poll startTime nextPoll) {irq : IrqStatus}
    (hirq : (irq = s.chipIrq ∧ s.chipIrq ≠ 0xFFFF) ∨ irq = 0xFFFF ∧ s.txDoneAt = none) :
    (s.afterPoll startTime (s.now + 1 / 20) irq).Followed timeoutSeconds := by
  have hplaced := hs.placed
  rw [hpc] at hplaced
  obtain ⟨hloop, hevent, hidle⟩ := hplaced
  have hunsent : carries s.chipIrq irqTxDone = false → s.txDoneAt = none := by
    intro hchip
    by_contra hsent
    rcases hs.observable.sent hsent (by rw [hpc]; rfl) with h | h | ⟨read, h, -⟩
    · rw [hevent] at h
      cases h
    · rw [hchip] at h
      cases h
    · rw [hidle] at h
      cases h
  unfold Transmission.afterPoll
  split
  · rename_i hglitch
    exact hs.pollAgain (hirq.resolve_left fun h => h.2 (h.1 ▸ hglitch)).2 hloop
  rename_i hread
  obtain ⟨rfl, -⟩ := hirq.resolve_right fun h => hread h.1
  split
  · rename_i hcarries
    exact hs.goTo nofun (placed_finalize hs.observable hloop (Or.inr (Or.inl hcarries)))
  rename_i hnot
  have hnone := hunsent (Bool.eq_false_iff.mpr hnot)
  split
  · exact hs.early hnone (placed_raised_of_unsent hnone)
  · exact hs.pollAgain hnone hloop

theorem Followed.irqReadStep (hs : s.Followed timeoutSeconds) {read : ChipRead}
    (hok : s.Orderly (.irqRead read)) (h : s.step timeoutSeconds (.irqRead read) = some t) :
    t.Followed timeoutSeconds := by
  obtain ⟨⟨hidle, hawaiting⟩, h⟩ := Option.ite_none_right_eq_some.mp h
  cases read with
  | raises =>
    cases h
    exact hs.irqFailed hawaiting (hok.resolve_left nofun)
  | glitch =>
    cases h
    exact hs.irqRead hawaiting hidle (Or.inr ⟨rfl, hok.resolve_left nofun⟩)
  | actual =>
    cases h
    exact hs.irqRead hawaiting hidle (Or.inl rfl)

theorem Followed.busyStep (hs : s.Followed timeoutSeconds) {answer : Option Bool}
    (h : s.step timeoutSeconds (.busy answer) = some t) : t.Followed timeoutSeconds := by
  have hplaced := hs.placed
  delta Transmission.step at h
  dsimp only at h
  split at h <;> cases h
  · rename_i hpc
    rw [hpc] at hplaced
    exact hs.early hplaced (placed_raised_of_unsent hplaced)
  · rename_i hpc
    rw [hpc] at hplaced
    refine hs.early hplaced ?_
    split <;> exact hplaced
  · rename_i hpc
    rw [hpc] at hplaced
    exact hs.early hplaced hplaced
  · rename_i hpc hanswer
    rw [hpc] at hplaced
    exact hs.early hplaced (placed_raised_of_unsent hplaced)

theorem Followed.wakeStep (hs : s.Followed timeoutSeconds) (htimeout : 0 < timeoutSeconds)
    (h : s.step timeoutSeconds .wake = some t) : t.Followed timeoutSeconds := by
  have hplaced := hs.placed
  delta Transmission.step at h
  dsimp only at h
  split at h <;> cases h <;> rename_i hpc <;> rw [hpc] at hplaced
  · exact hs.early hplaced hplaced
  · split
    · exact hs.early hplaced hplaced
    · exact hs.beginWait hplaced htimeout

theorem Followed.initialStatusStep (hs : s.Followed timeoutSeconds) (htimeout : 0 < timeoutSeconds)
    {read : ChipRead} {clearFails : Bool}
    (h : s.step timeoutSeconds (.initialStatus read clearFails) = some t) :
    t.Followed timeoutSeconds := by
  have hplaced := hs.placed
  delta Transmission.step at h
  dsimp only at h
  split at h
  · rename_i attempt hidle hpc
    rw [hpc] at hplaced
    split at h <;> cases h
    · exact hs.early hplaced (placed_raised_of_unsent hplaced)
    · exact hs.afterInitialStatus hplaced htimeout attempt _ clearFails
  · cases h

theorem Followed.loopStep (hs : s.Followed timeoutSeconds)
    (h : s.step timeoutSeconds .loop = some t) : t.Followed timeoutSeconds := by
  have hplaced := hs.placed
  delta Transmission.step at h
  dsimp only at h
  split at h
  · rename_i startTime nextPoll hidle hpc
    rw [hpc] at hplaced
    split at h <;> cases h
    · rename_i hremaining
      exact hs.goTo nofun (hplaced.1.raised hplaced.2 hremaining)
    · exact hs.goTo (fun _ => by rw [hpc]; rfl) hplaced.1
  · cases h

theorem Followed.eventSeenStep (hs : s.Followed timeoutSeconds)
    (h : s.step timeoutSeconds .eventSeen = some t) : t.Followed timeoutSeconds := by
  have hplaced := hs.placed
  delta Transmission.step at h
  dsimp only at h
  split at h
  · rename_i startTime nextPoll wakeAt hidle hpc
    rw [hpc] at hplaced
    obtain ⟨hevent, h⟩ := Option.ite_none_right_eq_some.mp h
    cases h
    exact hs.goTo nofun (placed_finalize hs.observable hplaced (Or.inl hevent))
  · cases h

theorem Followed.waitTimeoutStep (hs : s.Followed timeoutSeconds) (hok : s.Orderly .waitTimeout)
    (h : s.step timeoutSeconds .waitTimeout = some t) : t.Followed timeoutSeconds := by
  have hplaced := hs.placed
  delta Transmission.step at h
  dsimp only at h
  split at h
  · rename_i startTime nextPoll wakeAt positive hidle hpc
    rw [hpc] at hplaced
    obtain ⟨-, h⟩ := Option.ite_none_right_eq_some.mp h
    cases h
    exact hs.goTo (fun _ => by rw [hpc]; rfl) ⟨hplaced, hok, hidle⟩
  · cases h

theorem Followed.pollStep (hs : s.Followed timeoutSeconds) {read : ChipRead}
    (hok : s.Orderly (.poll read)) (h : s.step timeoutSeconds (.poll read) = some t) :
    t.Followed timeoutSeconds := by
  have hplaced := hs.placed
  delta Transmission.step at h
  dsimp only at h
  split at h
  · rename_i startTime nextPoll hidle hpc
    rw [hpc] at hplaced
    split at h
    · cases read with
      | raises =>
        cases h
        exact hs.pollAgain (hok.resolve_left fun hread => nomatch hread.1) hplaced.1
      | glitch =>
        cases h
        exact hs.afterPoll hpc (Or.inr ⟨rfl, hok.resolve_left fun hread => nomatch hread.1⟩)
      | actual =>
        cases h
        by_cases hchip : s.chipIrq = 0xFFFF
        · exact hs.afterPoll hpc (Or.inr ⟨hchip, hok.resolve_left fun hread => hread.2 hchip⟩)
        · exact hs.afterPoll hpc (Or.inl ⟨rfl, hchip⟩)
    · rename_i hnext
      cases h
      exact hs.goTo (fun _ => by rw [hpc]; rfl) ⟨hplaced.1, Or.inl (not_le.mp hnext)⟩
  · cases h

theorem Followed.finalizeStep (hs : s.Followed timeoutSeconds) {read : ChipRead} {clearFails : Bool}
    (hok : s.Orderly (.finalize read clearFails))
    (h : s.step timeoutSeconds (.finalize read clearFails) = some t) :
    t.Followed timeoutSeconds := by
  have hplaced := hs.placed
  delta Transmission.step at h
  dsimp only at h
  split at h
  · rename_i hidle hpc
    rw [hpc] at hplaced
    cases h
    obtain ⟨hread, hclear⟩ := hok
    simp only [hread, hclear, Bool.false_eq_true, or_self, if_false]
    exact hs.goTo nofun hplaced
  · cases h

theorem Followed.step (hs : s.Followed timeoutSeconds) (htimeout : 0 < timeoutSeconds)
    (hok : s.Orderly a) (h : s.step timeoutSeconds a = some t) : t.Followed timeoutSeconds := by
  cases a with
  | tick seconds =>
    cases h
    exact hs.tick hok
  | txDone =>
    obtain ⟨-, h⟩ := Option.ite_none_right_eq_some.mp h
    cases h
    exact hs.txDone hok
  | raise bits =>
    cases h
    exact hs.raise bits
  | irqRead read => exact hs.irqReadStep hok h
  | irqClear fails =>
    delta Transmission.step at h
    dsimp only at h
    split at h
    · cases h
    · rename_i irq hirq
      cases h
      exact hs.irqClear hok hirq
  | busy answer => exact hs.busyStep h
  | wake => exact hs.wakeStep htimeout h
  | initialStatus read clearFails => exact hs.initialStatusStep htimeout h
  | loop => exact hs.loopStep h
  | eventSeen => exact hs.eventSeenStep h
  | waitTimeout => exact hs.waitTimeoutStep hok h
  | poll read => exact hs.pollStep hok h
  | finalize read clearFails => exact hs.finalizeStep hok h

theorem followed_start {driver : Driver} {chipIrq : IrqStatus}
    (hevent : driver.txDoneEvent = false) (hchip : carries chipIrq irqTxDone = false) (now : ℚ) :
    Followed timeoutSeconds { driver, chipIrq, now } := by
  refine ⟨⟨fun _ => ?_, fun hne => absurd rfl hne, nofun⟩, rfl⟩
  rintro (h | h | ⟨irq, h, -⟩)
  · exact Bool.noConfusion (hevent.symm.trans h)
  · exact Bool.noConfusion (hchip.symm.trans h)
  · cases h

/-- In an orderly run that starts without a completion to see, and in which `TX_DONE` does not come
in the last poll interval before the deadline or later, the send returns just when `TX_DONE` has
come before the deadline. -/
theorem returned_iff (radio : RadioSettings) (length : ℕ) (driver : Driver) (chipIrq : IrqStatus)
    (now : ℚ) (actions : List TxAction) (s : Transmission)
    (hevent : driver.txDoneEvent = false) (hchip : carries chipIrq irqTxDone = false)
    (hrun : run (step (completionTimeoutSeconds radio length)) { driver, chipIrq, now } actions =
      some s)
    (horderly : Along (step (completionTimeoutSeconds radio length)) Orderly
      { driver, chipIrq, now } actions)
    (hmargin : ∀ sentAt deadline, s.txDoneAt = some sentAt → s.deadline = some deadline →
      sentAt ≤ deadline - 1 / 20)
    (hend : s.pc = .returned ∨ s.pc = .raised) :
    s.pc = .returned ↔
      ∃ sentAt deadline, s.txDoneAt = some sentAt ∧ s.deadline = some deadline ∧
        sentAt < deadline := by
  have hs : s.Followed (completionTimeoutSeconds radio length) :=
    run_invariant_of_along
      (fun _ _ _ hok hs hstep => hs.step (completionTimeoutSeconds_pos radio length) hok hstep)
      (followed_start hevent hchip now) horderly hrun
  have hplaced := hs.placed
  rcases hend with hpc | hpc <;> rw [hpc] at hplaced ⊢
  · obtain ⟨sentAt, deadline, hsent, hdeadline⟩ := hplaced
    have hbefore := hmargin sentAt deadline hsent hdeadline
    exact iff_of_true rfl ⟨sentAt, deadline, hsent, hdeadline, by linarith⟩
  · refine iff_of_false nofun ?_
    rintro ⟨sentAt, deadline, hsent, hdeadline, -⟩
    obtain ⟨deadline', hdeadline', hlate⟩ := hplaced sentAt hsent
    cases hdeadline.symm.trans hdeadline'
    have hbefore := hmargin sentAt deadline hsent hdeadline
    linarith

def firstPoll : List TxAction :=
  [.busy (some false), .busy (some false), .initialStatus .actual false, .loop, .waitTimeout,
    .poll .actual, .loop]

/-- The handler sees `TX_DONE` in time. -/
theorem returned_iff_interrupt :
    ∃ s, run (step (completionTimeoutSeconds {} 10)) { driver := {}, chipIrq := 0, now := 0 }
        (firstPoll ++ [.tick (1 / 100), .txDone, .irqRead .actual, .irqClear false, .eventSeen,
          .finalize .actual false]) = some s ∧ s.pc = .returned ∧
      ∃ sentAt deadline, s.txDoneAt = some sentAt ∧ s.deadline = some deadline ∧
        sentAt < deadline := by
  have hlast : (run (step (completionTimeoutSeconds {} 10))
      { driver := {}, chipIrq := 0, now := 0 }
      (firstPoll ++ [.tick (1 / 100), .txDone, .irqRead .actual, .irqClear false, .eventSeen,
        .finalize .actual false])).map (fun s => (s.pc, s.txDoneAt, s.deadline)) =
      some (.returned, some (1 / 100), some (completionTimeoutSeconds {} 10)) := by
    decide +kernel
  obtain ⟨s, hrun, hs⟩ := Option.map_eq_some_iff.mp hlast
  simp only [Prod.mk.injEq] at hs
  obtain ⟨hpc, hsent, hdeadline⟩ := hs
  have hmargin : (1 / 100 : ℚ) ≤ completionTimeoutSeconds {} 10 - 1 / 20 := by decide +kernel
  refine ⟨s, hrun, hpc, (returned_iff {} 10 {} 0 0 _ s rfl rfl hrun (by decide +kernel) ?_
    (Or.inl hpc)).mp hpc⟩
  intro sentAt deadline hsentAt hdeadlineAt
  cases hsent.symm.trans hsentAt
  cases hdeadline.symm.trans hdeadlineAt
  exact hmargin

/-- A handler whose read fails makes the send return though nothing was sent, and a `TX_DONE` that
is there at the first look at the status is cleared. -/
theorem returned_unsent_and_raised_sent :
    (run (step (completionTimeoutSeconds {} 10)) { driver := {}, chipIrq := 0, now := 0 }
        (firstPoll ++ [.irqRead .raises, .eventSeen, .finalize .actual false])).map
      (fun s => (s.pc, s.txDoneAt)) = some (.returned, none) ∧
    (run (step (completionTimeoutSeconds {} 10)) { driver := {}, chipIrq := 0, now := 0 }
        (firstPoll ++ [.irqRead .glitch, .irqClear false, .eventSeen,
          .finalize .actual false])).map
      (fun s => (s.pc, s.txDoneAt)) = some (.returned, none) ∧
    (run (step (completionTimeoutSeconds {} 10)) { driver := {}, chipIrq := 0, now := 0 }
        (.txDone :: firstPoll ++ [.tick 10, .waitTimeout, .poll .actual, .loop])).map
      (fun s => (s.pc, s.txDoneAt, s.deadline)) =
        some (.raised, some 0, some (completionTimeoutSeconds {} 10)) ∧
    0 < completionTimeoutSeconds {} 10 := by
  decide +kernel

end Transmission

end OpenHop.Sx1262
