import OpenHop.Data.Bytes
import OpenHop.Hardware.Sx1262
import OpenHop.Machine.Runs

/-! # Tasks on the SX1262

Sends and channel scans take turns by the transmit lock. Each runs from one await to the
next, where it may be cancelled; a chip command on the way may raise.
-/

namespace OpenHop.Sx1262

open Machine

inductive ChipCmd where
  | setStandby
  | setDioIrqParams
  | setCad
  | requestRx
  | writeBuffer
  | setTx
  | getIrqStatus
  | clearIrqStatus
  | setLoRaModulation
  | setCadParams
  | setPacketParams
  | setTxPower
  | busyCheck
  deriving DecidableEq

/-- The commands that end or replace what the chip is doing. -/
def ChipCmd.disturbs : ChipCmd → Bool
  | .setStandby | .setDioIrqParams | .setCad | .requestRx | .writeBuffer | .setTx => true
  | _ => false

/-- How a task goes on from where it is: to its next await, in a loop once more or not, up to the
command that raises, or it is cancelled. A failed check and a timeout count as raised. -/
inductive Outcome where
  | next (again : Bool)
  | raised (n : ℕ)
  | cancelled
  deriving DecidableEq

def Outcome.again : Outcome → Bool
  | .next again => again
  | _ => false

def Outcome.issued (o : Outcome) (block : List ChipCmd) : List ChipCmd :=
  match o with
  | .next _ => block
  | .raised n => block.take (n + 1)
  | .cancelled => []

/-- The commands issued up to the next await and where that is, unless the task is over. -/
structure Resumed (π : Type) where
  cmds : List ChipCmd
  next : Option π

/-- Where `_restore_rx_mode` is. -/
inductive RestorePc where
  | entered
  | standby
  | listening
  deriving DecidableEq

/-- An exception is caught and ends it. -/
def RestorePc.resume (o : Outcome) : RestorePc → Option (Resumed RestorePc)
  | .entered =>
    match o with
    | .next _ => some ⟨o.issued [.setStandby], some .standby⟩
    | .raised _ => some ⟨o.issued [.setStandby], none⟩
    | .cancelled => none
  | .standby =>
    match o with
    | .next _ => some ⟨o.issued [.clearIrqStatus, .setDioIrqParams, .requestRx], some .listening⟩
    | _ => some ⟨o.issued [.clearIrqStatus, .setDioIrqParams, .requestRx], none⟩
  | .listening =>
    match o with
    | .raised _ => none
    | _ => some ⟨[], none⟩

/-- Where `perform_cad` is, from the drain on; the last five are its `finally` block. -/
inductive CadPc where
  | drain
  | entered
  | standby
  | clearing
  | configured
  | primed
  | scanning
  | cleanup0
  | cleanup1
  | cleanup2
  | cleanup3
  | cleanup4
  deriving DecidableEq

def CadPc.inCleanup : CadPc → Bool
  | .cleanup0 | .cleanup1 | .cleanup2 | .cleanup3 | .cleanup4 => true
  | _ => false

/-- The commands up to the next await and where that is. Reception is requested again if the lock
was acquired or is free. -/
def CadPc.block (mayRequest again : Bool) : CadPc → List ChipCmd × Option CadPc
  | .drain => ([], some .entered)
  | .entered => ([.setStandby], some .standby)
  | .standby =>
    if again then ([.getIrqStatus, .clearIrqStatus], some .clearing)
    else ([.getIrqStatus, .setDioIrqParams], some .configured)
  | .clearing =>
    if again then ([.clearIrqStatus], some .clearing) else ([.setDioIrqParams], some .configured)
  | .configured => ([.setLoRaModulation, .setCadParams], some .primed)
  | .primed => ([.setCad], some .scanning)
  | .scanning => ([.getIrqStatus, .clearIrqStatus], some .cleanup0)
  | .cleanup0 => ([.clearIrqStatus, .setStandby], some .cleanup1)
  | .cleanup1 => ([.setDioIrqParams], some .cleanup2)
  | .cleanup2 => ([.clearIrqStatus, .setDioIrqParams], some .cleanup3)
  | .cleanup3 => (if mayRequest then [.requestRx] else [], some .cleanup4)
  | .cleanup4 => ([.clearIrqStatus], none)

/-- Whatever ends the scan early leads to the `finally` block, and whatever ends that ends it. -/
def CadPc.resume (mayRequest : Bool) (o : Outcome) (pc : CadPc) : Option (Resumed CadPc) :=
  let block := pc.block mayRequest o.again
  match o with
  | .next _ => some ⟨block.1, block.2⟩
  | .raised _ => some ⟨o.issued block.1, if pc.inCleanup then none else some .cleanup0⟩
  | .cancelled =>
    -- these two follow on what is before them without an await
    if pc = .cleanup0 ∨ pc = .entered then none
    else some ⟨[], if pc.inCleanup then none else some .cleanup0⟩

/-- How far a send got: it did not come to use the buffer, the flag was reset, or it was not. -/
inductive SendEnd where
  | unstaged
  | completed
  | failed
  deriving DecidableEq

/-- Where a send is. The scans of listen-before-talk run in it under its lock. -/
inductive SendPc where
  | waitLock
  | lbt
  | cad (pc : CadPc) (cancelled : Bool)
  | lbtRestore (pc : RestorePc)
  | lbtSleep
  | stage
  | standby
  | drain
  | load
  | loaded
  | started
  | awaiting
  | restore (pc : RestorePc) (how : SendEnd)
  deriving DecidableEq

/-- The `finally` block of a send. -/
def SendPc.leave (how : SendEnd) : SendPc := .restore .entered how

/-- A block of a send: on to `next`, or out. -/
def SendPc.goOn (o : Outcome) (block : List ChipCmd) (next : SendPc) (how : SendEnd) :
    Resumed SendPc :=
  match o with
  | .next _ => ⟨o.issued block, some next⟩
  | _ => ⟨o.issued block, some (.leave how)⟩

/-- After the lock was acquired. A failed channel check lets the send go on. -/
def SendPc.resume (mayRequest : Bool) (o : Outcome) : SendPc → Option (Resumed SendPc)
  | .waitLock => none
  | .lbt =>
    match o with
    | .next true => some ⟨[], some .lbtSleep⟩
    | .next false => some ⟨[], some (.cad .drain false)⟩
    | .raised _ => some ⟨[], some .stage⟩
    | .cancelled => none
  | .cad pc cancelled =>
    (pc.resume mayRequest o).map fun r =>
      let cancelled := cancelled || decide (o = .cancelled)
      ⟨r.cmds, some <|
        match r.next with
        | some pc => .cad pc cancelled
        | none =>
          if cancelled then .leave .unstaged
          else if o.again then .lbtRestore .entered
          else .stage⟩
  | .lbtRestore pc =>
    (pc.resume o).map fun r =>
      ⟨r.cmds, some <|
        match r.next with
        | some pc => .lbtRestore pc
        | none => if o = .cancelled then .leave .unstaged else .lbtSleep⟩
  | .lbtSleep => some (goOn o [] .lbt .unstaged)
  | .stage => if o = .cancelled then none else some (goOn o [.setStandby] .standby .unstaged)
  | .standby =>
    some (goOn o [.busyCheck] (if o.again then .standby else .drain) .unstaged)
  | .drain => some (goOn o [] .load .unstaged)
  | .load =>
    if o = .cancelled then none
    else some (goOn o
      [.writeBuffer, .setPacketParams, .setDioIrqParams, .getIrqStatus, .clearIrqStatus] .loaded
      .failed)
  | .loaded => some (goOn o [.setTxPower, .setTx, .busyCheck] .started .failed)
  | .started =>
    some (goOn o [.busyCheck, .getIrqStatus] (if o.again then .started else .awaiting) .failed)
  | .awaiting =>
    some (goOn o [.getIrqStatus, .clearIrqStatus]
      (if o.again then .awaiting else .leave .completed) .failed)
  | .restore pc how => (pc.resume o).map fun r => ⟨r.cmds, r.next.map (SendPc.restore · how)⟩

/-- How far a send is with the buffer. -/
inductive SendPhase where
  | waiting
  | unstaged
  | staged
  | leaving (how : SendEnd)
  deriving DecidableEq

def SendPc.phase : SendPc → SendPhase
  | .waitLock => .waiting
  | .loaded | .started | .awaiting => .staged
  | .restore _ how => .leaving how
  | _ => .unstaged

/-- What resuming a send with the lock comes to. The buffer is staged at `load`, and only a
transmission that was awaited to its end leaves as completed. -/
inductive SendPc.Resumes (o : Outcome) : SendPc → Option SendPc → Prop where
  | unstaged {pc pc' : SendPc} (hpc : pc.phase = .unstaged) (hload : pc ≠ .load)
      (hnext : pc'.phase = .unstaged ∨ pc'.phase = .leaving .unstaged) : Resumes o pc (some pc')
  | load {pc' : SendPc} (hnext : pc'.phase = .staged ∨ pc'.phase = .leaving .failed) :
      Resumes o .load (some pc')
  | staged {pc pc' : SendPc} (hpc : pc.phase = .staged)
      (hgoes : pc ≠ .awaiting ∨ o ≠ .next false)
      (hnext : pc'.phase = .staged ∨ pc'.phase = .leaving .failed) : Resumes o pc (some pc')
  | completes (ho : o = .next false) : Resumes o .awaiting (some (.leave .completed))
  | leaving {pc pc' : RestorePc} {how : SendEnd} :
      Resumes o (.restore pc how) (some (.restore pc' how))
  | ends {pc : RestorePc} {how : SendEnd} : Resumes o (.restore pc how) none

theorem SendPc.goOn_next (o : Outcome) (block : List ChipCmd) (next : SendPc) (how : SendEnd) :
    (goOn o block next how).next = some next ∨
      (goOn o block next how).next = some (.leave how) := by
  cases o with
  | next again => exact .inl rfl
  | raised n => exact .inr rfl
  | cancelled => exact .inr rfl

theorem SendPc.goOn_unstaged {o : Outcome} {block : List ChipCmd} {pc next : SendPc}
    (hpc : pc.phase = .unstaged) (hload : pc ≠ .load) (hnext : next.phase = .unstaged) :
    Resumes o pc (goOn o block next .unstaged).next := by
  rcases goOn_next o block next .unstaged with h | h <;> rw [h]
  · exact .unstaged hpc hload (.inl hnext)
  · exact .unstaged hpc hload (.inr rfl)

theorem SendPc.goOn_staged {o : Outcome} {block : List ChipCmd} {pc next : SendPc}
    (hpc : pc.phase = .staged) (hgoes : pc ≠ .awaiting) (hnext : next.phase = .staged) :
    Resumes o pc (goOn o block next .failed).next := by
  rcases goOn_next o block next .failed with h | h <;> rw [h]
  · exact .staged hpc (.inl hgoes) (.inl hnext)
  · exact .staged hpc (.inl hgoes) (.inr rfl)

theorem SendPc.resumes {mayRequest : Bool} {o : Outcome} {pc : SendPc} {r : Resumed SendPc}
    (h : pc.resume mayRequest o = some r) : pc.Resumes o r.next := by
  cases pc with
  | waitLock => cases h
  | lbt =>
    simp only [resume] at h
    split at h <;> cases h <;> exact .unstaged rfl nofun (.inl rfl)
  | cad pc cancelled =>
    obtain ⟨r', -, rfl⟩ := Option.map_eq_some_iff.mp h
    refine .unstaged rfl nofun ?_
    split
    · exact .inl rfl
    · split
      · exact .inr rfl
      · split <;> exact .inl rfl
  | lbtRestore pc =>
    obtain ⟨r', -, rfl⟩ := Option.map_eq_some_iff.mp h
    refine .unstaged rfl nofun ?_
    split
    · exact .inl rfl
    · split
      · exact .inr rfl
      · exact .inl rfl
  | lbtSleep =>
    cases h
    exact goOn_unstaged rfl nofun rfl
  | stage =>
    obtain ⟨-, heq⟩ := Option.ite_none_left_eq_some.mp h
    cases heq
    exact goOn_unstaged rfl nofun rfl
  | standby =>
    cases h
    exact goOn_unstaged rfl nofun (by split <;> rfl)
  | drain =>
    cases h
    exact goOn_unstaged rfl nofun rfl
  | load =>
    obtain ⟨-, heq⟩ := Option.ite_none_left_eq_some.mp h
    cases heq
    rcases goOn_next o _ .loaded .failed with h | h <;> rw [h]
    · exact .load (.inl rfl)
    · exact .load (.inr rfl)
  | loaded =>
    cases h
    exact goOn_staged rfl nofun rfl
  | started =>
    cases h
    exact goOn_staged rfl nofun (by split <;> rfl)
  | awaiting =>
    cases h
    rcases o with (_ | _) | n | _
    · exact .completes rfl
    · exact .staged rfl (.inr nofun) (.inl rfl)
    · exact .staged rfl (.inr nofun) (.inr rfl)
    · exact .staged rfl (.inr nofun) (.inr rfl)
  | restore pc how =>
    obtain ⟨⟨cmds, next⟩, -, rfl⟩ := Option.map_eq_some_iff.mp h
    cases next with
    | some pc' => exact .leaving
    | none => exact .ends

inductive Task where
  | absent
  | send (pc : SendPc)
  /-- A scan that is called, past the checks before its `try`. -/
  | cadCalled
  | cadWaitLock
  | cad (acquired : Bool) (pc : CadPc)
  | finished
  deriving DecidableEq

/-- From `setTx` to the end of the wait for completion. -/
def Task.transmitting : Task → Bool
  | .send .started | .send .awaiting => true
  | _ => false

def Task.holdsLock : Task → Bool
  | .send .waitLock => false
  | .send _ => true
  | .cad acquired _ => acquired
  | _ => false

/-- A send that has the lock. -/
def Task.sending : Task → Bool
  | .send .waitLock => false
  | .send _ => true
  | _ => false

/-- `ended` are the sends in the order in which they gave the lock back. -/
structure System where
  driver : Driver := {}
  rxBuffer : Driver.BufferRead Bytes := .empty
  delivered : List Bytes := []
  txLock : Option ℕ := none
  rxInside : Option (Option Bytes) := none
  tasks : ℕ → Task := fun _ => .absent
  ended : List SendEnd := []

inductive TaskAction where
  | callSend (i : ℕ)
  | callCad (i : ℕ)
  | resume (i : ℕ) (o : Outcome)
  | interrupt (now : ℚ) (read : IrqRead)
  /-- The chip's buffer changes. -/
  | buffer (read : Driver.BufferRead Bytes)
  /-- The background task is woken, also if the event was cleared since. -/
  | rxEnter (metrics : Option Metrics)
  | rxLeave

/-- The task that an action is a step of, if it is one of the sends and scans. -/
def TaskAction.task : TaskAction → Option ℕ
  | .callSend i | .callCad i | .resume i _ => some i
  | _ => none

namespace System

def setTask (s : System) (i : ℕ) (task : Task) : System :=
  { s with tasks := Function.update s.tasks i task }

/-- `_drain_pending_rx_irq_before_buffer_reuse`. If it raises, the latch is emptied all the same. -/
def drain (s : System) : Outcome → System
  | .next _ =>
    let (driver, data) := s.driver.drainSection s.rxBuffer
    { s with driver, delivered := s.delivered ++ data.toList }
  | .raised _ => { s with driver := (s.driver.drainSection (.failed : Driver.BufferRead Bytes)).1 }
  | .cancelled => s

/-- A drain with something to do waits for the background task to leave its section. -/
def mayDrain (s : System) : Bool :=
  s.driver.pendingRxIrqStatus == 0 || s.rxInside.isNone

def cadEffect (s : System) (o : Outcome) : CadPc → System
  | .drain => s.drain o
  | .standby | .clearing =>
    if o.again then s else { s with driver := { s.driver with cadEvent := false } }
  -- the event came, or the wait for it timed out
  | .scanning => if o.again then { s with driver := { s.driver with cadEvent := false } } else s
  | _ => s

/-- What a send does to the driver. The flag is raised before the buffer is written. -/
def sendEffect (s : System) (o : Outcome) : SendPc → System
  | .cad pc _ => s.cadEffect o pc
  | .stage => { s with driver := { s.driver with rxActivityAt := 0, rxHeaderAt := 0 } }
  | .standby =>
    if o = .next false then
      { s with driver := { s.driver with txDoneEvent := false, rxDoneEvent := false } }
    else s
  | .drain => s.drain o
  | .load => { s with driver := { s.driver with txBufferBusy := true } }
  | .awaiting =>
    if o = .next false then { s with driver := { s.driver with txBufferBusy := false } } else s
  | _ => s

def runSend (s : System) (i : ℕ) (o : Outcome) (pc : SendPc) : Option (System × List ChipCmd) :=
  (pc.resume (decide (s.txLock = none)) o).map fun r =>
    let s := s.sendEffect o pc
    match r.next, pc with
    | some pc, _ => (s.setTask i (.send pc), r.cmds)
    | none, .restore _ how =>
      ({ s with txLock := none, ended := s.ended ++ [how] }.setTask i .finished, r.cmds)
    | none, _ => ({ s with txLock := none }.setTask i .finished, r.cmds)

def resumeSend (s : System) (i : ℕ) (o : Outcome) (pc : SendPc) :
    Option (System × List ChipCmd) :=
  match pc, o with
  | .waitLock, .next _ =>
    if s.txLock = none then some ({ s with txLock := some i }.setTask i (.send .lbt), []) else none
  | .waitLock, .cancelled => some (s.setTask i .finished, [])
  | .waitLock, .raised _ => none
  | pc, o => s.runSend i o pc

/-- A scan that does not get the lock goes to its `finally` block. -/
def giveUp (s : System) (i : ℕ) : System :=
  s.setTask i (.cad false .cleanup0)

def resumeCad (s : System) (i : ℕ) (o : Outcome) (acquired : Bool) (pc : CadPc) :
    Option (System × List ChipCmd) :=
  (pc.resume (acquired || decide (s.txLock = none)) o).map fun r =>
    let s := s.cadEffect o pc
    match r.next with
    | some pc => (s.setTask i (.cad acquired pc), r.cmds)
    | none => ({ s with txLock := if acquired then none else s.txLock }.setTask i .finished, r.cmds)

def ready (s : System) (o : Outcome) : Task → Bool
  | .send .drain | .send (.cad .drain _) | .cad _ .drain => o == .cancelled || s.mayDrain
  | _ => true

/-- One step of a task, of the background task, of the interrupt handler or of the chip, with the
commands that it issues. -/
def step (s : System) : TaskAction → Option (System × List ChipCmd)
  | .callSend i =>
    if s.tasks i = .absent then some (s.setTask i (.send .waitLock), []) else none
  | .callCad i => if s.tasks i = .absent then some (s.setTask i .cadCalled, []) else none
  | .resume i o =>
    if s.ready o (s.tasks i) then
      match s.tasks i with
      | .send pc => s.resumeSend i o pc
      | .cadCalled =>
        match o with
        | .next _ => some (s.setTask i .cadWaitLock, [])
        -- the symbol count is refused
        | .raised _ => some (s.giveUp i, [])
        | .cancelled => none
      | .cadWaitLock =>
        match o with
        | .next _ =>
          if s.txLock = none then
            some ({ s with txLock := some i }.setTask i (.cad true .drain), [])
          else none
        | _ => some (s.giveUp i, [])
      | .cad acquired pc => s.resumeCad i o acquired pc
      | .absent | .finished => none
    else none
  | .interrupt now read =>
    some ({ s with driver := s.driver.handleInterrupt now read }, [.getIrqStatus, .clearIrqStatus])
  | .buffer read => some ({ s with rxBuffer := read }, [])
  | .rxEnter metrics =>
    match s.rxInside with
    | some _ => none
    | none =>
      let (driver, data) := { s.driver with rxDoneEvent := false }.rxSection metrics s.rxBuffer
      some ({ s with driver, rxInside := some data },
        if s.txLock = none then [.requestRx, .clearIrqStatus] else [])
  | .rxLeave =>
    match s.rxInside with
    | some data => some ({ s with rxInside := none, delivered := s.delivered ++ data.toList }, [])
    | none => none

/-- The state after a step. -/
def advance (s : System) (a : TaskAction) : Option System := (s.step a).map Prod.fst

variable {s t : System} {a : TaskAction} {cmds : List ChipCmd}

/-- All but the driver and what is passed on. -/
structure SameTasks (s t : System) : Prop where
  tasks : t.tasks = s.tasks
  txLock : t.txLock = s.txLock
  ended : t.ended = s.ended

theorem drain_same (s : System) (o : Outcome) : SameTasks s (s.drain o) := by
  cases o <;> exact ⟨rfl, rfl, rfl⟩

theorem cadEffect_same (s : System) (o : Outcome) (pc : CadPc) :
    SameTasks s (s.cadEffect o pc) := by
  unfold cadEffect
  split
  · exact s.drain_same o
  · split <;> exact ⟨rfl, rfl, rfl⟩
  · split <;> exact ⟨rfl, rfl, rfl⟩
  · split <;> exact ⟨rfl, rfl, rfl⟩
  · exact ⟨rfl, rfl, rfl⟩

theorem sendEffect_same (s : System) (o : Outcome) (pc : SendPc) :
    SameTasks s (s.sendEffect o pc) := by
  unfold sendEffect
  split
  · exact s.cadEffect_same o _
  · exact ⟨rfl, rfl, rfl⟩
  · split <;> exact ⟨rfl, rfl, rfl⟩
  · exact s.drain_same o
  · exact ⟨rfl, rfl, rfl⟩
  · split <;> exact ⟨rfl, rfl, rfl⟩
  · exact ⟨rfl, rfl, rfl⟩

inductive Move (s : System) : TaskAction → System → List ChipCmd → Prop where
  /-- A step of the background task, of the handler or of the chip. -/
  | aside {a : TaskAction} {t : System} {cmds : List ChipCmd} (ha : a.task = none)
      (hsame : SameTasks s t) (hbusy : t.driver.txBufferBusy = s.driver.txBufferBusy)
      (hcmds : ∀ cmd ∈ cmds, cmd.disturbs = true → s.txLock = none) : Move s a t cmds
  | called {a : TaskAction} {i : ℕ} (ha : a.task = some i) (hold : s.tasks i = .absent)
      {task : Task} (hnew : task = .send .waitLock ∨ task = .cadCalled) :
      Move s a (s.setTask i task) []
  | sendAcquires {i : ℕ} {o : Outcome} (hold : s.tasks i = .send .waitLock)
      (hfree : s.txLock = none) :
      Move s (.resume i o) ({ s with txLock := some i }.setTask i (.send .lbt)) []
  | sendStops {i : ℕ} {o : Outcome} (hold : s.tasks i = .send .waitLock) :
      Move s (.resume i o) (s.setTask i .finished) []
  | sendRuns {i : ℕ} {o : Outcome} {pc pc' : SendPc} {cmds : List ChipCmd}
      (hold : s.tasks i = .send pc) (hresumes : pc.Resumes o (some pc')) :
      Move s (.resume i o) ((s.sendEffect o pc).setTask i (.send pc')) cmds
  | sendEnds {i : ℕ} {o : Outcome} {pc : RestorePc} {how : SendEnd} {cmds : List ChipCmd}
      (hold : s.tasks i = .send (.restore pc how)) :
      Move s (.resume i o)
        ({ s with txLock := none, ended := s.ended ++ [how] }.setTask i .finished) cmds
  | cadWaits {i : ℕ} {o : Outcome} (hold : s.tasks i = .cadCalled) :
      Move s (.resume i o) (s.setTask i .cadWaitLock) []
  | cadGivesUp {i : ℕ} {o : Outcome} (hold : s.tasks i = .cadCalled ∨ s.tasks i = .cadWaitLock) :
      Move s (.resume i o) (s.giveUp i) []
  | cadAcquires {i : ℕ} {o : Outcome} (hold : s.tasks i = .cadWaitLock) (hfree : s.txLock = none) :
      Move s (.resume i o) ({ s with txLock := some i }.setTask i (.cad true .drain)) []
  | cadRuns {i : ℕ} {o : Outcome} {acquired : Bool} {pc pc' : CadPc} {cmds : List ChipCmd}
      (hold : s.tasks i = .cad acquired pc)
      (hresume : pc.resume (acquired || decide (s.txLock = none)) o = some ⟨cmds, some pc'⟩) :
      Move s (.resume i o) ((s.cadEffect o pc).setTask i (.cad acquired pc')) cmds
  | cadEnds {i : ℕ} {o : Outcome} {acquired : Bool} {pc : CadPc} {cmds : List ChipCmd}
      (hold : s.tasks i = .cad acquired pc)
      (hresume : pc.resume (acquired || decide (s.txLock = none)) o = some ⟨cmds, none⟩) :
      Move s (.resume i o)
        ({ s.cadEffect o pc with
          txLock := if acquired then none else s.txLock }.setTask i .finished) cmds

theorem resumeSend_move {i : ℕ} {o : Outcome} {pc : SendPc} (hold : s.tasks i = .send pc)
    (h : s.resumeSend i o pc = some (t, cmds)) : Move s (.resume i o) t cmds := by
  by_cases hlocked : pc = .waitLock
  · subst hlocked
    cases o with
    | next again =>
      obtain ⟨hfree, heq⟩ := Option.ite_none_right_eq_some.mp h
      cases heq
      exact .sendAcquires hold hfree
    | raised n => cases h
    | cancelled =>
      cases h
      exact .sendStops hold
  · have hrun : s.runSend i o pc = some (t, cmds) := by
      cases pc <;> first | exact absurd rfl hlocked | exact h
    obtain ⟨⟨cmds', next⟩, hresume, heq⟩ := Option.map_eq_some_iff.mp hrun
    cases next with
    | some pc' =>
      cases heq
      exact .sendRuns hold (SendPc.resumes hresume)
    | none =>
      cases SendPc.resumes hresume with
      | ends =>
        cases heq
        exact .sendEnds hold

theorem resumeCad_move {i : ℕ} {o : Outcome} {acquired : Bool} {pc : CadPc}
    (hold : s.tasks i = .cad acquired pc) (h : s.resumeCad i o acquired pc = some (t, cmds)) :
    Move s (.resume i o) t cmds := by
  obtain ⟨⟨cmds', next⟩, hresume, heq⟩ := Option.map_eq_some_iff.mp h
  have hlock := (s.cadEffect_same o pc).txLock
  cases next with
  | some pc' =>
    cases heq
    exact .cadRuns hold hresume
  | none =>
    dsimp only at heq
    rw [hlock] at heq
    cases heq
    exact .cadEnds hold hresume

theorem step_move (h : s.step a = some (t, cmds)) : Move s a t cmds := by
  cases a with
  | callSend i =>
    obtain ⟨hold, heq⟩ := Option.ite_none_right_eq_some.mp h
    cases heq
    exact .called rfl hold (.inl rfl)
  | callCad i =>
    obtain ⟨hold, heq⟩ := Option.ite_none_right_eq_some.mp h
    cases heq
    exact .called rfl hold (.inr rfl)
  | resume i o =>
    obtain ⟨-, h⟩ := Option.ite_none_right_eq_some.mp h
    split at h
    · rename_i pc hold
      exact resumeSend_move hold h
    · rename_i hold
      cases o with
      | next again => cases h; exact .cadWaits hold
      | raised n => cases h; exact .cadGivesUp (.inl hold)
      | cancelled => cases h
    · rename_i hold
      cases o with
      | next again =>
        obtain ⟨hfree, heq⟩ := Option.ite_none_right_eq_some.mp h
        cases heq
        exact .cadAcquires hold hfree
      | raised n => cases h; exact .cadGivesUp (.inr hold)
      | cancelled => cases h; exact .cadGivesUp (.inr hold)
    · rename_i acquired pc hold
      exact resumeCad_move hold h
    · cases h
    · cases h
  | interrupt now read =>
    cases h
    refine .aside rfl ⟨rfl, rfl, rfl⟩ (s.driver.handleInterrupt_txBufferBusy now read) ?_
    intro cmd hcmd hdisturbs
    rcases List.mem_cons.mp hcmd with rfl | hcmd
    · cases hdisturbs
    · cases List.mem_singleton.mp hcmd
      cases hdisturbs
  | buffer read =>
    cases h
    exact .aside rfl ⟨rfl, rfl, rfl⟩ rfl nofun
  | rxEnter metrics =>
    simp only [step] at h
    split at h
    · cases h
    · cases h
      refine .aside rfl ⟨rfl, rfl, rfl⟩ (Driver.rxSection_txBufferBusy _ metrics _) ?_
      intro cmd hcmd _
      by_contra hheld
      rw [if_neg hheld] at hcmd
      cases hcmd
  | rxLeave =>
    simp only [step] at h
    split at h
    · cases h
      exact .aside rfl ⟨rfl, rfl, rfl⟩ rfl nofun
    · cases h

/-- The lock is held by the task that is where it holds it, and a scan without it is in its
`finally` block. -/
structure Locked (s : System) : Prop where
  holds : ∀ i, (s.tasks i).holdsLock = true ↔ s.txLock = some i
  cleanup : ∀ i pc, s.tasks i = .cad false pc → pc.inCleanup = true

theorem SameTasks.locked (h : SameTasks s t) (hs : s.Locked) : t.Locked := by
  constructor
  · rw [h.tasks, h.txLock]
    exact hs.holds
  · rw [h.tasks]
    exact hs.cleanup

namespace Locked

variable {i : ℕ} {task : Task}

theorem update (hs : s.Locked) (htasks : t.tasks = Function.update s.tasks i task)
    (hothers : ∀ j, j ≠ i → (s.txLock = some j ↔ t.txLock = some j))
    (hholds : task.holdsLock = true ↔ t.txLock = some i)
    (hcleanup : ∀ pc, task = .cad false pc → pc.inCleanup = true) : t.Locked := by
  constructor
  · intro j
    by_cases hj : j = i
    · rw [htasks, hj, Function.update_self]
      exact hholds
    · rw [htasks, Function.update_of_ne hj]
      exact (hs.holds j).trans (hothers j hj)
  · intro j pc hcad
    by_cases hj : j = i
    · rw [htasks, hj, Function.update_self] at hcad
      exact hcleanup pc hcad
    · rw [htasks, Function.update_of_ne hj] at hcad
      exact hs.cleanup j pc hcad

theorem setTask (hs : s.Locked) (hholds : task.holdsLock = (s.tasks i).holdsLock)
    (hcleanup : ∀ pc, task = .cad false pc → pc.inCleanup = true) : (s.setTask i task).Locked := by
  refine hs.update rfl (fun _ _ => Iff.rfl) ?_ hcleanup
  rw [hholds]
  exact hs.holds i

theorem acquire (hs : s.Locked) (hfree : s.txLock = none) (hholds : task.holdsLock = true)
    (hcleanup : ∀ pc, task = .cad false pc → pc.inCleanup = true) :
    ({ s with txLock := some i }.setTask i task).Locked := by
  refine hs.update rfl (fun j hj => ?_) (iff_of_true hholds rfl) hcleanup
  rw [hfree]
  exact iff_of_false nofun fun heq => hj (Option.some.inj heq).symm

theorem release (hs : s.Locked) (hheld : (s.tasks i).holdsLock = true) (ended : List SendEnd) :
    ({ s with txLock := none, ended }.setTask i .finished).Locked := by
  refine hs.update rfl (fun j hj => ?_) (iff_of_false nofun nofun) nofun
  rw [(hs.holds i).mp hheld]
  exact iff_of_false (fun heq => hj (Option.some.inj heq).symm) nofun

end Locked

theorem holdsLock_send {pc : SendPc} (h : pc.phase ≠ .waiting) :
    (Task.send pc).holdsLock = true := by
  cases pc <;> first | exact absurd rfl h | rfl

theorem holdsLock_resumes {o : Outcome} {pc pc' : SendPc} (h : pc.Resumes o (some pc')) :
    (Task.send pc).holdsLock = true ∧ (Task.send pc').holdsLock = true := by
  suffices hphase : pc.phase ≠ .waiting ∧ pc'.phase ≠ .waiting from
    ⟨holdsLock_send hphase.1, holdsLock_send hphase.2⟩
  cases h with
  | unstaged hpc _ hnext =>
    rw [hpc]
    rcases hnext with hnext | hnext <;> rw [hnext] <;> exact ⟨nofun, nofun⟩
  | load hnext => rcases hnext with hnext | hnext <;> rw [hnext] <;> exact ⟨nofun, nofun⟩
  | staged hpc _ hnext =>
    rw [hpc]
    rcases hnext with hnext | hnext <;> rw [hnext] <;> exact ⟨nofun, nofun⟩
  | completes ho => exact ⟨nofun, nofun⟩
  | leaving => exact ⟨nofun, nofun⟩

theorem resume_inCleanup {mayRequest : Bool} {o : Outcome} {pc pc' : CadPc} {cmds : List ChipCmd}
    (hpc : pc.inCleanup = true) (h : pc.resume mayRequest o = some ⟨cmds, some pc'⟩) :
    pc'.inCleanup = true := by
  cases o with
  | next again => cases pc <;> cases hpc <;> cases h <;> rfl
  | raised n =>
    simp only [CadPc.resume, hpc, if_true] at h
    cases h
  | cancelled =>
    obtain ⟨-, h⟩ := Option.ite_none_left_eq_some.mp h
    rw [hpc] at h
    cases h

theorem Locked.move (hs : s.Locked) (h : Move s a t cmds) : t.Locked := by
  cases h with
  | aside ha hsame => exact hsame.locked hs
  | called ha hold hnew =>
    rcases hnew with rfl | rfl <;> exact hs.setTask (by rw [hold]; rfl) nofun
  | sendAcquires hold hfree => exact hs.acquire hfree rfl nofun
  | sendStops hold => exact hs.setTask (by rw [hold]; rfl) nofun
  | @sendRuns i o pc pc' cmds hold hresumes =>
    have hsame := s.sendEffect_same o pc
    obtain ⟨hholds, hholds'⟩ := holdsLock_resumes hresumes
    refine (hsame.locked hs).setTask ?_ nofun
    rw [hsame.tasks, hold, hholds, hholds']
  | sendEnds hold => exact hs.release (by rw [hold]; rfl) _
  | cadWaits hold => exact hs.setTask (by rw [hold]; rfl) nofun
  | @cadGivesUp i o hold =>
    refine hs.setTask ?_ fun pc heq => ?_
    · rcases hold with hold | hold <;> rw [hold] <;> rfl
    · cases heq
      rfl
  | cadAcquires hold hfree => exact hs.acquire hfree rfl nofun
  | @cadRuns i o acquired pc pc' cmds hold hresume =>
    have hsame := s.cadEffect_same o pc
    refine (hsame.locked hs).setTask ?_ fun pc heq => ?_
    · rw [hsame.tasks, hold]
      rfl
    · cases heq
      exact resume_inCleanup (hs.cleanup i _ hold) hresume
  | @cadEnds i o acquired pc cmds hold hresume =>
    have hsame := s.cadEffect_same o pc
    cases acquired with
    | true => exact (hsame.locked hs).release (by rw [hsame.tasks, hold]; rfl) _
    | false =>
      have htasks : Function.update (s.cadEffect o pc).tasks i .finished =
          Function.update s.tasks i .finished := by rw [hsame.tasks]
      refine hs.update htasks (fun _ _ => Iff.rfl) (iff_of_false nofun fun hlock => ?_) nofun
      have hheld := (hs.holds i).mpr hlock
      rw [hold] at hheld
      cases hheld

theorem locked_init : Locked {} where
  holds i := iff_of_false nofun nofun
  cleanup i pc hcad := by cases hcad

theorem run_locked {actions : List TaskAction} (h : run advance {} actions = some s) :
    s.Locked := by
  refine run_invariant (fun s a t hs hstep => ?_) locked_init h
  obtain ⟨⟨t', cmds⟩, hmove, rfl⟩ := Option.map_eq_some_iff.mp hstep
  exact hs.move (step_move hmove)

theorem holdsLock_transmitting {task : Task} (h : task.transmitting = true) :
    task.holdsLock = true := by
  unfold Task.transmitting at h
  split at h
  · rfl
  · rfl
  · cases h

theorem mem_block_of_resume {mayRequest : Bool} {o : Outcome} {pc : CadPc} {r : Resumed CadPc}
    (h : pc.resume mayRequest o = some r) {cmd : ChipCmd} (hcmd : cmd ∈ r.cmds) :
    cmd ∈ (pc.block mayRequest o.again).1 := by
  cases o with
  | next again =>
    cases h
    exact hcmd
  | raised n =>
    cases h
    exact List.mem_of_mem_take hcmd
  | cancelled =>
    obtain ⟨-, heq⟩ := Option.ite_none_left_eq_some.mp h
    cases heq
    cases hcmd

/-- The `finally` block of a scan without the lock disturbs up to its second `setDioIrqParams`. -/
theorem block_disturbs_iff {pc : CadPc} (again : Bool) (hpc : pc.inCleanup = true) :
    (∀ cmd ∈ (pc.block false again).1, cmd.disturbs = false) ↔ pc = .cleanup3 ∨ pc = .cleanup4 := by
  cases again <;> cases pc <;> cases hpc <;> decide

theorem Move.disturbs (h : Move s a t cmds) (hs : s.Locked) {i : ℕ} (hlock : s.txLock = some i)
    (hother : a.task ≠ some i) {cmd : ChipCmd} (hcmd : cmd ∈ cmds)
    (hdisturbs : cmd.disturbs = true) :
    ∃ j pc again, s.tasks j = .cad false pc ∧ cmd ∈ (pc.block false again).1 := by
  have hnot : ∀ {j o}, a = .resume j o → (s.tasks j).holdsLock ≠ true := by
    rintro j o rfl hholds
    rw [hs.holds j, hlock] at hholds
    exact hother (congrArg some (Option.some.inj hholds).symm)
  have hscan : ∀ {j o acquired pc r}, a = .resume j o → s.tasks j = .cad acquired pc →
      pc.resume (acquired || decide (s.txLock = none)) o = some r → cmd ∈ r.cmds →
      ∃ j pc again, s.tasks j = .cad false pc ∧ cmd ∈ (pc.block false again).1 := by
    intro j o acquired pc r ha hold hresume hmem
    cases acquired with
    | true => exact absurd (by rw [hold]; rfl) (hnot ha)
    | false =>
      rw [hlock] at hresume
      exact ⟨j, pc, o.again, hold, mem_block_of_resume hresume hmem⟩
  cases h with
  | aside ha hsame hbusy hcmds => cases hlock.symm.trans (hcmds cmd hcmd hdisturbs)
  | sendRuns hold hresumes =>
    exact absurd (by rw [hold]; exact (holdsLock_resumes hresumes).1) (hnot rfl)
  | sendEnds hold => exact absurd (by rw [hold]; rfl) (hnot rfl)
  | cadRuns hold hresume => exact hscan rfl hold hresume hcmd
  | cadEnds hold hresume => exact hscan rfl hold hresume hcmd
  | _ => cases hcmd

/-- A scan in its `finally` block goes on to the next await of it. -/
theorem step_cleanup {j : ℕ} {acquired : Bool} {pc : CadPc} (hcad : s.tasks j = .cad acquired pc)
    (hpc : pc.inCleanup = true) :
    ∃ t, s.step (.resume j (.next false)) =
      some (t, (pc.block (acquired || decide (s.txLock = none)) false).1) := by
  have hready : s.ready (.next false) (s.tasks j) = true := by
    rw [hcad]
    cases pc <;> cases hpc <;> rfl
  have hresume : s.step (.resume j (.next false)) = s.resumeCad j (.next false) acquired pc := by
    rw [step, if_pos hready, hcad]
  rw [hresume]
  cases pc <;> cases hpc <;> exact ⟨_, rfl⟩

/-- No task disturbs the transmission of another, unless a scan that did not get the lock is before
the standby or one of the `setDioIrqParams` of its `finally` block. -/
theorem undisturbed_iff (actions : List TaskAction) (s : System)
    (hrun : run advance {} actions = some s) (i : ℕ) (hsends : (s.tasks i).transmitting = true) :
    (∀ a t cmds, a.task ≠ some i → s.step a = some (t, cmds) →
        ∀ cmd ∈ cmds, cmd.disturbs = false) ↔
      ∀ j pc, s.tasks j = .cad false pc → pc = .cleanup3 ∨ pc = .cleanup4 := by
  have hs := run_locked hrun
  have hlock : s.txLock = some i := (hs.holds i).mp (holdsLock_transmitting hsends)
  constructor
  · intro h j pc hcad
    have hpc := hs.cleanup j pc hcad
    obtain ⟨t, hstep⟩ := step_cleanup hcad hpc
    have hheld : (false || decide (s.txLock = none)) = false := by rw [hlock]; rfl
    rw [hheld] at hstep
    have hother : (TaskAction.resume j (.next false)).task ≠ some i := by
      intro heq
      rw [Option.some.inj heq] at hcad
      rw [hcad] at hsends
      cases hsends
    exact (block_disturbs_iff false hpc).mp (h _ t _ hother hstep)
  · intro hpast a t cmds hother hstep cmd hcmd
    by_contra hdisturbs
    obtain ⟨j, pc, again, hcad, hmem⟩ := (step_move hstep).disturbs hs hlock hother hcmd
      (Bool.eq_true_of_not_eq_false hdisturbs)
    have hquiet := (block_disturbs_iff again (hs.cleanup j pc hcad)).mpr (hpast j pc hcad)
    exact hdisturbs (hquiet cmd hmem)

/-- A send whose scan finds the channel clear, up to where its transmission has started. -/
def sendStarted (i : ℕ) : List TaskAction :=
  .callSend i :: List.replicate 18 (.resume i (.next false))

/-- A scan that waits for the lock leaves the transmission alone. -/
theorem undisturbed_while_scan_waits :
    ∃ s, run advance {} (sendStarted 0 ++ [.callCad 1, .resume 1 (.next false)]) = some s ∧
      (s.tasks 0).transmitting = true ∧ s.tasks 1 = .cadWaitLock ∧
      ∀ a t cmds, a.task ≠ some 0 → s.step a = some (t, cmds) →
        ∀ cmd ∈ cmds, cmd.disturbs = false := by
  refine ⟨_, rfl, rfl, rfl, (undisturbed_iff
    (sendStarted 0 ++ [.callCad 1, .resume 1 (.next false)]) _ rfl 0 rfl).mpr ?_⟩
  rintro (_ | _ | j) pc hcad <;> cases hcad

/-- Once its wait times out, its `finally` block puts the transmitting chip into standby. -/
theorem scan_without_lock_disturbs :
    ∃ s t, run advance {}
        (sendStarted 0 ++ [.callCad 1, .resume 1 (.next false), .resume 1 (.raised 0)]) = some s ∧
      (s.tasks 0).transmitting = true ∧
      s.step (.resume 1 (.next false)) = some (t, [.clearIrqStatus, .setStandby]) ∧
      ChipCmd.setStandby.disturbs = true :=
  ⟨_, _, rfl, rfl, rfl, rfl⟩

end System

end OpenHop.Sx1262
