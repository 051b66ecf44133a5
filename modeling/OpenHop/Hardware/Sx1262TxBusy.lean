import OpenHop.Hardware.Sx1262Tasks

/-! # The flag of the transmit buffer

A send raises `_tx_buffer_busy` before it writes the buffer and lowers it when its
transmission has completed, on no other way out. The interrupt handler does not wake the
background task while the flag is up.
-/

namespace OpenHop.Sx1262

open Machine

/-- The last send that came to use the buffer did not lower the flag. -/
def stale (ended : List SendEnd) : Bool :=
  (ended.filter (· ≠ .unstaged)).getLast? == some .failed

theorem stale_unstaged (ended : List SendEnd) : stale (ended ++ [.unstaged]) = stale ended := by
  simp [stale]

theorem stale_completed (ended : List SendEnd) : stale (ended ++ [.completed]) = false := by
  simp [stale]

theorem stale_failed (ended : List SendEnd) : stale (ended ++ [.failed]) = true := by
  simp [stale]

def SendPhase.busy (ended : List SendEnd) : SendPhase → Bool
  | .waiting | .unstaged => stale ended
  | .staged => true
  | .leaving how => stale (ended ++ [how])

def Task.busy (ended : List SendEnd) : Task → Bool
  | .send pc => pc.phase.busy ended
  | _ => stale ended

namespace System

variable {s t : System} {a : TaskAction} {cmds : List ChipCmd} {i : ℕ}

def flag (s : System) : Bool :=
  match s.txLock with
  | some i => (s.tasks i).busy s.ended
  | none => stale s.ended

theorem flag_of_free (h : s.txLock = none) : s.flag = stale s.ended := by
  simp only [flag, h]

theorem flag_of_holder {task : Task} (hlock : s.txLock = some i) (htask : s.tasks i = task) :
    s.flag = task.busy s.ended := by
  simp only [flag, hlock, htask]

theorem flag_setTask_self (h : s.txLock = some i) (task : Task) :
    (s.setTask i task).flag = task.busy s.ended := by
  simp only [flag, setTask, h, Function.update_self]

theorem flag_setTask_of_ne (h : s.txLock ≠ some i) (task : Task) :
    (s.setTask i task).flag = s.flag := by
  cases hlock : s.txLock with
  | none => simp only [flag, setTask, hlock]
  | some j =>
    have hj : j ≠ i := fun heq => h (hlock.trans (congrArg some heq))
    simp only [flag, setTask, hlock, Function.update_of_ne hj]

theorem SameTasks.flag (h : SameTasks s t) : t.flag = s.flag := by
  simp only [System.flag, h.tasks, h.txLock, h.ended]

theorem drain_txBufferBusy (s : System) (o : Outcome) :
    (s.drain o).driver.txBufferBusy = s.driver.txBufferBusy := by
  cases o with
  | next again => exact s.driver.drainSection_txBufferBusy s.rxBuffer
  | raised n => exact s.driver.drainSection_txBufferBusy _
  | cancelled => rfl

theorem cadEffect_txBufferBusy (s : System) (o : Outcome) (pc : CadPc) :
    (s.cadEffect o pc).driver.txBufferBusy = s.driver.txBufferBusy := by
  unfold cadEffect
  split
  · exact s.drain_txBufferBusy o
  · split <;> rfl
  · split <;> rfl
  · split <;> rfl
  · rfl

theorem sendEffect_txBufferBusy_of_unstaged {pc : SendPc} (o : Outcome)
    (hpc : pc.phase = .unstaged) (hload : pc ≠ .load) :
    (s.sendEffect o pc).driver.txBufferBusy = s.driver.txBufferBusy := by
  cases pc with
  | cad pc cancelled => exact s.cadEffect_txBufferBusy o pc
  | standby =>
    simp only [sendEffect]
    split <;> rfl
  | drain => exact s.drain_txBufferBusy o
  | load => exact absurd rfl hload
  | awaiting => cases hpc
  | _ => rfl

theorem sendEffect_of_staged {pc : SendPc} {o : Outcome} (hpc : pc.phase = .staged)
    (hgoes : pc ≠ .awaiting ∨ o ≠ .next false) : s.sendEffect o pc = s := by
  cases pc with
  | loaded => rfl
  | started => rfl
  | awaiting => exact if_neg (hgoes.resolve_left (· rfl))
  | _ => cases hpc

theorem sendEffect_txBufferBusy {o : Outcome} {pc pc' : SendPc} (h : pc.Resumes o (some pc'))
    (hbusy : s.driver.txBufferBusy = pc.phase.busy s.ended) :
    (s.sendEffect o pc).driver.txBufferBusy = pc'.phase.busy s.ended := by
  cases h with
  | unstaged hpc hload hnext =>
    rw [sendEffect_txBufferBusy_of_unstaged o hpc hload, hbusy, hpc]
    rcases hnext with hnext | hnext <;> rw [hnext]
    exact (stale_unstaged s.ended).symm
  | load hnext =>
    rcases hnext with hnext | hnext <;> rw [hnext]
    · rfl
    · exact (stale_failed s.ended).symm
  | staged hpc hgoes hnext =>
    rw [sendEffect_of_staged hpc hgoes, hbusy, hpc]
    rcases hnext with hnext | hnext <;> rw [hnext]
    exact (stale_failed s.ended).symm
  | completes ho =>
    rw [sendEffect, if_pos ho]
    exact (stale_completed s.ended).symm
  | leaving => exact hbusy

structure Flagged (s : System) : Prop where
  locked : s.Locked
  busy : s.driver.txBufferBusy = s.flag

theorem Locked.ne_holder (hs : s.Locked) {task : Task} (hold : s.tasks i = task)
    (h : task.holdsLock = false) : s.txLock ≠ some i := by
  intro hlock
  have hheld := (hs.holds i).mpr hlock
  rw [hold, h] at hheld
  cases hheld

theorem Locked.holder (hs : s.Locked) {task : Task} (hold : s.tasks i = task)
    (h : task.holdsLock = true) : s.txLock = some i :=
  (hs.holds i).mp (hold ▸ h)

theorem Flagged.move (hs : s.Flagged) (h : Move s a t cmds) : t.Flagged := by
  refine ⟨hs.locked.move h, ?_⟩
  have hbusy := hs.busy
  cases h with
  | aside ha hsame hsameBusy =>
    rw [hsameBusy, hsame.flag]
    exact hbusy
  | called ha hold hnew =>
    rw [flag_setTask_of_ne (hs.locked.ne_holder hold rfl)]
    exact hbusy
  | sendAcquires hold hfree =>
    rw [flag_setTask_self rfl]
    exact hbusy.trans (flag_of_free hfree)
  | sendStops hold =>
    rw [flag_setTask_of_ne (hs.locked.ne_holder hold rfl)]
    exact hbusy
  | @sendRuns i o pc pc' cmds hold hresumes =>
    have hlock := hs.locked.holder hold (holdsLock_resumes hresumes).1
    have hsame := s.sendEffect_same o pc
    rw [flag_setTask_self (hsame.txLock.trans hlock), hsame.ended]
    exact sendEffect_txBufferBusy hresumes (hbusy.trans (flag_of_holder hlock hold))
  | sendEnds hold =>
    have hlock := hs.locked.holder hold rfl
    exact hbusy.trans (flag_of_holder hlock hold)
  | cadWaits hold =>
    rw [flag_setTask_of_ne (hs.locked.ne_holder hold rfl)]
    exact hbusy
  | cadGivesUp hold =>
    rw [giveUp]
    rcases hold with hold | hold <;> rw [flag_setTask_of_ne (hs.locked.ne_holder hold rfl)] <;>
      exact hbusy
  | cadAcquires hold hfree =>
    rw [flag_setTask_self rfl]
    exact hbusy.trans (flag_of_free hfree)
  | @cadRuns i o acquired pc pc' cmds hold hresume =>
    have hsame := s.cadEffect_same o pc
    refine (s.cadEffect_txBufferBusy o pc).trans (hbusy.trans ?_)
    cases acquired with
    | true =>
      have hlock := hs.locked.holder hold rfl
      rw [flag_of_holder hlock hold, flag_setTask_self (hsame.txLock.trans hlock), hsame.ended]
      rfl
    | false =>
      rw [flag_setTask_of_ne (hsame.txLock ▸ hs.locked.ne_holder hold rfl), hsame.flag]
  | @cadEnds i o acquired pc cmds hold hresume =>
    have hsame := s.cadEffect_same o pc
    refine (s.cadEffect_txBufferBusy o pc).trans (hbusy.trans ?_)
    cases acquired with
    | true =>
      rw [flag_of_holder (hs.locked.holder hold rfl) hold, flag_of_free rfl]
      exact congrArg stale hsame.ended.symm
    | false =>
      have hlocked : SameTasks s { s.cadEffect o pc with txLock := s.txLock } :=
        ⟨hsame.tasks, rfl, hsame.ended⟩
      have hne := hs.locked.ne_holder hold rfl
      rw [← hlocked.flag]
      exact (flag_setTask_of_ne (s := { s.cadEffect o pc with txLock := s.txLock }) hne _).symm

theorem run_flagged {actions : List TaskAction} (h : run advance {} actions = some s) :
    s.Flagged := by
  have hinit : Flagged {} := ⟨locked_init, rfl⟩
  refine run_invariant (fun s a t hs hstep => ?_) hinit h
  obtain ⟨⟨t', cmds⟩, hmove, rfl⟩ := Option.map_eq_some_iff.mp hstep
  exact hs.move (step_move hmove)

theorem busy_of_not_sending {task : Task} (h : task.sending = false) (ended : List SendEnd) :
    task.busy ended = stale ended := by
  cases task with
  | send pc =>
    cases pc with
    | waitLock => rfl
    | _ => cases h
  | _ => rfl

theorem Flagged.idle (hs : s.Flagged) (hidle : ∀ i, (s.tasks i).sending = false) :
    s.driver.txBufferBusy = stale s.ended := by
  rw [hs.busy]
  cases hlock : s.txLock with
  | none => exact flag_of_free hlock
  | some i => exact (flag_of_holder hlock rfl).trans (busy_of_not_sending (hidle i) s.ended)

theorem run_rxSection (h : s.rxInside = none) (metrics : Metrics) :
    ∃ t, run advance s [.rxEnter (some metrics), .rxLeave] = some t ∧
      t.delivered = s.delivered ++
        ({ s.driver with rxDoneEvent := false }.rxSection (some metrics) s.rxBuffer).2.toList := by
  simp [run, advance, step, h]

/-- The radio hears: the flag is down, a terminal interrupt wakes the background task, and a packet
that ends without a CRC error then is passed on. -/
structure Hears (s : System) : Prop where
  lowered : s.driver.txBufferBusy = false
  wakes : ∀ now irq, carries irq terminalInterrupts = true →
    (s.driver.handleInterrupt now (.status irq false)).rxDoneEvent = true
  delivers : ∀ now irq metrics data, carries irq irqRxDone = true → carries irq irqCrcErr = false →
    s.rxBuffer = .packet data → s.rxInside = none →
      ∃ t u, s.advance (.interrupt now (.status irq false)) = some t ∧
        t.driver.rxDoneEvent = true ∧
        run advance t [.rxEnter (some metrics), .rxLeave] = some u ∧
        u.delivered = s.delivered ++ [data]

theorem hears_of_lowered (h : s.driver.txBufferBusy = false) : s.Hears := by
  have hwakes : ∀ now irq, carries irq terminalInterrupts = true →
      (s.driver.handleInterrupt now (.status irq false)).rxDoneEvent = true := by
    intro now irq hterminal
    rw [(s.driver.handleInterrupt_spec now irq).2.2.1, hterminal, h]
    simp
  refine ⟨h, hwakes, ?_⟩
  intro now irq metrics data hdone hcrc hbuffer hinside
  have hlast : (s.driver.handleInterrupt now (.status irq false)).lastIrqStatus = irq := by
    rw [(s.driver.handleInterrupt_spec now irq).2.1, if_pos (ne_zero_of_carries hdone)]
  obtain ⟨u, hrun, hdelivered⟩ :=
    run_rxSection (s := { s with driver := s.driver.handleInterrupt now (.status irq false) })
      hinside metrics
  refine ⟨_, u, rfl, hwakes now irq (carries_of_part (by decide) hdone), hrun, ?_⟩
  rw [hdelivered, Driver.rxSection_data]
  simp [hlast, hdone, hcrc, hbuffer, Driver.BufferRead.data?]

/-- While no send has the lock, the radio hears unless the last send that came to use the buffer
failed. -/
theorem hears_iff (actions : List TaskAction) (s : System)
    (hrun : run advance {} actions = some s) (hidle : ∀ i, (s.tasks i).sending = false) :
    s.Hears ↔ stale s.ended = false := by
  rw [← (run_flagged hrun).idle hidle]
  exact ⟨Hears.lowered, hears_of_lowered⟩

/-- A send that completes, and one that starts and times out. -/
def sendCompleted (i : ℕ) : List TaskAction :=
  sendStarted i ++ List.replicate 5 (.resume i (.next false))

def sendTimedOut (i : ℕ) : List TaskAction :=
  sendStarted i ++ [.resume i (.next false), .resume i (.raised 0)] ++
    List.replicate 3 (.resume i (.next false))

theorem hears_after_completion :
    ∃ s, run advance {} (sendTimedOut 0 ++ sendCompleted 1) = some s ∧
      s.ended = [.failed, .completed] ∧ s.Hears := by
  refine ⟨_, rfl, rfl, (hears_iff (sendTimedOut 0 ++ sendCompleted 1) _ rfl ?_).mpr rfl⟩
  rintro (_ | _ | i) <;> rfl

/-- After a transmission that timed out the packets that end do not wake the background task. -/
theorem deaf_after_timeout :
    ∃ s, run advance {} (sendTimedOut 0) = some s ∧ (∀ i, (s.tasks i).sending = false) ∧
      s.driver.txBufferBusy = true ∧ s.driver.rxDoneEvent = false ∧
      (s.driver.handleInterrupt 0 (.status irqRxDone false)).rxDoneEvent = false := by
  refine ⟨_, rfl, ?_, rfl, rfl, rfl⟩
  rintro (_ | i) <;> rfl

end System

end OpenHop.Sx1262
