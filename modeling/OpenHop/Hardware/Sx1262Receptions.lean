import OpenHop.Hardware.Sx1262
import OpenHop.Machine.Runs

/-! # Receptions of the SX1262

Two consumers share the receive buffer. The background task is woken by an event and goes by
the last status, which every later interrupt replaces; a drain goes by the latch and leaves
event and last status as they are.
-/

namespace OpenHop.Sx1262

open Machine

/-- What the chip's buffer holds: a received packet, or data to transmit. -/
inductive Content where
  | packet (n : ℕ)
  | transmit
  deriving DecidableEq

/-- Where the background task is. It waits for the event, waits for the lock after it has cleared
the event, or is in its locked section with what it has read. -/
inductive Background where
  | waiting
  | acquiring
  | inside (data : Option Content)
  deriving DecidableEq

/-- The driver with its chip. `woken` says that the background task waits and was woken, which
clearing the event does not undo; `drains` counts the drains that wait for the lock. -/
structure Receptions where
  driver : Driver := {}
  chipIrq : IrqStatus := 0
  received : ℕ := 0
  buffer : Content := .transmit
  emptyPacket : Bool := false
  background : Background := .waiting
  woken : Bool := false
  drains : ℕ := 0
  delivered : List Content := []

inductive RxAction where
  /-- The chip completes a packet; it is readable until the next one or a write of the buffer. -/
  | receive (bits : IrqStatus) (empty : Bool)
  | raise (bits : IrqStatus)
  | clearIrqStatus (bits : IrqStatus)
  | writeBuffer
  | setTxBufferBusy (busy : Bool)
  | clearRxDone
  | interrupt (now : ℚ)
  | timeout
  | wake
  | rxEnter (metrics : Metrics)
  | rxLeave
  | drainBegin
  | drainEnter

namespace Receptions

def read (s : Receptions) : Driver.BufferRead Content :=
  if s.emptyPacket then .empty else .packet s.buffer

/-- One step of the chip, of the interrupt handler, of the background task, of a drain or of a task
that prepares a transmission. -/
def step (s : Receptions) : RxAction → Option Receptions
  | .receive bits empty => some { s with
      chipIrq := s.chipIrq ||| irqRxDone ||| bits
      received := s.received + 1
      buffer := .packet s.received
      emptyPacket := empty }
  | .raise bits => some { s with chipIrq := s.chipIrq ||| (bits &&& ~~~irqRxDone) }
  | .clearIrqStatus bits => some { s with chipIrq := s.chipIrq &&& ~~~bits }
  | .writeBuffer => some { s with buffer := .transmit }
  | .setTxBufferBusy busy => some { s with driver := { s.driver with txBufferBusy := busy } }
  | .clearRxDone => some { s with driver := { s.driver with rxDoneEvent := false } }
  | .interrupt now =>
    let driver := s.driver.handleInterrupt now (.status s.chipIrq false)
    some { s with
      driver
      chipIrq := 0
      woken := s.woken || (decide (s.background = .waiting) && driver.rxDoneEvent) }
  | .timeout => if s.background = .waiting then some { s with woken := false } else none
  | .wake =>
    if s.background = .waiting ∧ (s.driver.rxDoneEvent = true ∨ s.woken = true) then
      some { s with
        driver := { s.driver with rxDoneEvent := false }
        woken := false
        background := .acquiring }
    else none
  | .rxEnter metrics =>
    if s.background = .acquiring then
      let (driver, data) := s.driver.rxSection (some metrics) s.read
      some { s with driver, background := .inside data }
    else none
  | .rxLeave =>
    match s.background with
    | .inside data => some { s with
        background := .waiting, delivered := s.delivered ++ data.toList }
    | _ => none
  | .drainBegin =>
    if s.driver.pendingRxIrqStatus ≠ 0 then some { s with drains := s.drains + 1 } else none
  | .drainEnter =>
    match s.background, s.drains with
    | .inside _, _ => none
    | _, 0 => none
    | _, drains + 1 =>
      let (driver, data) := s.driver.drainSection s.read
      some { s with driver, drains, delivered := s.delivered ++ data.toList }

end Receptions

def Background.inHand : Background → List Content
  | .inside data => data.toList
  | _ => []

namespace Receptions

variable {s t : Receptions} {a : RxAction} {p : ℕ}

/-- How often a packet was passed on, or is about to be. -/
def copies (s : Receptions) (p : ℕ) : ℕ :=
  (s.delivered ++ s.background.inHand).count (.packet p)

def Awake (s : Receptions) : Prop :=
  s.driver.rxDoneEvent = true ∨ s.woken = true ∨ s.background = .acquiring

/-- A consumer enters its section, and after that the background task has no wake-up to follow. A
drain must not find a CRC error in the latch. -/
inductive EntersAlone (s : Receptions) : RxAction → Prop where
  | background (metrics : Metrics) (hevent : s.driver.rxDoneEvent = false)
      (hwoken : s.woken = false) : EntersAlone s (.rxEnter metrics)
  | drain (hasleep : ¬ s.Awake) (hcrc : carries s.driver.pendingRxIrqStatus irqCrcErr = false) :
      EntersAlone s .drainEnter

/-- No locked section is entered, the buffer is not used again, and an interrupt finds no status or
comes before a drain. -/
def Undisturbed (consumer : RxAction) (s : Receptions) : RxAction → Prop
  | .receive .. | .writeBuffer | .rxEnter _ | .drainEnter => False
  | .interrupt _ => s.chipIrq = 0 ∨ consumer = .drainEnter
  | _ => True

inductive Move (s : Receptions) : RxAction → Receptions → Prop where
  | receive (bits : IrqStatus) (empty : Bool) : Move s (.receive bits empty) { s with
      chipIrq := s.chipIrq ||| irqRxDone ||| bits
      received := s.received + 1
      buffer := .packet s.received
      emptyPacket := empty }
  | raise (bits : IrqStatus) :
      Move s (.raise bits) { s with chipIrq := s.chipIrq ||| (bits &&& ~~~irqRxDone) }
  | clearIrqStatus (bits : IrqStatus) :
      Move s (.clearIrqStatus bits) { s with chipIrq := s.chipIrq &&& ~~~bits }
  | writeBuffer : Move s .writeBuffer { s with buffer := .transmit }
  | setTxBufferBusy (busy : Bool) : Move s (.setTxBufferBusy busy) { s with
      driver := { s.driver with txBufferBusy := busy } }
  | clearRxDone : Move s .clearRxDone { s with driver := { s.driver with rxDoneEvent := false } }
  | interrupt (now : ℚ) : Move s (.interrupt now) { s with
      driver := s.driver.handleInterrupt now (.status s.chipIrq false)
      chipIrq := 0
      woken := s.woken || (decide (s.background = .waiting) &&
        (s.driver.handleInterrupt now (.status s.chipIrq false)).rxDoneEvent) }
  | timeout (hwaiting : s.background = .waiting) : Move s .timeout { s with woken := false }
  | wake (hwaiting : s.background = .waiting)
      (hwoken : s.driver.rxDoneEvent = true ∨ s.woken = true) : Move s .wake { s with
        driver := { s.driver with rxDoneEvent := false }
        woken := false
        background := .acquiring }
  | rxEnter (hacquiring : s.background = .acquiring) (metrics : Metrics) :
      Move s (.rxEnter metrics) { s with
        driver := (s.driver.rxSection (some metrics) s.read).1
        background := .inside (s.driver.rxSection (some metrics) s.read).2 }
  | rxLeave {data : Option Content} (hinside : s.background = .inside data) :
      Move s .rxLeave { s with
        background := .waiting, delivered := s.delivered ++ data.toList }
  | drainBegin : Move s .drainBegin { s with drains := s.drains + 1 }
  | drainEnter (drains : ℕ) : Move s .drainEnter { s with
      driver := (s.driver.drainSection s.read).1
      drains
      delivered := s.delivered ++ (s.driver.drainSection s.read).2.toList }

theorem step_move (h : step s a = some t) : Move s a t := by
  cases a with
  | receive bits empty => cases h; exact .receive bits empty
  | raise bits => cases h; exact .raise bits
  | clearIrqStatus bits => cases h; exact .clearIrqStatus bits
  | writeBuffer => cases h; exact .writeBuffer
  | setTxBufferBusy busy => cases h; exact .setTxBufferBusy busy
  | clearRxDone => cases h; exact .clearRxDone
  | interrupt now => cases h; exact .interrupt now
  | timeout =>
    obtain ⟨hwaiting, heq⟩ := Option.ite_none_right_eq_some.mp h
    cases heq
    exact .timeout hwaiting
  | wake =>
    obtain ⟨⟨hwaiting, hwoken⟩, heq⟩ := Option.ite_none_right_eq_some.mp h
    cases heq
    exact .wake hwaiting hwoken
  | rxEnter metrics =>
    obtain ⟨hacquiring, heq⟩ := Option.ite_none_right_eq_some.mp h
    cases heq
    exact .rxEnter hacquiring metrics
  | rxLeave =>
    simp only [step] at h
    split at h
    · rename_i data hinside
      cases h
      exact .rxLeave hinside
    · cases h
  | drainBegin =>
    obtain ⟨-, heq⟩ := Option.ite_none_right_eq_some.mp h
    cases heq
    exact .drainBegin
  | drainEnter =>
    simp only [step] at h
    split at h
    · cases h
    · cases h
    · cases h
      exact .drainEnter _

theorem Move.metrics (h : Move s a t) (ha : ∀ metrics, a ≠ .rxEnter metrics) :
    t.driver.metrics = s.driver.metrics := by
  cases h with
  | interrupt now => exact s.driver.handleInterrupt_metrics now _
  | rxEnter _ metrics => exact absurd rfl (ha metrics)
  | drainEnter => exact s.driver.drainSection_metrics s.read
  | _ => rfl

theorem Move.metrics_rxEnter {metrics : Metrics} (h : Move s (.rxEnter metrics) t) :
    t.driver.metrics =
      if carries s.driver.lastIrqStatus irqRxDone && !carries s.driver.lastIrqStatus irqCrcErr then
        metrics
      else s.driver.metrics := by
  cases h
  exact s.driver.rxSection_metrics metrics s.read

/-- The packet is in the buffer, latched and not passed on. -/
structure Latched (s : Receptions) (p : ℕ) : Prop where
  buffer : s.buffer = .packet p
  nonempty : s.emptyPacket = false
  pending : carries s.driver.pendingRxIrqStatus irqRxDone = true
  chip : carries s.chipIrq irqRxDone = false
  known : p < s.received
  untaken : s.copies p = 0

/-- The last status announces an intact packet. -/
def Announced (s : Receptions) : Prop :=
  carries s.driver.lastIrqStatus irqRxDone = true ∧ carries s.driver.lastIrqStatus irqCrcErr = false

theorem Latched.of_interrupt {now : ℚ} (h : Move s (.interrupt now) t)
    (hirq : carries s.chipIrq irqRxDone = true) (hcrc : carries s.chipIrq irqCrcErr = false)
    (hbuffer : s.buffer = .packet p) (hnonempty : s.emptyPacket = false)
    (hknown : p < s.received) (huntaken : s.copies p = 0) : t.Latched p ∧ t.Announced := by
  cases h
  obtain ⟨hpending, hlast, -, -⟩ := s.driver.handleInterrupt_spec now s.chipIrq
  rw [if_pos (ne_zero_of_carries hirq)] at hlast
  refine ⟨⟨hbuffer, hnonempty, ?_, carries_zero _, hknown, huntaken⟩, ?_⟩
  · dsimp only
    rw [hpending, carries_or, carries_and (by decide), hirq, Bool.or_true]
  · dsimp only [Announced]
    rw [hlast]
    exact ⟨hirq, hcrc⟩

theorem not_carries_raise (h : carries s.chipIrq irqRxDone = false) (bits : IrqStatus) :
    carries (s.chipIrq ||| (bits &&& ~~~irqRxDone)) irqRxDone = false := by
  rw [carries_or, h, not_carries_and_not (by decide) bits]
  rfl

theorem Latched.move {consumer : RxAction} (hl : s.Latched p) (hquiet : s.Undisturbed consumer a)
    (h : Move s a t) : t.Latched p := by
  have huntaken := hl.untaken
  rw [copies] at huntaken
  cases h with
  | receive bits empty => cases hquiet
  | writeBuffer => cases hquiet
  | rxEnter hacquiring metrics => cases hquiet
  | drainEnter drains => cases hquiet
  | interrupt now =>
    obtain ⟨hpending, -, -, -⟩ := s.driver.handleInterrupt_spec now s.chipIrq
    refine { hl with pending := ?_, chip := carries_zero _ }
    dsimp only
    rw [hpending, carries_or, hl.pending, Bool.true_or]
  | raise bits => exact { hl with chip := not_carries_raise hl.chip bits }
  | clearIrqStatus bits => exact { hl with chip := carries_and_of_false hl.chip _ }
  | wake hwaiting hwoken =>
    rw [hwaiting] at huntaken
    exact { hl with untaken := huntaken }
  | rxLeave hinside =>
    rw [hinside] at huntaken
    refine { hl with untaken := ?_ }
    simpa [copies, Background.inHand] using huntaken
  | _ => exact { hl with }

theorem Announced.move {consumer : RxAction} (hs : s.Announced) (hconsumer : consumer ≠ .drainEnter)
    (hquiet : s.Undisturbed consumer a) (h : Move s a t) : t.Announced := by
  cases h with
  | rxEnter hacquiring metrics => cases hquiet
  | drainEnter drains => cases hquiet
  | interrupt now =>
    obtain ⟨-, hlast, -, -⟩ := s.driver.handleInterrupt_spec now s.chipIrq
    rw [if_neg (not_not.mpr (hquiet.resolve_right hconsumer))] at hlast
    dsimp only [Announced]
    rw [hlast]
    exact hs
  | _ => exact hs

/-- The packet was taken once, and as long as it stays in the buffer nothing leads to it. -/
structure Settled (s : Receptions) (p : ℕ) : Prop where
  once : s.copies p = 1
  known : p < s.received
  unlatched : s.buffer = .packet p → carries s.driver.pendingRxIrqStatus irqRxDone = false
  chip : s.buffer = .packet p → carries s.chipIrq irqRxDone = false
  unannounced : s.buffer = .packet p → s.Awake → carries s.driver.lastIrqStatus irqRxDone = false

theorem read_of_packet (hbuffer : s.buffer = .packet p) (hnonempty : s.emptyPacket = false) :
    s.read.data? = some (.packet p) := by
  rw [read, hnonempty, hbuffer]
  rfl

theorem buffer_of_read (h : s.read.data? = some (.packet p)) : s.buffer = .packet p := by
  unfold read at h
  split at h
  · cases h
  · exact Option.some.inj h

theorem count_toList_of_ne {data : Option Content} (h : data ≠ some (.packet p)) :
    data.toList.count (.packet p) = 0 := by
  refine List.count_eq_zero.mpr fun hmem => h ?_
  simpa using hmem

theorem Latched.enters (hl : s.Latched p) (hannounced : a ≠ .drainEnter → s.Announced)
    (ha : EntersAlone s a) (h : Move s a t) : t.Settled p := by
  have hread := read_of_packet hl.buffer hl.nonempty
  have huntaken := hl.untaken
  rw [copies] at huntaken
  cases ha with
  | background metrics hevent hwoken =>
    cases h with | rxEnter hacquiring =>
    obtain ⟨hpending, hlast, hsame⟩ := s.driver.rxSection_spec (some metrics) s.read
    have hdata := s.driver.rxSection_data metrics s.read
    obtain ⟨hdone, hintact⟩ := hannounced nofun
    rw [if_pos ⟨hdone, hintact⟩, hread] at hdata
    rw [hacquiring] at huntaken
    refine ⟨?_, hl.known, fun _ => ?_, fun _ => hl.chip, fun _ hawake => ?_⟩
    · simpa [copies, Background.inHand, hdata] using huntaken
    · dsimp only
      rw [hpending]
      refine not_carries_and_not ?_ _
      rw [carries_and (by decide), hdone]
    · rcases hawake with hset | hset | hset
      · rw [hsame, hevent] at hset
        cases hset
      · cases hwoken.symm.trans hset
      · cases hset
  | drain hasleep hcrc =>
    cases h with | drainEnter drains =>
    have hdata := s.driver.drainSection_data s.read
    rw [if_pos ⟨hl.pending, hcrc⟩, hread] at hdata
    obtain ⟨hpending, hlast, hsame⟩ := s.driver.drainSection_spec s.read
    refine ⟨?_, hl.known, fun _ => ?_, fun _ => hl.chip, fun _ hawake => absurd ?_ hasleep⟩
    · simp only [copies, hdata, Option.toList_some, List.count_append,
        List.count_singleton_self] at huntaken ⊢
      omega
    · dsimp only
      rw [hpending, carries_zero]
    · rwa [Awake, hsame] at hawake

theorem Settled.interrupt (hs : s.Settled p) {now : ℚ} (h : Move s (.interrupt now) t) :
    t.Settled p := by
  cases h
  obtain ⟨hpending, hlast, hevent, -⟩ := s.driver.handleInterrupt_spec now s.chipIrq
  refine ⟨hs.once, hs.known, fun hbuffer => ?_, fun _ => carries_zero _, fun hbuffer hawake => ?_⟩
  · dsimp only
    rw [hpending, carries_or, hs.unlatched hbuffer, carries_and (by decide), hs.chip hbuffer]
    rfl
  · dsimp only
    rw [hlast]
    split
    · exact hs.chip hbuffer
    · rename_i hzero
      have hquiet : carries s.chipIrq terminalInterrupts = false := by
        rw [not_not.mp hzero, carries_zero]
      rw [hquiet, Bool.false_and, Bool.or_false] at hevent
      refine hs.unannounced hbuffer ?_
      rcases hawake with hset | hset | hset
      · exact .inl (hevent.symm.trans hset)
      · dsimp only at hset
        rw [hevent, Bool.or_eq_true, Bool.and_eq_true] at hset
        rcases hset with hset | hset
        · exact .inr (.inl hset)
        · exact .inl hset.2
      · exact .inr (.inr hset)

theorem Settled.rxEnter (hs : s.Settled p) {metrics : Metrics}
    (h : Move s (.rxEnter metrics) t) : t.Settled p := by
  cases h with | rxEnter hacquiring =>
  obtain ⟨hpending, hlast, hsame⟩ := s.driver.rxSection_spec (some metrics) s.read
  have hawake : s.Awake := .inr (.inr hacquiring)
  have hother : (s.driver.rxSection (some metrics) s.read).2 ≠ some (.packet p) := by
    intro hdata
    rw [Driver.rxSection_data] at hdata
    obtain ⟨hcarries, hread⟩ := Option.ite_none_right_eq_some.mp hdata
    rw [hs.unannounced (buffer_of_read hread) hawake] at hcarries
    cases hcarries.1
  have honce := hs.once
  rw [copies, hacquiring] at honce
  refine ⟨?_, hs.known, fun hbuffer => ?_, hs.chip, fun hbuffer _ => ?_⟩
  · simpa [copies, Background.inHand, count_toList_of_ne hother] using honce
  · dsimp only
    rw [hpending]
    exact carries_and_of_false (hs.unlatched hbuffer) _
  · dsimp only
    rw [hlast]
    exact hs.unannounced hbuffer hawake

theorem Settled.drainEnter (hs : s.Settled p) (h : Move s .drainEnter t) : t.Settled p := by
  cases h with | drainEnter drains =>
  obtain ⟨hpending, hlast, hsame⟩ := s.driver.drainSection_spec s.read
  have hother : (s.driver.drainSection s.read).2 ≠ some (.packet p) := by
    intro hdata
    rw [Driver.drainSection_data] at hdata
    obtain ⟨hcarries, hread⟩ := Option.ite_none_right_eq_some.mp hdata
    rw [hs.unlatched (buffer_of_read hread)] at hcarries
    cases hcarries.1
  refine ⟨?_, hs.known, fun hbuffer => ?_, hs.chip, fun hbuffer hawake => ?_⟩
  · have honce := hs.once
    simp only [copies, List.count_append, count_toList_of_ne hother] at honce ⊢
    omega
  · dsimp only
    rw [hpending, carries_zero]
  · rw [Awake, hsame] at hawake
    dsimp only
    rw [hlast]
    exact hs.unannounced hbuffer hawake

theorem Settled.move (hs : s.Settled p) (h : Move s a t) : t.Settled p := by
  have honce := hs.once
  rw [copies] at honce
  cases h with
  | receive bits empty =>
    have hother : Content.packet s.received ≠ .packet p := by
      intro heq
      cases heq
      exact absurd hs.known (Nat.lt_irrefl _)
    exact ⟨hs.once, Nat.lt_succ_of_lt hs.known, fun h => absurd h hother,
      fun h => absurd h hother, fun h => absurd h hother⟩
  | raise bits => exact { hs with chip := fun hbuffer => not_carries_raise (hs.chip hbuffer) bits }
  | clearIrqStatus bits =>
    exact { hs with chip := fun hbuffer => carries_and_of_false (hs.chip hbuffer) _ }
  | writeBuffer => exact ⟨hs.once, hs.known, nofun, nofun, nofun⟩
  | setTxBufferBusy busy => exact { hs with }
  | clearRxDone =>
    refine { hs with unannounced := fun hbuffer hawake => ?_ }
    exact hs.unannounced hbuffer (.inr (hawake.resolve_left (by simp)))
  | interrupt now => exact hs.interrupt (.interrupt now)
  | timeout hwaiting =>
    refine { hs with unannounced := fun hbuffer hawake => hs.unannounced hbuffer ?_ }
    rcases hawake with hset | hset | hset
    · exact .inl hset
    · cases hset
    · exact .inr (.inr hset)
  | wake hwaiting hwoken =>
    rw [hwaiting] at honce
    exact { hs with
      once := honce
      unannounced := fun hbuffer _ => hs.unannounced hbuffer (hwoken.imp_right .inl) }
  | rxEnter hacquiring metrics => exact hs.rxEnter (.rxEnter hacquiring metrics)
  | rxLeave hinside =>
    rw [hinside] at honce
    refine { hs with once := ?_, unannounced := fun hbuffer hawake => ?_ }
    · simpa [copies, Background.inHand] using honce
    · refine hs.unannounced hbuffer ?_
      rcases hawake with hset | hset | hset
      · exact .inl hset
      · exact .inr (.inl hset)
      · cases hset
  | drainBegin => exact { hs with }
  | drainEnter drains => exact hs.drainEnter (.drainEnter drains)

theorem run_known {actions : List RxAction} (h : run step {} actions = some s)
    (hbuffer : s.buffer = .packet p) : p < s.received := by
  have hinv : ∀ n, s.buffer = .packet n → n < s.received := by
    refine run_invariant (I := fun s => ∀ n, s.buffer = .packet n → n < s.received) ?_ nofun h
    intro s a t hs hstep n hn
    cases step_move hstep with
    | receive bits empty =>
      cases hn
      exact Nat.lt_succ_self _
    | writeBuffer => cases hn
    | _ => exact hs n hn
  exact hinv p hbuffer

/-- A packet whose RX_DONE is latched without a CRC error is passed on exactly once if no consumer
has taken it before, the first consumer after that enters its section undisturbed, and it leaves no
wake-up for the background task behind. -/
theorem delivered_once (before between after : List RxAction) (s₁ latched s₂ s : Receptions)
    (now : ℚ) (consumer : RxAction) (p : ℕ) (hbefore : run step {} before = some s₁)
    (hirq : carries s₁.chipIrq irqRxDone = true) (hcrc : carries s₁.chipIrq irqCrcErr = false)
    (hbuffer : s₁.buffer = .packet p) (hnonempty : s₁.emptyPacket = false)
    (huntaken : s₁.copies p = 0) (hinterrupt : step s₁ (.interrupt now) = some latched)
    (hbetween : run step latched between = some s₂)
    (hquiet : Along step (Undisturbed consumer) latched between)
    (hconsumer : s₂.EntersAlone consumer) (hafter : run step s₂ (consumer :: after) = some s) :
    s.copies p = 1 := by
  obtain ⟨entered, henter, hrest⟩ := run_cons_eq_some.mp hafter
  obtain ⟨hlatched, hannounced⟩ := Latched.of_interrupt (step_move hinterrupt) hirq hcrc hbuffer
    hnonempty (run_known hbefore hbuffer) huntaken
  have hstill : s₂.Latched p ∧ (consumer ≠ .drainEnter → s₂.Announced) :=
    run_invariant_of_along
      (I := fun s => s.Latched p ∧ (consumer ≠ .drainEnter → s.Announced))
      (fun s a t hok hs hstep => ⟨hs.1.move hok (step_move hstep),
        fun hne => (hs.2 hne).move hne hok (step_move hstep)⟩)
      ⟨hlatched, fun _ => hannounced⟩ hquiet hbetween
  have hsettled := hstill.1.enters hstill.2 hconsumer (step_move henter)
  have hfinal : s.Settled p := run_invariant (I := fun s => s.Settled p)
    (fun s a t hs hstep => hs.move (step_move hstep)) hsettled hrest
  exact hfinal.once

/-- The interrupt wakes the background task, which reads the packet; and while the buffer is
reserved for a transmission, a drain reads it after the preamble of another one. -/
theorem delivered_once_background :
    (∃ s, run step {} [.receive 0 false, .interrupt 0, .interrupt 1, .wake,
        .rxEnter ⟨-80, 5, -82⟩, .rxLeave] = some s ∧ s.copies 0 = 1) ∧
    ∃ s, run step {} [.setTxBufferBusy true, .receive 0 false, .interrupt 0,
        .raise irqPreambleDetected, .interrupt 1, .drainBegin, .drainEnter] = some s ∧
      s.copies 0 = 1 :=
  ⟨⟨_, rfl, delivered_once [.receive 0 false] [.interrupt 1, .wake] [.rxLeave] _ _ _ _ 0
      (.rxEnter ⟨-80, 5, -82⟩) 0 rfl rfl rfl rfl rfl rfl rfl rfl
      (.cons (.inl rfl) rfl (.cons trivial rfl trivial))
      (.background _ rfl rfl) rfl⟩,
    _, rfl, delivered_once [.setTxBufferBusy true, .receive 0 false]
      [.raise irqPreambleDetected, .interrupt 1, .drainBegin] [] _ _ _ _ 0 .drainEnter 0
      rfl rfl rfl rfl rfl rfl rfl rfl
      (.cons trivial rfl (.cons (.inr rfl) rfl (.cons trivial rfl trivial)))
      (.drain (by rintro (h | h | h) <;> cases h) rfl) rfl⟩

/-- A drain takes the packet and the background task takes it again; and a preamble that follows a
packet hides it from the background task. -/
theorem delivered_twice_and_lost :
    (∃ s, run step {} [.receive 0 false, .interrupt 0, .drainBegin, .drainEnter, .wake,
        .rxEnter ⟨-80, 5, -82⟩, .rxLeave] = some s ∧
      s.delivered = [.packet 0, .packet 0]) ∧
    ∃ s, run step {} [.receive 0 false, .interrupt 0, .raise irqPreambleDetected, .interrupt 0,
        .wake, .rxEnter ⟨-80, 5, -82⟩, .rxLeave, .receive 0 false, .interrupt 1, .wake,
        .rxEnter ⟨-80, 5, -82⟩, .rxLeave] = some s ∧
      s.delivered = [.packet 1] ∧ s.background = .waiting ∧ s.copies 0 = 0 :=
  ⟨⟨_, rfl, rfl⟩, _, rfl, rfl, rfl, rfl⟩

end Receptions

end OpenHop.Sx1262
