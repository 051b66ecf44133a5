import OpenHop.Hardware.ModemCommands
import OpenHop.Hardware.Sx1262Receptions

/-! # The signal metrics of a packet

The SPI, USB and TCP radios pass only the bytes of a packet to their callback, and keep the
metrics of the last one in fields. The dispatcher reads these fields in a task of its own,
after it has notified its subscribers, so what it stores are the metrics that were written
last by then.
-/

namespace OpenHop.SignalMetrics

open Machine Sx1262 Modem

/-- A received frame with what the radio has measured for it. -/
structure Frame where
  data : Bytes
  metrics : Metrics

def noFrame : Frame := ⟨[], ⟨-99, 0, -99⟩⟩

/-- Where the receive thread is in `_dispatch_frame`: it may be interrupted between any two of its
assignments. -/
inductive Worker where
  | idle
  | unpacked (payload : Bytes)
  | rssiSet (payload : Bytes)
  | snrSet (payload : Bytes)
  | signalRssiSet (payload : Bytes)

def Worker.payload? : Worker → Option Bytes
  | .idle => none
  | .unpacked payload | .rssiSet payload | .snrSet payload | .signalRssiSet payload => some payload

/-- A modem's radio object, its receive thread, the frames received so far and the callbacks that
the event loop is to make. A packet is known by its number among the frames. -/
structure ModemRx where
  radio : ModemRadio := {}
  worker : Worker := .idle
  frames : List Frame := []
  callbacks : List ℕ := []

inductive ModemAction where
  | dispatchFrame (payload : Bytes)
  | setLastRssi
  | setLastSnr
  | setLastSignalRssi
  | callSoon (canDeliver : Bool)

/-- The content of an `RX_PACKET` frame. -/
def frameOf (payload : Bytes) : Frame where
  data := payload.drop 6
  metrics :=
    { rssi := int16LE (payload.take 2)
      snr := int16LE ((payload.drop 2).take 2) / 10
      signalRssi := int16LE ((payload.drop 4).take 2) }

/-- The number of the last frame. -/
def newest : List Frame → Option ℕ
  | [] => none
  | _ :: frames => some frames.length

theorem getElem?_newest {frames : List Frame} {n : ℕ} (h : newest frames = some n) :
    frames[n]? = frames.getLast? := by
  cases frames with
  | nil => cases h
  | cons f frames =>
    obtain rfl := Option.some.inj h
    rw [List.getLast?_eq_getElem?]
    rfl

namespace ModemRx

def step (m : ModemRx) : ModemAction → Option ModemRx
  | .dispatchFrame payload =>
    match m.worker with
    | .idle =>
      some (if payload.length < 6 then m
        else { m with worker := .unpacked payload, frames := m.frames ++ [frameOf payload] })
    | _ => none
  | .setLastRssi =>
    match m.worker with
    | .unpacked payload => some { m with
        radio := { m.radio with lastRssi := (frameOf payload).metrics.rssi }
        worker := .rssiSet payload }
    | _ => none
  | .setLastSnr =>
    match m.worker with
    | .rssiSet payload => some { m with
        radio := { m.radio with lastSnr := (frameOf payload).metrics.snr }
        worker := .snrSet payload }
    | _ => none
  | .setLastSignalRssi =>
    match m.worker with
    | .snrSet payload => some { m with
        radio := { m.radio with lastSignalRssi := (frameOf payload).metrics.signalRssi }
        worker := .signalRssiSet payload }
    | _ => none
  | .callSoon canDeliver =>
    match m.worker with
    | .signalRssiSet payload =>
      let delivers := m.radio.rxCallback && canDeliver
      some { m with
        radio := { m.radio with
          rxCount := m.radio.rxCount + 1
          delivered := m.radio.delivered ++ if delivers then [payload.drop 6] else [] }
        worker := .idle
        callbacks := m.callbacks ++ if delivers then (newest m.frames).toList else [] }
    | _ => none

theorem run_dispatchFrame (radio : ModemRadio) (frames : List Frame) (callbacks : List ℕ)
    (payload : Bytes) (hlength : 6 ≤ payload.length) (canDeliver : Bool) :
    (run step { radio, frames, callbacks } [.dispatchFrame payload, .setLastRssi, .setLastSnr,
        .setLastSignalRssi, .callSoon canDeliver]).map ModemRx.radio =
      some (radio.rxPacket canDeliver payload) := by
  have hnot : ¬ payload.length < 6 := by omega
  simp [run, step, hnot, ModemRadio.rxPacket, frameOf]

/-- The receive thread is at the last frame. -/
def AtNewest (m : ModemRx) : Prop :=
  ∀ payload ∈ m.worker.payload?, m.frames.getLast? = some (frameOf payload)

end ModemRx

def ModemAction.writesRssi : ModemAction → Bool
  | .setLastRssi => true
  | _ => false

def ModemAction.writesSnr : ModemAction → Bool
  | .setLastSnr => true
  | _ => false

/-- A field keeps its value, unless it is written for the last frame. -/
structure Writes {β : Type} (measured : Frame → β) (frames : List Frame) (writes : Bool)
    (before after : β) : Prop where
  kept : writes = false → after = before
  written : writes = true → ∀ frame ∈ frames.getLast?, after = measured frame

namespace ModemRx

structure Stepped (m : ModemRx) (a : ModemAction) (m' : ModemRx) : Prop where
  frames : m.frames <+: m'.frames
  atNewest : m'.AtNewest
  rssi : Writes (·.metrics.rssi) m.frames a.writesRssi m.radio.lastRssi m'.radio.lastRssi
  snr : Writes (·.metrics.snr) m.frames a.writesSnr m.radio.lastSnr m'.radio.lastSnr

theorem stepped_of_step {m m' : ModemRx} {a : ModemAction} (hm : m.AtNewest)
    (h : m.step a = some m') : m.Stepped a m' := by
  cases a with
  | dispatchFrame payload =>
    simp only [step] at h
    split at h
    · cases h
      split
      · exact ⟨List.prefix_refl _, hm, ⟨fun _ => rfl, nofun⟩, ⟨fun _ => rfl, nofun⟩⟩
      · refine ⟨List.prefix_append _ _, ?_, ⟨fun _ => rfl, nofun⟩, ⟨fun _ => rfl, nofun⟩⟩
        rintro _ ⟨⟩
        exact List.getLast?_concat
    · cases h
  | setLastRssi =>
    simp only [step] at h
    split at h
    · rename_i payload hworker
      cases h
      have hlast := hm payload (by simp [hworker, Worker.payload?])
      refine ⟨List.prefix_refl _, ?_, ⟨nofun, fun _ frame hframe => ?_⟩, ⟨fun _ => rfl, nofun⟩⟩
      · rintro _ ⟨⟩
        exact hlast
      · rw [hlast] at hframe
        cases hframe
        rfl
    · cases h
  | setLastSnr =>
    simp only [step] at h
    split at h
    · rename_i payload hworker
      cases h
      have hlast := hm payload (by simp [hworker, Worker.payload?])
      refine ⟨List.prefix_refl _, ?_, ⟨fun _ => rfl, nofun⟩, ⟨nofun, fun _ frame hframe => ?_⟩⟩
      · rintro _ ⟨⟩
        exact hlast
      · rw [hlast] at hframe
        cases hframe
        rfl
    · cases h
  | setLastSignalRssi =>
    simp only [step] at h
    split at h
    · rename_i payload hworker
      cases h
      have hlast := hm payload (by simp [hworker, Worker.payload?])
      refine ⟨List.prefix_refl _, ?_, ⟨fun _ => rfl, nofun⟩, ⟨fun _ => rfl, nofun⟩⟩
      rintro _ ⟨⟩
      exact hlast
    · cases h
  | callSoon canDeliver =>
    simp only [step] at h
    split at h
    · cases h
      exact ⟨List.prefix_refl _, nofun, ⟨fun _ => rfl, nofun⟩, ⟨fun _ => rfl, nofun⟩⟩
    · cases h

end ModemRx

/-- The driver and the chip, with the frames received so far. -/
structure SpiRx where
  receptions : Receptions := {}
  frames : List Frame := []

inductive SpiAction where
  | receive (bits : IrqStatus) (frame : Frame)
  | rxEnter
  /-- Everything else that happens to the driver or the chip. -/
  | other (a : RxAction)

def packet? : Content → Option ℕ
  | .packet n => some n
  | .transmit => none

namespace SpiRx

def lastFrame (r : SpiRx) : Frame := r.frames.getLast?.getD noFrame

def step (r : SpiRx) : SpiAction → Option SpiRx
  | .receive bits frame =>
    (r.receptions.step (.receive bits frame.data.isEmpty)).map fun receptions =>
      { receptions, frames := r.frames ++ [frame] }
  | .rxEnter =>
    (r.receptions.step (.rxEnter r.lastFrame.metrics)).map fun receptions => { r with receptions }
  | .other a =>
    match a with
    | .receive .. | .rxEnter _ => none
    | a => (r.receptions.step a).map fun receptions => { r with receptions }

/-- The metrics are written for a packet that the background task takes. -/
def writes (r : SpiRx) : SpiAction → Bool
  | .rxEnter =>
    let irq := r.receptions.driver.lastIrqStatus
    carries irq irqRxDone && !carries irq irqCrcErr
  | _ => false

structure Stepped (r : SpiRx) (a : SpiAction) (r' : SpiRx) : Prop where
  frames : r.frames <+: r'.frames
  metrics : Writes Frame.metrics r.frames (r.writes a) r.receptions.driver.metrics
    r'.receptions.driver.metrics

theorem stepped_of_step {r r' : SpiRx} {a : SpiAction} (h : r.step a = some r') :
    r.Stepped a r' := by
  cases a with
  | receive bits frame =>
    simp only [step, Option.map_eq_some_iff] at h
    obtain ⟨receptions, hmove, rfl⟩ := h
    exact ⟨List.prefix_append _ _, ⟨fun _ => (Receptions.step_move hmove).metrics nofun, nofun⟩⟩
  | rxEnter =>
    simp only [step, Option.map_eq_some_iff] at h
    obtain ⟨receptions, hmove, rfl⟩ := h
    have hmetrics := (Receptions.step_move hmove).metrics_rxEnter
    refine ⟨List.prefix_refl _, ⟨fun hkept => ?_, fun hwritten frame hframe => ?_⟩⟩
    · exact hmetrics.trans (if_neg (ne_true_of_eq_false hkept))
    · refine (hmetrics.trans (if_pos hwritten)).trans ?_
      rw [lastFrame, Option.mem_def.mp hframe]
      rfl
  | other a =>
    simp only [step] at h
    split at h
    · cases h
    · cases h
    · rename_i hreceive henter
      obtain ⟨receptions, hmove, rfl⟩ := Option.map_eq_some_iff.mp h
      exact ⟨List.prefix_refl _,
        ⟨fun _ => (Receptions.step_move hmove).metrics fun metrics heq => henter metrics heq,
          nofun⟩⟩

end SpiRx

inductive Radio where
  | modem (m : ModemRx)
  | spi (r : SpiRx)

def Radio.frames : Radio → List Frame
  | .modem m => m.frames
  | .spi r => r.frames

def Radio.getLastRssi : Radio → ℤ
  | .modem m => m.radio.lastRssi
  | .spi r => r.receptions.driver.metrics.rssi

def Radio.getLastSnr : Radio → ℚ
  | .modem m => m.radio.lastSnr
  | .spi r => r.receptions.driver.metrics.snr

/-- A dispatcher with its radio. The event loop is in the middle of a task while this has read the
RSSI and not the SNR yet. The last two fields are not the program's: they are the numbers of the
frames for which RSSI and SNR were written last. -/
structure State where
  radio : Radio
  rxEnabled : Bool := true
  tasks : List ℕ := []
  reading : Option ℕ := none
  rssis : List (ℕ × ℤ) := []
  snrs : List (ℕ × ℚ) := []
  rssiOf : Option ℕ := none
  snrOf : Option ℕ := none

inductive Action where
  | modem (a : ModemAction)
  | spi (a : SpiAction)
  /-- The event loop makes the callback that a modem has asked for. -/
  | runCallback
  | setRxEnabled (enabled : Bool)
  /-- The task ends before it stores the metrics, as it does for a malformed packet. -/
  | endTask (i : ℕ)
  | storeRssi (i : ℕ)
  | storeSnr

def SpiAction.ofChip : SpiAction → Bool
  | .receive .. | .other (.raise _) => true
  | _ => false

/-- The frame for which a field was written last, after a step that writes it or not. -/
def lastWrite (writes : Bool) (frames : List Frame) (before : Option ℕ) : Option ℕ :=
  if writes then newest frames else before

namespace State

/-- `_on_packet_received` -/
def onPacketReceived (s : State) (packets : List ℕ) : State :=
  if s.rxEnabled then { s with tasks := s.tasks ++ packets } else s

def step (s : State) : Action → Option State
  | .modem a =>
    match s.radio with
    | .modem m => (m.step a).map fun m' => { s with
        radio := .modem m'
        rssiOf := lastWrite a.writesRssi m.frames s.rssiOf
        snrOf := lastWrite a.writesSnr m.frames s.snrOf }
    | .spi _ => none
  | .spi a =>
    match s.radio with
    | .modem _ => none
    | .spi r =>
      if s.reading.isSome ∧ a.ofChip = false then none
      else
        (r.step a).map fun r' =>
          State.onPacketReceived
            { s with
              radio := .spi r'
              rssiOf := lastWrite (r.writes a) r.frames s.rssiOf
              snrOf := lastWrite (r.writes a) r.frames s.snrOf }
            ((r'.receptions.delivered.drop r.receptions.delivered.length).filterMap packet?)
  | .runCallback =>
    match s.radio, s.reading with
    | .modem m, none =>
      match m.callbacks with
      | [] => none
      | n :: callbacks =>
        some (State.onPacketReceived { s with radio := .modem { m with callbacks } } [n])
    | _, _ => none
  | .setRxEnabled enabled => if s.reading.isSome then none else some { s with rxEnabled := enabled }
  | .endTask i => if s.reading.isSome then none else some { s with tasks := s.tasks.eraseIdx i }
  | .storeRssi i =>
    match s.reading, s.tasks[i]? with
    | none, some n => some { s with
        tasks := s.tasks.eraseIdx i
        reading := some n
        rssis := s.rssis ++ [(n, s.radio.getLastRssi)] }
    | _, _ => none
  | .storeSnr =>
    match s.reading with
    | some n => some { s with
        reading := none
        snrs := s.snrs ++ [(n, s.radio.getLastSnr)] }
    | none => none

end State

/-- The value was measured for the `n`-th frame. -/
def Measured {β : Type} (measured : Frame → β) (frames : List Frame) (n : ℕ) (value : β) : Prop :=
  (frames[n]?).map measured = some value

instance {β : Type} [DecidableEq β] (measured : Frame → β) (frames : List Frame) (n : ℕ)
    (value : β) : Decidable (Measured measured frames n value) :=
  inferInstanceAs (Decidable (_ = _))

namespace State

/-- What is stored with each packet was measured for it. -/
structure Own (s : State) : Prop where
  rssi : ∀ stored ∈ s.rssis, Measured (·.metrics.rssi) s.radio.frames stored.1 stored.2
  snr : ∀ stored ∈ s.snrs, Measured (·.metrics.snr) s.radio.frames stored.1 stored.2

/-- A value is stored with a packet for which it was written, and for no other frame since. -/
def Fresh (s : State) : Action → Prop
  | .storeRssi i => ∀ n ∈ s.tasks[i]?, s.rssiOf = some n
  | .storeSnr => ∀ n ∈ s.reading, s.snrOf = some n
  | _ => True

instance (s : State) : (a : Action) → Decidable (s.Fresh a)
  | .storeRssi i => inferInstanceAs (Decidable (∀ n ∈ s.tasks[i]?, s.rssiOf = some n))
  | .storeSnr => inferInstanceAs (Decidable (∀ n ∈ s.reading, s.snrOf = some n))
  | .modem _ | .spi _ | .runCallback | .setRxEnabled _ | .endTask _ =>
    inferInstanceAs (Decidable True)

/-- The fields say what was measured for the frames for which they were written last. -/
structure Tracked (s : State) : Prop where
  atNewest : ∀ m, s.radio = .modem m → m.AtNewest
  rssi : ∀ n ∈ s.rssiOf, Measured (·.metrics.rssi) s.radio.frames n s.radio.getLastRssi
  snr : ∀ n ∈ s.snrOf, Measured (·.metrics.snr) s.radio.frames n s.radio.getLastSnr

end State

section Measured

variable {β γ : Type} {measured : Frame → β} {frames frames' : List Frame} {writes : Bool}
  {before after : β} {n : ℕ} {value : β} {last : Option ℕ}

theorem Measured.mono (h : Measured measured frames n value) (hframes : frames <+: frames') :
    Measured measured frames' n value := by
  obtain ⟨frame, hframe, hvalue⟩ := Option.map_eq_some_iff.mp h
  obtain ⟨later, rfl⟩ := hframes
  refine Option.map_eq_some_iff.mpr ⟨frame, ?_, hvalue⟩
  rw [List.getElem?_append_left (List.getElem?_eq_some_iff.mp hframe).1, hframe]

theorem Writes.map (h : Writes measured frames writes before after) (g : β → γ) :
    Writes (g ∘ measured) frames writes (g before) (g after) :=
  ⟨fun hkept => congrArg g (h.kept hkept),
    fun hwritten frame hframe => congrArg g (h.written hwritten frame hframe)⟩

theorem Writes.lastWrite (h : Writes measured frames writes before after)
    (hframes : frames <+: frames') (hlast : ∀ n ∈ last, Measured measured frames n before) :
    ∀ n ∈ lastWrite writes frames last, Measured measured frames' n after := by
  intro n hn
  cases writes with
  | false =>
    rw [h.kept rfl]
    exact (hlast n hn).mono hframes
  | true =>
    refine Measured.mono ?_ hframes
    rw [Measured, getElem?_newest hn]
    cases hframe : frames.getLast? with
    | none =>
      rw [List.getLast?_eq_none_iff.mp hframe] at hn
      cases hn
    | some frame => exact congrArg some (h.written rfl frame hframe).symm

end Measured

namespace State

variable {s t : State} {a : Action}

/-- The ways in which a step bears on what is stored. -/
inductive Move (s : State) : Action → State → Prop where
  | elsewhere {a : Action} {t : State} (hrssis : t.rssis = s.rssis) (hsnrs : t.snrs = s.snrs)
      (hframes : s.radio.frames <+: t.radio.frames) (htracked : t.Tracked) : Move s a t
  | storeRssi {i n : ℕ} (htask : s.tasks[i]? = some n) :
      Move s (.storeRssi i) { s with
        tasks := s.tasks.eraseIdx i
        reading := some n
        rssis := s.rssis ++ [(n, s.radio.getLastRssi)] }
  | storeSnr {n : ℕ} (hreading : s.reading = some n) :
      Move s .storeSnr { s with
        reading := none
        snrs := s.snrs ++ [(n, s.radio.getLastSnr)] }

theorem move_modem {m m' : ModemRx} {a : ModemAction} (hs : s.Tracked) (hradio : s.radio = .modem m)
    (h : m.step a = some m') :
    Move s (.modem a) { s with
      radio := .modem m'
      rssiOf := lastWrite a.writesRssi m.frames s.rssiOf
      snrOf := lastWrite a.writesSnr m.frames s.snrOf } := by
  obtain ⟨hframes, hnewest, hrssi, hsnr⟩ := ModemRx.stepped_of_step (hs.atNewest m hradio) h
  have hrssis := hs.rssi
  have hsnrs := hs.snr
  rw [hradio] at hrssis hsnrs
  refine .elsewhere rfl rfl (by rw [hradio]; exact hframes) ⟨?_, ?_, ?_⟩
  · rintro _ ⟨⟩
    exact hnewest
  · exact hrssi.lastWrite hframes hrssis
  · exact hsnr.lastWrite hframes hsnrs

theorem Tracked.onPacketReceived (hs : s.Tracked) (packets : List ℕ) :
    (s.onPacketReceived packets).Tracked := by
  unfold State.onPacketReceived
  split
  · exact ⟨hs.atNewest, hs.rssi, hs.snr⟩
  · exact hs

theorem onPacketReceived_same (s : State) (packets : List ℕ) :
    (s.onPacketReceived packets).rssis = s.rssis ∧ (s.onPacketReceived packets).snrs = s.snrs ∧
      (s.onPacketReceived packets).radio = s.radio := by
  unfold State.onPacketReceived
  split <;> exact ⟨rfl, rfl, rfl⟩

/-- A step of the radio, with the packets that it passes on. -/
theorem move_received {radio : Radio} {rssiOf snrOf : Option ℕ}
    (hframes : s.radio.frames <+: radio.frames)
    (ht : Tracked { s with radio, rssiOf, snrOf }) (packets : List ℕ) (a : Action) :
    Move s a (State.onPacketReceived { s with radio, rssiOf, snrOf } packets) := by
  obtain ⟨hrssis, hsnrs, hradio⟩ :=
    onPacketReceived_same { s with radio, rssiOf, snrOf } packets
  exact .elsewhere hrssis hsnrs (by rw [hradio]; exact hframes) (ht.onPacketReceived packets)

theorem move_spi {r r' : SpiRx} {a : SpiAction} (hs : s.Tracked) (hradio : s.radio = .spi r)
    (h : r.step a = some r') (packets : List ℕ) :
    Move s (.spi a) (State.onPacketReceived
      { s with
        radio := .spi r'
        rssiOf := lastWrite (r.writes a) r.frames s.rssiOf
        snrOf := lastWrite (r.writes a) r.frames s.snrOf } packets) := by
  obtain ⟨hframes, hmetrics⟩ := SpiRx.stepped_of_step h
  have hrssis := hs.rssi
  have hsnrs := hs.snr
  rw [hradio] at hrssis hsnrs
  refine move_received (by rw [hradio]; exact hframes) ⟨fun _ heq => ?_, ?_, ?_⟩ packets _
  · cases heq
  · exact (hmetrics.map Metrics.rssi).lastWrite hframes hrssis
  · exact (hmetrics.map Metrics.snr).lastWrite hframes hsnrs

theorem step_move (hs : s.Tracked) (h : s.step a = some t) : Move s a t := by
  cases a with
  | modem a =>
    simp only [step] at h
    split at h
    · rename_i m hradio
      obtain ⟨m', hm, rfl⟩ := Option.map_eq_some_iff.mp h
      exact move_modem hs hradio hm
    · cases h
  | spi a =>
    simp only [step] at h
    split at h
    · cases h
    · rename_i r hradio
      obtain ⟨-, h⟩ := Option.ite_none_left_eq_some.mp h
      obtain ⟨r', hr, rfl⟩ := Option.map_eq_some_iff.mp h
      exact move_spi hs hradio hr _
  | runCallback =>
    simp only [step] at h
    split at h
    · rename_i m hradio hreading
      split at h
      · cases h
      · rename_i n callbacks hcallbacks
        cases h
        have hrssi := hs.rssi
        have hsnr := hs.snr
        rw [hradio] at hrssi hsnr
        refine move_received (by rw [hradio]; exact List.prefix_refl _) ⟨?_, hrssi, hsnr⟩ _ _
        rintro _ ⟨⟩
        exact hs.atNewest m hradio
    · cases h
  | setRxEnabled enabled =>
    obtain ⟨-, h⟩ := Option.ite_none_left_eq_some.mp h
    cases h
    exact .elsewhere rfl rfl (List.prefix_refl _) ⟨hs.atNewest, hs.rssi, hs.snr⟩
  | endTask i =>
    obtain ⟨-, h⟩ := Option.ite_none_left_eq_some.mp h
    cases h
    exact .elsewhere rfl rfl (List.prefix_refl _) ⟨hs.atNewest, hs.rssi, hs.snr⟩
  | storeRssi i =>
    simp only [step] at h
    split at h
    · rename_i n hreading htask
      cases h
      exact .storeRssi htask
    · cases h
  | storeSnr =>
    simp only [step] at h
    split at h
    · rename_i n hreading
      cases h
      exact .storeSnr hreading
    · cases h

theorem Tracked.move (hs : s.Tracked) (h : Move s a t) : t.Tracked := by
  cases h with
  | elsewhere _ _ _ htracked => exact htracked
  | storeRssi _ => exact ⟨hs.atNewest, hs.rssi, hs.snr⟩
  | storeSnr _ => exact ⟨hs.atNewest, hs.rssi, hs.snr⟩

theorem Own.move (hown : s.Own) (hs : s.Tracked) (hfresh : s.Fresh a) (h : Move s a t) :
    t.Own := by
  cases h with
  | elsewhere hrssis hsnrs hframes _ =>
    constructor
    · rw [hrssis]
      exact fun stored hmem => (hown.rssi stored hmem).mono hframes
    · rw [hsnrs]
      exact fun stored hmem => (hown.snr stored hmem).mono hframes
  | @storeRssi i n htask =>
    refine ⟨fun stored hmem => ?_, hown.snr⟩
    rcases List.mem_append.mp hmem with hmem | hmem
    · exact hown.rssi stored hmem
    · rw [List.mem_singleton.mp hmem]
      exact hs.rssi n (hfresh n htask)
  | @storeSnr n hreading =>
    refine ⟨hown.rssi, fun stored hmem => ?_⟩
    rcases List.mem_append.mp hmem with hmem | hmem
    · exact hown.snr stored hmem
    · rw [List.mem_singleton.mp hmem]
      exact hs.snr n (hfresh n hreading)

/-- An SX1262, or a USB or TCP modem with or without a callback. -/
inductive Backend where
  | spi
  | modem (rxCallback : Bool)

def start : Backend → State
  | .spi => { radio := .spi {} }
  | .modem rxCallback => { radio := .modem { radio := { rxCallback } } }

theorem tracked_start (backend : Backend) : (start backend).Tracked := by
  cases backend with
  | spi => exact ⟨nofun, nofun, nofun⟩
  | modem rxCallback =>
    refine ⟨?_, nofun, nofun⟩
    rintro _ ⟨⟩
    exact nofun

theorem own_start (backend : Backend) : (start backend).Own := by
  cases backend <;> exact ⟨nofun, nofun⟩

/-- All packets of a run carry the metrics that were measured for them if each value is stored after
it was written for the packet and before it is written for another frame. -/
theorem own_of_fresh (backend : Backend) (actions : List Action) (s : State)
    (h : run step (start backend) actions = some s)
    (hfresh : Along step Fresh (start backend) actions) : s.Own :=
  (run_invariant_of_along (I := fun s => s.Tracked ∧ s.Own)
    (fun _ _ _ hok hs hstep =>
      have hmove := step_move hs.1 hstep
      ⟨hs.1.move hmove, hs.2.move hs.1 hok hmove⟩)
    ⟨tracked_start backend, own_start backend⟩ hfresh h).2

/-- The steps of the receive thread for an `RX_PACKET` frame. -/
def received (payload : Bytes) : List Action :=
  [.modem (.dispatchFrame payload), .modem .setLastRssi, .modem .setLastSnr,
    .modem .setLastSignalRssi, .modem (.callSoon true)]

/-- The steps of chip, interrupt handler and background task for a packet. -/
def taken (frame : Frame) : List Action :=
  [.spi (.receive 0 frame), .spi (.other (.interrupt 0)), .spi (.other .wake), .spi .rxEnter,
    .spi (.other .rxLeave)]

def stored : List Action := [.storeRssi 0, .storeSnr]

/-- On an SX1262 and on a modem the next frame comes when the first one has its metrics. -/
theorem own_of_fresh_one_by_one :
    (∃ s, run step (start .spi) (taken ⟨[1], ⟨-90, 5, -92⟩⟩ ++ stored ++
        taken ⟨[2], ⟨-40, 8, -41⟩⟩ ++ stored) = some s ∧
      s.rssis = [(0, -90), (1, -40)] ∧ s.snrs = [(0, 5), (1, 8)] ∧ s.Own) ∧
    ∃ s, run step (start (.modem true)) (received [0xA6, 0xFF, 50, 0, 0xA6, 0xFF, 1] ++
        .runCallback :: stored ++ received [0xD8, 0xFF, 80, 0, 0xD8, 0xFF, 2] ++
        .runCallback :: stored) = some s ∧
      s.rssis = [(0, -90), (1, -40)] ∧ s.Own := by
  refine ⟨⟨_, rfl, rfl, rfl, ?_⟩, _, rfl, rfl, ?_⟩
  · exact own_of_fresh .spi (taken ⟨[1], ⟨-90, 5, -92⟩⟩ ++ stored ++
      taken ⟨[2], ⟨-40, 8, -41⟩⟩ ++ stored) _ rfl (by decide +kernel)
  · exact own_of_fresh (.modem true) (received [0xA6, 0xFF, 50, 0, 0xA6, 0xFF, 1] ++
      .runCallback :: stored ++ received [0xD8, 0xFF, 80, 0, 0xD8, 0xFF, 2] ++
      .runCallback :: stored) _ rfl (by decide +kernel)

/-- Of two frames in a row the first one gets the metrics of the second, and a packet that a drain
passes on gets those of whatever was received before. -/
theorem not_own_next_and_drained :
    (∃ s, run step (start (.modem true))
        (received [0xA6, 0xFF, 50, 0, 0xA6, 0xFF, 1] ++
          received [0xD8, 0xFF, 80, 0, 0xD8, 0xFF, 2] ++ .runCallback :: stored) =
        some s ∧ s.radio.frames.map (·.metrics.rssi) = [-90, -40] ∧ s.rssis = [(0, -40)] ∧
      ¬ s.Own) ∧
    ∃ s, run step (start .spi)
        [.spi (.receive 0 ⟨[1], ⟨-90, 5, -92⟩⟩), .spi (.other (.interrupt 0)),
          .spi (.other .drainBegin), .spi (.other .drainEnter), .storeRssi 0, .storeSnr] =
        some s ∧ s.radio.frames.map (·.metrics.rssi) = [-90] ∧ s.rssis = [(0, -99)] ∧
      ¬ s.Own := by
  refine ⟨⟨_, rfl, rfl, rfl, fun hown => ?_⟩, _, rfl, rfl, rfl, fun hown => ?_⟩
  · exact absurd (hown.rssi (0, -40) (by decide)) (by decide)
  · exact absurd (hown.rssi (0, -99) (by decide)) (by decide)

end State

end OpenHop.SignalMetrics
