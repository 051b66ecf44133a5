import Mathlib.Data.NNRat.Floor
import OpenHop.Companion.FrameServer
import OpenHop.Hardware.Sx1262
import OpenHop.Machine.Loop
import OpenHop.Protocol.Airtime

/-! # Listen before talk

Before a transmission the radio asks again and again whether the channel is free: the latch
of a reception in progress first, and then, if there is none, a scan of the channel.
-/

namespace OpenHop.Sx1262

/-- `int` of a number. -/
def truncate (x : ℚ) : ℤ := if 0 ≤ x then ⌊x⌋ else ⌈x⌉

/-- The budget in seconds and the retry interval in milliseconds. -/
structure LbtSettings where
  lbtMaxWaitSeconds : ℚ
  lbtRetryIntervalMs : ℤ

/-- What the constructor makes of its arguments. -/
def LbtSettings.init (lbtMaxWaitSeconds lbtRetryIntervalMs : ℚ) : LbtSettings where
  lbtMaxWaitSeconds := max (1 / 2) lbtMaxWaitSeconds
  lbtRetryIntervalMs := max 20 (truncate lbtRetryIntervalMs)

def calculateTxTimeout (radio : RadioSettings) (packetLength : ℕ) : ℤ × ℤ :=
  let airTimeMs :=
    calculateLoraAirtimeMs packetLength radio.spreadingFactor ⌊radio.bandwidth⌋₊
      (codingRateDenominator radio.codingRate) radio.preambleLength
  let timeoutMs := ⌈airTimeMs⌉ + 1000
  (timeoutMs, timeoutMs * 64)

def maxReceptionSeconds (radio : RadioSettings) : ℚ :=
  max (1 / 2) (((calculateTxTimeout radio 255).1 - 1000) * (3 / 2) / 1000)

def maxPreambleSeconds (radio : RadioSettings) : ℚ :=
  let preambleOnlyMs :=
    calculateLoraAirtimeMs 0 radio.spreadingFactor ⌊radio.bandwidth⌋₊ radio.codingRate
      radio.preambleLength
  max (1 / 20) (preambleOnlyMs * (3 / 2) / 1000)

def Driver.isReceivingPacket (radio : RadioSettings) (d : Driver) (now : ℚ) : Bool × Driver :=
  let started := d.rxActivityAt
  if started ≤ 0 then (false, d)
  else
    let bound := if 0 < d.rxHeaderAt then maxReceptionSeconds radio else maxPreambleSeconds radio
    if now - started > bound then (false, { d with rxActivityAt := 0, rxHeaderAt := 0 })
    else (true, d)

/-- What a scan of the channel comes to. -/
inductive ChannelScan where
  | busy
  | clear
  | exception
  deriving DecidableEq

inductive LbtOutcome where
  | forced
  | clear
  | exception
  deriving DecidableEq

/-- How the loop ends when its last check finds this. -/
def ChannelScan.outcome : ChannelScan → LbtOutcome
  | .busy => .forced
  | .clear => .clear
  | .exception => .exception

/-- What happens in a round: the interrupts since the last one, the answer of the scan if there is
one, the time that the check takes, that of going back to receiving, and the jitter. -/
structure LbtRound where
  interrupts : List (ℚ × IrqRead) := []
  scan : ChannelScan
  checkSeconds : ℚ≥0
  restoreSeconds : ℚ≥0
  jitter : ℚ

structure LbtState where
  now : ℚ
  driver : Driver
  lbtBackoffDelays : List ℤ := []
  latchDefers : ℕ := 0
  cadChecks : ℕ := 0

namespace LbtState

variable (settings : LbtSettings) (radio : RadioSettings) (deadline : ℚ)

/-- The check, and what it finds. A reception in progress makes the scan unnecessary. -/
def check (s : LbtState) (round : LbtRound) : LbtState × Bool × ChannelScan :=
  let driver := round.interrupts.foldl (fun d i => d.handleInterrupt i.1 i.2) s.driver
  match driver.isReceivingPacket radio s.now with
  | (true, driver) =>
    ({ s with driver, now := s.now + round.checkSeconds, latchDefers := s.latchDefers + 1 },
      false, .busy)
  | (false, driver) =>
    ({ s with driver, now := s.now + round.checkSeconds, cadChecks := s.cadChecks + 1 },
      true, round.scan)

def delayMs (s : LbtState) (jitter : ℚ) : ℚ :=
  let remainingMs := (deadline - s.now) * 1000
  max 10 (min (settings.lbtRetryIntervalMs * jitter) remainingMs)

/-- A scan leaves the radio in standby, and only then does it go back to receiving for the wait. -/
def wait (s : LbtState) (scanned : Bool) (round : LbtRound) : LbtState :=
  let delay := s.delayMs settings deadline round.jitter
  { s with
    lbtBackoffDelays := s.lbtBackoffDelays ++ [FrameServer.roundHalfEven delay]
    now := s.now + (if scanned then (round.restoreSeconds : ℚ) else 0) + delay / 1000 }

def body (s : LbtState) (round : LbtRound) : Machine.Round LbtState (LbtState × LbtOutcome) :=
  match s.check radio round with
  | (s, _, .clear) => .leave (s, .clear)
  | (s, _, .exception) => .leave (s, .exception)
  | (s, scanned, .busy) =>
    if deadline ≤ s.now then .leave (s, .forced)
    else .goOn (s.wait settings deadline scanned round)

end LbtState

/-- What the loop leaves behind, with the time it has taken. -/
structure LbtSummary where
  outcome : LbtOutcome
  elapsedSeconds : ℚ
  lbtBackoffDelays : List ℤ
  latchDefers : ℕ
  cadChecks : ℕ
  driver : Driver

/-- The transmission aborts a reception that is still in progress, so its latch is taken back. -/
def LbtState.summary (start : ℚ) (s : LbtState) (outcome : LbtOutcome) : LbtSummary where
  outcome
  elapsedSeconds := s.now - start
  lbtBackoffDelays := s.lbtBackoffDelays
  latchDefers := s.latchDefers
  cadChecks := s.cadChecks
  driver := { s.driver with rxActivityAt := 0, rxHeaderAt := 0 }

/-- The loop of `_prepare_radio_for_tx`. -/
def listenBeforeTalk (settings : LbtSettings) (radio : RadioSettings) (rounds : ℕ → LbtRound)
    (fuel : ℕ) (start : ℚ) (driver : Driver) : Option LbtSummary :=
  let deadline := start + settings.lbtMaxWaitSeconds
  (Machine.loop (fun k s => s.body settings radio deadline (rounds k)) fuel 0
    { now := start, driver : LbtState }).map fun exit => exit.1.summary start exit.2

namespace LbtState

variable {settings : LbtSettings} {radio : RadioSettings} {deadline : ℚ} {s t : LbtState}
  {round : LbtRound}

@[simp] theorem now_check (s : LbtState) (round : LbtRound) :
    (s.check radio round).1.now = s.now + round.checkSeconds := by
  unfold check
  dsimp only
  split <;> rfl

@[simp] theorem lbtBackoffDelays_check (s : LbtState) (round : LbtRound) :
    (s.check radio round).1.lbtBackoffDelays = s.lbtBackoffDelays := by
  unfold check
  dsimp only
  split <;> rfl

/-- Only a check that finds no reception in progress asks what a scan would find. -/
theorem check_busy_of_scan (radio : RadioSettings) (s : LbtState) (hscan : round.scan = .busy) :
    (s.check radio round).2.2 = .busy := by
  unfold check
  dsimp only
  split
  · rfl
  · exact hscan

theorem leave_of_body {exit : LbtState × LbtOutcome}
    (h : s.body settings radio deadline round = .leave exit) :
    exit = ((s.check radio round).1, (s.check radio round).2.2.outcome) ∧
      ((s.check radio round).2.2 = .busy → deadline ≤ (s.check radio round).1.now) := by
  unfold body at h
  split at h
  all_goals rename_i heq; rw [heq]
  · cases h
    exact ⟨rfl, nofun⟩
  · cases h
    exact ⟨rfl, nofun⟩
  · split at h
    · rename_i hdeadline
      cases h
      exact ⟨rfl, fun _ => hdeadline⟩
    · cases h

theorem goOn_of_body (h : s.body settings radio deadline round = .goOn t) :
    (s.check radio round).2.2 = .busy ∧ (s.check radio round).1.now < deadline ∧
      t = (s.check radio round).1.wait settings deadline (s.check radio round).2.1 round := by
  unfold body at h
  split at h
  · cases h
  · cases h
  · rename_i heq
    rw [heq]
    split at h
    · cases h
    · rename_i hdeadline
      cases h
      exact ⟨rfl, not_le.mp hdeadline, rfl⟩

/-- A wait takes ten milliseconds at least, and ends at the deadline unless these or the way back to
receiving end later. -/
theorem now_wait (settings : LbtSettings) (deadline : ℚ) (s : LbtState) (scanned : Bool)
    (round : LbtRound) :
    s.now + 1 / 100 ≤ (s.wait settings deadline scanned round).now ∧
      (s.wait settings deadline scanned round).now ≤
        max (s.now + 1 / 100) deadline + round.restoreSeconds := by
  have hrestore : (0 : ℚ) ≤ round.restoreSeconds := NNRat.coe_nonneg _
  have hlow : 10 ≤ s.delayMs settings deadline round.jitter := le_max_left _ _
  have hhigh : s.delayMs settings deadline round.jitter ≤ max 10 ((deadline - s.now) * 1000) :=
    max_le_max_left 10 (min_le_right _ _)
  have hend : s.now + s.delayMs settings deadline round.jitter / 1000 ≤
      max (s.now + 1 / 100) deadline := by
    rcases le_max_iff.mp hhigh with h | h
    · exact le_max_of_le_left (by linarith)
    · exact le_max_of_le_right (by linarith)
  simp only [wait]
  constructor
  · split <;> linarith
  · split <;> linarith

variable (settings radio deadline) in
/-- Where a round begins when the loop has waited in every round before it. -/
def atRound (rounds : ℕ → LbtRound) (first : LbtState) : ℕ → LbtState
  | 0 => first
  | k + 1 =>
    let checked := (atRound rounds first k).check radio (rounds k)
    checked.1.wait settings deadline checked.2.1 (rounds k)

variable (settings radio deadline) in
/-- The check of a round, in the state in which the round begins. -/
def found (rounds : ℕ → LbtRound) (first : LbtState) (k : ℕ) : LbtState × Bool × ChannelScan :=
  (atRound settings radio deadline rounds first k).check radio (rounds k)

/-- The `k`-th round of a loop that began in `first`, when going back to receiving takes `restore`
at most. -/
structure InRound (settings : LbtSettings) (radio : RadioSettings) (rounds : ℕ → LbtRound)
    (first : LbtState) (budget restore : ℚ) (k : ℕ) (s : LbtState) : Prop where
  atRound : s = atRound settings radio (first.now + budget) rounds first k
  busy : ∀ j < k, (found settings radio (first.now + budget) rounds first j).2.2 = .busy
  retries : s.lbtBackoffDelays.length = k
  retries_le : k ≤ ⌈100 * budget⌉₊
  le_now : first.now + k / 100 ≤ s.now
  now_le : s.now ≤ first.now + budget + 1 / 100 + restore

variable {rounds : ℕ → LbtRound} {first : LbtState} {budget restore : ℚ} {k : ℕ}

theorem InRound.goOn (hs : InRound settings radio rounds first budget restore k s)
    (hrestore : (rounds k).restoreSeconds ≤ restore)
    (h : s.body settings radio (first.now + budget) (rounds k) = .goOn t) :
    InRound settings radio rounds first budget restore (k + 1) t := by
  obtain ⟨hbusy, hdeadline, rfl⟩ := goOn_of_body h
  obtain ⟨hlow, hhigh⟩ := now_wait settings (first.now + budget) (s.check radio (rounds k)).1
    (s.check radio (rounds k)).2.1 (rounds k)
  have hcheck : (0 : ℚ) ≤ (rounds k).checkSeconds := NNRat.coe_nonneg _
  have hnow := hs.le_now
  rw [now_check] at hdeadline hlow hhigh
  constructor
  · rw [hs.atRound]
    rfl
  · intro j hj
    rcases Nat.lt_succ_iff_lt_or_eq.mp hj with hj | rfl
    · exact hs.busy j hj
    · rwa [found, ← hs.atRound]
  · simp [wait, hs.retries]
  · apply Nat.succ_le_of_lt
    rw [Nat.lt_ceil]
    linarith
  · push_cast
    linarith
  · have hmax : max (s.now + (rounds k).checkSeconds + 1 / 100) (first.now + budget) ≤
        first.now + budget + 1 / 100 := max_le (by linarith) (by linarith)
    linarith

/-- The loop has ended at the check of its `k`-th round. -/
structure EndedAt (settings : LbtSettings) (radio : RadioSettings) (rounds : ℕ → LbtRound)
    (first : LbtState) (budget c restore : ℚ) (exit : LbtState × LbtOutcome) (k : ℕ) : Prop where
  eq_found : exit.1 = (found settings radio (first.now + budget) rounds first k).1
  outcome : exit.2 = (found settings radio (first.now + budget) rounds first k).2.2.outcome
  busy : ∀ j < k, (found settings radio (first.now + budget) rounds first j).2.2 = .busy
  retries : exit.1.lbtBackoffDelays.length = k
  retries_le : k ≤ ⌈100 * budget⌉₊
  elapsed_le : exit.1.now - first.now ≤ budget + 1 / 100 + c + restore
  le_elapsed : (found settings radio (first.now + budget) rounds first k).2.2 = .busy →
    budget ≤ exit.1.now - first.now

theorem InRound.leave (hs : InRound settings radio rounds first budget restore k s) {c : ℚ}
    (hcheck : (rounds k).checkSeconds ≤ c) {exit : LbtState × LbtOutcome}
    (h : s.body settings radio (first.now + budget) (rounds k) = .leave exit) :
    EndedAt settings radio rounds first budget c restore exit k := by
  obtain ⟨rfl, hspent⟩ := leave_of_body h
  have hfound : found settings radio (first.now + budget) rounds first k =
      s.check radio (rounds k) := by
    rw [found, ← hs.atRound]
  have hnow := hs.now_le
  rw [now_check] at hspent
  refine ⟨by rw [hfound], by rw [hfound], hs.busy, by simpa using hs.retries, hs.retries_le, ?_, ?_⟩
  · rw [now_check]
    linarith
  · rw [hfound, now_check]
    intro hbusy
    linarith [hspent hbusy]

end LbtState

/-- The loop ends within the budget, ten milliseconds, one check and one way back to receiving; it
waits only after a check that found the channel busy, and ends as its last check says. -/
theorem listenBeforeTalk_bounded (lbtMaxWaitSeconds lbtRetryIntervalMs : ℚ) (radio : RadioSettings)
    (rounds : ℕ → LbtRound) (start : ℚ) (driver : Driver) (c r : ℚ)
    (hcheck : ∀ k, (rounds k).checkSeconds ≤ c) (hrestore : ∀ k, (rounds k).restoreSeconds ≤ r) :
    let settings := LbtSettings.init lbtMaxWaitSeconds lbtRetryIntervalMs
    let retries := ⌈100 * settings.lbtMaxWaitSeconds⌉₊
    let found := LbtState.found settings radio (start + settings.lbtMaxWaitSeconds) rounds
      { now := start, driver }
    ∃ summary,
      (∀ fuel, retries < fuel →
        listenBeforeTalk settings radio rounds fuel start driver = some summary) ∧
      summary.elapsedSeconds ≤ settings.lbtMaxWaitSeconds + 1 / 100 + c + r ∧
      summary.lbtBackoffDelays.length ≤ retries ∧
      (∀ k < summary.lbtBackoffDelays.length, (found k).2.2 = .busy) ∧
      (let last := found summary.lbtBackoffDelays.length;
        summary.elapsedSeconds = last.1.now - start ∧ summary.outcome = last.2.2.outcome ∧
          (last.2.2 = .busy → settings.lbtMaxWaitSeconds ≤ summary.elapsedSeconds)) ∧
      ((∀ k, (rounds k).scan = .busy) →
        summary.outcome = .forced ∧ settings.lbtMaxWaitSeconds ≤ summary.elapsedSeconds) := by
  intro settings retries found
  let first : LbtState := { now := start, driver }
  have hfirst : LbtState.InRound settings radio rounds first settings.lbtMaxWaitSeconds r 0
      first := by
    have hpos : (0 : ℚ) ≤ settings.lbtMaxWaitSeconds := le_max_of_le_left (by norm_num)
    have hr : (0 : ℚ) ≤ r := (NNRat.coe_nonneg _).trans (hrestore 0)
    exact ⟨rfl, nofun, rfl, Nat.zero_le _, by simp, by linarith⟩
  have hgo := fun k s t
      (hs : LbtState.InRound settings radio rounds first settings.lbtMaxWaitSeconds r k s) =>
    hs.goOn (t := t) (hrestore k)
  obtain ⟨exit, hloop, k, hend⟩ := Machine.exists_loop_eq_some
    (P := fun exit => ∃ k, LbtState.EndedAt settings radio rounds first
      settings.lbtMaxWaitSeconds c r exit k)
    (fun _ _ hs => hs.retries_le) hgo (fun k _ _ hs hleave => ⟨k, hs.leave (hcheck k) hleave⟩)
    hfirst
  have hk : (exit.1.summary start exit.2).lbtBackoffDelays.length = k := hend.retries
  refine ⟨exit.1.summary start exit.2, fun fuel hfuel => ?_, hend.elapsed_le, ?_⟩
  · simp only [listenBeforeTalk]
    rw [hloop fuel (by omega), Option.map_some]
  · rw [hk]
    refine ⟨hend.retries_le, hend.busy, ⟨?_, hend.outcome, hend.le_elapsed⟩, fun hbusy => ?_⟩
    · exact congrArg (·.now - start) hend.eq_found
    · have hlast := LbtState.check_busy_of_scan radio
        (LbtState.atRound settings radio (start + settings.lbtMaxWaitSeconds) rounds first k)
        (hbusy k)
      exact ⟨hend.outcome.trans (congrArg ChannelScan.outcome hlast), hend.le_elapsed hlast⟩

/-- A channel that is never free, with the default budget and interval: the transmission is forced
once the four seconds are over. -/
theorem listenBeforeTalk_bounded_busy :
    ∃ summary,
      (∀ fuel, 400 < fuel → listenBeforeTalk (LbtSettings.init 4 200) {}
        (fun _ =>
          { scan := .busy, checkSeconds := 1 / 20, restoreSeconds := 1 / 50, jitter := 1 })
        fuel 0 {} = some summary) ∧
      summary.elapsedSeconds ≤ 4 + 1 / 100 + 1 / 20 + 1 / 50 ∧
      summary.lbtBackoffDelays.length ≤ 400 ∧
      summary.outcome = .forced ∧ 4 ≤ summary.elapsedSeconds := by
  have hbudget : (LbtSettings.init 4 200).lbtMaxWaitSeconds = 4 := by
    norm_num [LbtSettings.init]
  have hretries : ⌈(100 * 4 : ℚ)⌉₊ = 400 := by norm_num
  obtain ⟨summary, hends, helapsed, hwaits, -, -, hforced⟩ := listenBeforeTalk_bounded 4 200 {}
    (fun _ => { scan := .busy, checkSeconds := 1 / 20, restoreSeconds := 1 / 50, jitter := 1 })
    0 {} (1 / 20) (1 / 50) (fun _ => by norm_num) (fun _ => by norm_num)
  have hspent := hforced fun _ => rfl
  rw [hbudget] at hends helapsed hwaits hspent
  rw [hretries] at hends hwaits
  exact ⟨summary, hends, helapsed, hwaits, hspent⟩

end OpenHop.Sx1262
