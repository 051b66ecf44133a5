import OpenHop.Machine.Bucket
import OpenHop.Machine.Runs
import OpenHop.Protocol.Airtime
import OpenHop.Protocol.Packet

/-! # The transmit airtime budget

While client-repeat is on, a sender waits off the lock until the airtime budget admits it,
decides again under the lock, transmits, and pays for the transmission once the radio
confirms it.
-/

namespace OpenHop.Dispatcher

/-- `DUTY_CYCLE_WINDOW_MS` -/
def dutyCycleWindowMs : ℚ := 3600000

/-- `MIN_TX_BUDGET_RESERVE_MS` -/
def minTxBudgetReserveMs : ℚ := 100

/-- `MIN_TX_BUDGET_AIRTIME_DIV` -/
def minTxBudgetAirtimeDiv : ℚ := 2

/-- The settings the budget depends on. -/
structure BudgetConfig where
  radio : RadioSettings := {}
  airtimeBudgetFactor : ℚ := 1

namespace BudgetConfig

def dutyCycle (cfg : BudgetConfig) : ℚ := 1 / (1 + max 0 cfg.airtimeBudgetFactor)

def maxBudget (cfg : BudgetConfig) : ℚ := dutyCycleWindowMs * cfg.dutyCycle

def txEstAirtimeMs (cfg : BudgetConfig) (byteLen : ℕ) : ℚ :=
  calculateLoraAirtimeMs byteLen cfg.radio.spreadingFactor cfg.radio.bandwidth
    cfg.radio.codingRate cfg.radio.preambleLength

def reserveMs (cfg : BudgetConfig) : ℚ := cfg.txEstAirtimeMs maxTransUnit / minTxBudgetAirtimeDiv

variable (cfg : BudgetConfig)

theorem dutyCycle_pos : 0 < cfg.dutyCycle := by
  have := le_max_left 0 cfg.airtimeBudgetFactor
  exact one_div_pos.mpr (by linarith)

theorem maxBudget_pos : 0 < cfg.maxBudget :=
  mul_pos (by norm_num [dutyCycleWindowMs]) cfg.dutyCycle_pos

theorem txEstAirtimeMs_pos (n : ℕ) : 0 < cfg.txEstAirtimeMs n := calculateLoraAirtimeMs_pos

theorem txEstAirtimeMs_le {n : ℕ} (h : n ≤ maxTransUnit) :
    cfg.txEstAirtimeMs n ≤ 2 * cfg.reserveMs := by
  have hmono : cfg.txEstAirtimeMs n ≤ cfg.txEstAirtimeMs maxTransUnit :=
    calculateLoraAirtimeMs_mono h
  have hhalf : 2 * cfg.reserveMs = cfg.txEstAirtimeMs maxTransUnit := by
    unfold reserveMs minTxBudgetAirtimeDiv
    ring
  rwa [hhalf]

end BudgetConfig

/-- `_tx_budget_ms`, `_tx_budget_last_update` and `_tx_next_time`. -/
structure TxBudget where
  budgetMs : ℚ
  lastUpdate : ℚ
  nextTime : ℚ

namespace TxBudget

def reset (cfg : BudgetConfig) (now : ℚ) : TxBudget :=
  { budgetMs := cfg.maxBudget, lastUpdate := now, nextTime := now }

def refill (cfg : BudgetConfig) (b : TxBudget) (now : ℚ) : TxBudget :=
  let elapsedMs := (now - b.lastUpdate) * 1000
  let refill := elapsedMs * cfg.dutyCycle
  if 0 < refill then
    { b with budgetMs := min (b.budgetMs + refill) cfg.maxBudget, lastUpdate := now }
  else b

/-- Seconds a transmission has to wait, with the bucket refilled on the way; `≤ 0` admits. -/
def waitS (cfg : BudgetConfig) (b : TxBudget) (now : ℚ) : ℚ × TxBudget :=
  let b := b.refill cfg now
  let waitMs := if b.budgetMs < cfg.reserveMs then (cfg.reserveMs - b.budgetMs) / cfg.dutyCycle
    else 0
  let paceS := b.nextTime - now
  (max (waitMs / 1000) paceS, b)

def debit (cfg : BudgetConfig) (b : TxBudget) (packet : Packet) (now : ℚ) : TxBudget :=
  let b := b.refill cfg now
  let airtimeMs := cfg.txEstAirtimeMs packet.getRawLength
  let budgetMs := if airtimeMs > b.budgetMs then 0 else b.budgetMs - airtimeMs
  let nextTime := if budgetMs < minTxBudgetReserveMs
    then now + ((minTxBudgetReserveMs - budgetMs) / cfg.dutyCycle) / 1000 else now
  { b with budgetMs, nextTime }

/-- The budget at time `t`, gained but possibly not yet booked. -/
def budgetAt (cfg : BudgetConfig) (b : TxBudget) (t : ℚ) : ℚ :=
  Bucket.credit (cfg.dutyCycle * 1000) cfg.maxBudget b.budgetMs b.lastUpdate t

/-- The bucket is within its bounds and was last brought up to date in the past. -/
structure Valid (cfg : BudgetConfig) (b : TxBudget) (now : ℚ) : Prop where
  nonneg : 0 ≤ b.budgetMs
  le_max : b.budgetMs ≤ cfg.maxBudget
  last_le : b.lastUpdate ≤ now

variable {cfg : BudgetConfig} {b : TxBudget} {now later : ℚ} {packet : Packet}

theorem Valid.reset (cfg : BudgetConfig) (now : ℚ) : Valid cfg (TxBudget.reset cfg now) now :=
  ⟨cfg.maxBudget_pos.le, le_rfl, le_rfl⟩

theorem Valid.mono (h : Valid cfg b now) (hle : now ≤ later) : Valid cfg b later :=
  ⟨h.nonneg, h.le_max, h.last_le.trans hle⟩

theorem rate_nonneg (cfg : BudgetConfig) : 0 ≤ cfg.dutyCycle * 1000 :=
  mul_nonneg cfg.dutyCycle_pos.le (by norm_num)

theorem refill_eq (h : Valid cfg b now) :
    b.refill cfg now = { b with budgetMs := b.budgetAt cfg now, lastUpdate := now } := by
  have hgain : (now - b.lastUpdate) * 1000 * cfg.dutyCycle =
      cfg.dutyCycle * 1000 * (now - b.lastUpdate) := by ring
  simp only [refill, hgain]
  split
  · rfl
  · rename_i hnot
    have hrate : 0 < cfg.dutyCycle * 1000 := mul_pos cfg.dutyCycle_pos (by norm_num)
    have hnow : now = b.lastUpdate := by
      refine le_antisymm (le_of_not_gt fun hlt => hnot ?_) h.last_le
      exact mul_pos hrate (sub_pos.mpr hlt)
    subst hnow
    rw [budgetAt, Bucket.credit_self h.le_max]

theorem Valid.budgetMs_le_budgetAt (h : Valid cfg b now) : b.budgetMs ≤ b.budgetAt cfg now :=
  Bucket.le_credit (rate_nonneg cfg) h.le_max h.last_le

theorem Valid.refill (h : Valid cfg b now) : Valid cfg (b.refill cfg now) now := by
  rw [refill_eq h]
  exact ⟨h.nonneg.trans h.budgetMs_le_budgetAt, Bucket.credit_le_cap, le_rfl⟩

theorem budgetAt_refill (h : Valid cfg b now) (hle : now ≤ later) :
    (b.refill cfg now).budgetAt cfg later = b.budgetAt cfg later := by
  rw [refill_eq h]
  exact Bucket.credit_credit (rate_nonneg cfg) hle

theorem le_budgetMs_refill (h : Valid cfg b now) : b.budgetMs ≤ (b.refill cfg now).budgetMs := by
  rw [refill_eq h]
  exact h.budgetMs_le_budgetAt

theorem budgetAt_le_add (cfg : BudgetConfig) (b : TxBudget) (hle : now ≤ later) :
    b.budgetAt cfg later ≤ b.budgetAt cfg now + cfg.dutyCycle * 1000 * (later - now) :=
  Bucket.credit_le_add (rate_nonneg cfg) hle

theorem reserve_le_of_admitted (hle : (b.waitS cfg now).1 ≤ 0) :
    cfg.reserveMs ≤ (b.refill cfg now).budgetMs := by
  have hwait := (le_max_left _ _).trans hle
  by_contra hlt
  rw [not_le] at hlt
  rw [if_pos hlt] at hwait
  have hpos : 0 < (cfg.reserveMs - (b.refill cfg now).budgetMs) / cfg.dutyCycle :=
    div_pos (sub_pos.mpr hlt) cfg.dutyCycle_pos
  linarith

theorem debit_budgetMs : (b.debit cfg packet now).budgetMs =
    (b.refill cfg now).budgetMs -
      min (cfg.txEstAirtimeMs packet.getRawLength) (b.refill cfg now).budgetMs := by
  simp only [debit]
  split
  · rename_i h
    rw [min_eq_right h.le, sub_self]
  · rename_i h
    rw [min_eq_left (not_lt.mp h)]

theorem Valid.debit (h : Valid cfg b now) : Valid cfg (b.debit cfg packet now) now := by
  have hr := h.refill
  refine ⟨?_, ?_, hr.last_le⟩
  · rw [debit_budgetMs]
    exact sub_nonneg.mpr (min_le_right _ _)
  · rw [debit_budgetMs]
    have := le_min (cfg.txEstAirtimeMs_pos packet.getRawLength).le hr.nonneg
    linarith [hr.le_max]

/-- What is left after paying at `now`. -/
theorem budgetAt_debit (h : Valid cfg b now) :
    (b.debit cfg packet now).budgetAt cfg now = b.budgetAt cfg now -
      min (cfg.txEstAirtimeMs packet.getRawLength) (b.refill cfg now).budgetMs := by
  have hlast : (b.debit cfg packet now).lastUpdate = now := by
    show (b.refill cfg now).lastUpdate = now
    rw [refill_eq h]
  rw [budgetAt, hlast, Bucket.credit_self (h.debit).le_max, debit_budgetMs]
  congr 1
  rw [refill_eq h]

end TxBudget

/-- `_tx_lock`: free, held by a transmission, or held by a sender whose transmission is over. -/
inductive TxLock where
  | free
  | sending (packet : Packet)
  | sent

/-- The budget, the lock and the estimated airtimes of the transmissions completed so far. -/
structure TxState where
  clock : ℚ
  budget : TxBudget
  lock : TxLock
  completed : List ℚ

/-- The state in which client-repeat is switched on; a transmission may be under way. -/
def TxState.enabled (cfg : BudgetConfig) (now : ℚ) (lock : TxLock) : TxState :=
  { clock := now, budget := .reset cfg now, lock := lock, completed := [] }

/-- What the sender tasks do, each at a reading of the clock. -/
inductive TxAction where
  /-- Time passes. -/
  | tick (now : ℚ)
  /-- Some task looks at the budget off the lock. -/
  | awaitTxBudget (now : ℚ)
  /-- A task takes the lock and decides about its packet. -/
  | recheck (now : ℚ) (packet : Packet)
  /-- The radio raises or returns no metadata. -/
  | sendFailed (now : ℚ)
  /-- The radio confirms the transmission. -/
  | sendDone (now : ℚ)
  /-- The sender of a completed transmission leaves the lock. -/
  | release (now : ℚ)

def TxAction.now : TxAction → ℚ
  | tick now | awaitTxBudget now | recheck now _
  | sendFailed now | sendDone now | release now => now

def TxAction.packet? : TxAction → Option Packet
  | recheck _ packet => some packet
  | _ => none

/-- The start of `_transmit_locked`: a packet that cannot be written raises out of the lock. -/
def transmitLocked (packet : Packet) : TxLock :=
  match packet.writeTo with
  | .ok _ => .sending packet
  | .error _ => .free

def txStep (cfg : BudgetConfig) (s : TxState) (a : TxAction) : Option TxState :=
  if a.now < s.clock then none
  else
    let now := a.now
    match a, s.lock with
    | .tick _, _ => some { s with clock := now }
    | .awaitTxBudget _, _ => some { s with clock := now, budget := (s.budget.waitS cfg now).2 }
    | .recheck _ packet, .free =>
      let (wait, budget) := s.budget.waitS cfg now
      let lock := if wait ≤ 0 then transmitLocked packet else .free
      some { s with clock := now, budget, lock }
    | .sendFailed _, .sending _ => some { s with clock := now, lock := .free }
    | .sendDone _, .sending packet =>
      some
        { s with
          clock := now
          budget := s.budget.debit cfg packet now
          lock := .sent
          completed := s.completed ++ [cfg.txEstAirtimeMs packet.getRawLength] }
    | .release _, .sent => some { s with clock := now, lock := .free }
    | _, _ => none

def txRun (cfg : BudgetConfig) : TxState → List TxAction → Option TxState :=
  Machine.run (txStep cfg)

/-- The airtime of the transmission in progress. -/
def TxState.inProgress (cfg : BudgetConfig) (s : TxState) : ℚ :=
  match s.lock with
  | .sending packet => cfg.txEstAirtimeMs packet.getRawLength
  | _ => 0

/-- What a step can do to the state. -/
inductive TxEffect (cfg : BudgetConfig) (s : TxState) (a : TxAction) : TxState → Prop where
  /-- The budget is left alone or refilled and no transmission starts. -/
  | keep (budget : TxBudget) (lock : TxLock)
      (hbudget : budget = s.budget ∨ budget = s.budget.refill cfg a.now)
      (hlock : lock = s.lock ∨ lock = .free) :
      TxEffect cfg s a { s with clock := a.now, budget, lock }
  | admitted (packet : Packet) (hpacket : a.packet? = some packet) (hfree : s.lock = .free)
      (hreserve : cfg.reserveMs ≤ (s.budget.refill cfg a.now).budgetMs) :
      TxEffect cfg s a
        { s with clock := a.now, budget := s.budget.refill cfg a.now, lock := .sending packet }
  | pay (packet : Packet) (hlock : s.lock = .sending packet) :
      TxEffect cfg s a
        { clock := a.now
          budget := s.budget.debit cfg packet a.now
          lock := .sent
          completed := s.completed ++ [cfg.txEstAirtimeMs packet.getRawLength] }

theorem transmitLocked_cases (packet : Packet) :
    transmitLocked packet = .sending packet ∨ transmitLocked packet = .free := by
  unfold transmitLocked
  split
  · exact .inl rfl
  · exact .inr rfl

theorem txStep_effect {cfg : BudgetConfig} {s t : TxState} {a : TxAction}
    (h : txStep cfg s a = some t) : s.clock ≤ a.now ∧ TxEffect cfg s a t := by
  unfold txStep at h
  split at h
  · cases h
  rename_i hclock
  refine ⟨not_lt.mp hclock, ?_⟩
  dsimp only at h
  split at h
  · cases h
    exact .keep _ _ (.inl rfl) (.inl rfl)
  · cases h
    exact .keep _ _ (.inr rfl) (.inl rfl)
  · rename_i now packet hfree
    cases h
    split
    · rename_i hwait
      rcases transmitLocked_cases packet with hl | hl
      · rw [hl]
        exact .admitted packet rfl hfree (TxBudget.reserve_le_of_admitted hwait)
      · rw [hl]
        exact .keep _ _ (.inr rfl) (.inr rfl)
    · exact .keep _ _ (.inr rfl) (.inr rfl)
  · cases h
    exact .keep _ _ (.inl rfl) (.inr rfl)
  · rename_i now packet hlock
    cases h
    exact .pay packet hlock
  · cases h
    exact .keep _ _ (.inl rfl) (.inr rfl)
  · cases h

section

variable {cfg : BudgetConfig} {s₀ s t : TxState} {a : TxAction}

theorem txStep_valid (hs : s.budget.Valid cfg s.clock) (h : txStep cfg s a = some t) :
    t.budget.Valid cfg t.clock := by
  obtain ⟨hle, heffect⟩ := txStep_effect h
  have hnow := hs.mono hle
  cases heffect with
  | keep budget lock hbudget _ =>
    rcases hbudget with rfl | rfl
    · exact hnow
    · exact hnow.refill
  | admitted => exact hnow.refill
  | pay => exact hnow.debit

theorem txRun_valid {as : List TxAction} (hs : s.budget.Valid cfg s.clock)
    (h : txRun cfg s as = some t) : t.budget.Valid cfg t.clock :=
  Machine.run_invariant (I := fun s => s.budget.Valid cfg s.clock)
    (fun _ _ _ => txStep_valid) hs h

/-- What the bucket had at `s₀` and gained since, less what it has now. -/
def spentSince (cfg : BudgetConfig) (s₀ s : TxState) : ℚ :=
  s₀.budget.budgetAt cfg s₀.clock + cfg.dutyCycle * 1000 * (s.clock - s₀.clock)
    - s.budget.budgetAt cfg s.clock

theorem spentSince_refill (s₀ : TxState) (hs : s.budget.Valid cfg s.clock) (hle : s.clock ≤ a.now)
    {budget : TxBudget} (hbudget : budget = s.budget ∨ budget = s.budget.refill cfg a.now)
    (lock : TxLock) :
    spentSince cfg s₀ s ≤ spentSince cfg s₀ { s with clock := a.now, budget, lock } := by
  have hat : budget.budgetAt cfg a.now = s.budget.budgetAt cfg a.now := by
    rcases hbudget with rfl | rfl
    · rfl
    · exact TxBudget.budgetAt_refill (hs.mono hle) le_rfl
  have hgrow := TxBudget.budgetAt_le_add cfg s.budget hle
  simp only [spentSince, hat]
  linarith

theorem spentSince_debit (s₀ : TxState) (hs : s.budget.Valid cfg s.clock) (hle : s.clock ≤ a.now)
    (packet : Packet) (completed : List ℚ) :
    spentSince cfg s₀ s + min (cfg.txEstAirtimeMs packet.getRawLength)
        (s.budget.refill cfg a.now).budgetMs ≤
      spentSince cfg s₀ ⟨a.now, s.budget.debit cfg packet a.now, .sent, completed⟩ := by
  have hgrow := TxBudget.budgetAt_le_add cfg s.budget hle
  simp only [spentSince, TxBudget.budgetAt_debit (hs.mono hle)]
  linarith

/-- The transmissions since `s₀` are paid for. Until the one in progress at `s₀` is over no other
can complete; later ones were admitted with the reserve in the bucket. -/
inductive Accounted (cfg : BudgetConfig) (s₀ s : TxState) : Prop where
  | pending (hlock : s.lock = s₀.lock) (hdone : s.completed = s₀.completed)
      (hspent : 0 ≤ spentSince cfg s₀ s)
  | settled (hlock : ∀ packet, s.lock = .sending packet →
        packet.getRawLength ≤ maxTransUnit ∧ cfg.reserveMs ≤ s.budget.budgetMs)
      (done : List ℚ) (hdone : s.completed = s₀.completed ++ done)
      (hsum : done.sum ≤ 2 * spentSince cfg s₀ s + s₀.inProgress cfg)

theorem inProgress_nonneg (cfg : BudgetConfig) (s : TxState) : 0 ≤ s.inProgress cfg := by
  unfold TxState.inProgress
  split
  · exact (cfg.txEstAirtimeMs_pos _).le
  · exact le_rfl

theorem Accounted.refl (cfg : BudgetConfig) (s : TxState) : Accounted cfg s s :=
  .pending rfl rfl (by simp [spentSince])

theorem Accounted.exists_done (h : Accounted cfg s₀ s) :
    ∃ done, s.completed = s₀.completed ++ done ∧
      done.sum ≤ 2 * spentSince cfg s₀ s + s₀.inProgress cfg := by
  cases h with
  | pending _ hdone hspent =>
    refine ⟨[], by simpa using hdone, ?_⟩
    have := inProgress_nonneg cfg s₀
    simp only [List.sum_nil]
    linarith
  | settled _ done hdone hsum => exact ⟨done, hdone, hsum⟩

theorem Accounted.settle (h : Accounted cfg s₀ s) (hcompleted : t.completed = s.completed)
    (hmono : spentSince cfg s₀ s ≤ spentSince cfg s₀ t)
    (hlock : ∀ packet, t.lock = .sending packet →
      packet.getRawLength ≤ maxTransUnit ∧ cfg.reserveMs ≤ t.budget.budgetMs) :
    Accounted cfg s₀ t := by
  obtain ⟨done, hdone, hsum⟩ := h.exists_done
  exact .settled hlock done (hcompleted.trans hdone) (by linarith)

theorem txStep_accounted (hs : s.budget.Valid cfg s.clock)
    (hsize : ∀ packet, a.packet? = some packet → packet.getRawLength ≤ maxTransUnit)
    (hacc : Accounted cfg s₀ s) (h : txStep cfg s a = some t) : Accounted cfg s₀ t := by
  obtain ⟨hle, heffect⟩ := txStep_effect h
  have hnow := hs.mono hle
  cases heffect with
  | keep budget lock hbudget hlock =>
    have hmono := spentSince_refill s₀ hs hle hbudget lock
    rcases hlock with rfl | rfl
    · cases hacc with
      | pending hlock hdone hspent => exact .pending hlock hdone (hspent.trans hmono)
      | settled hlock done hdone hsum =>
        refine .settled (fun packet hp => ?_) done hdone (by linarith)
        obtain ⟨hlen, hreserve⟩ := hlock packet hp
        refine ⟨hlen, hreserve.trans ?_⟩
        rcases hbudget with rfl | rfl
        · exact le_rfl
        · exact TxBudget.le_budgetMs_refill hnow
    · exact hacc.settle rfl hmono (fun _ hp => nomatch hp)
  | admitted packet hpacket _ hreserve =>
    refine hacc.settle rfl (spentSince_refill s₀ hs hle (.inr rfl) _) ?_
    rintro _ ⟨⟩
    exact ⟨hsize packet hpacket, hreserve⟩
  | pay packet hlock =>
    have hpaid := spentSince_debit s₀ hs hle packet
      (s.completed ++ [cfg.txEstAirtimeMs packet.getRawLength])
    have hcharge := le_min (cfg.txEstAirtimeMs_pos packet.getRawLength).le hnow.refill.nonneg
    cases hacc with
    | pending hlock₀ hdone hspent =>
      -- the transmission in progress at the start accounts for itself
      have hown : s₀.inProgress cfg = cfg.txEstAirtimeMs packet.getRawLength := by
        rw [TxState.inProgress, ← hlock₀, hlock]
      refine .settled (fun _ hp => nomatch hp) [_] (by rw [hdone]) ?_
      rw [List.sum_singleton, hown]
      linarith
    | settled hadmitted done hdone hsum =>
      obtain ⟨hlen, hreserve⟩ := hadmitted packet hlock
      have hhalf : cfg.txEstAirtimeMs packet.getRawLength ≤
          2 * min (cfg.txEstAirtimeMs packet.getRawLength)
            (s.budget.refill cfg a.now).budgetMs := by
        have hest := cfg.txEstAirtimeMs_le hlen
        have hpos := cfg.txEstAirtimeMs_pos packet.getRawLength
        have hlevel := hreserve.trans (TxBudget.le_budgetMs_refill hnow)
        rcases min_cases (cfg.txEstAirtimeMs packet.getRawLength)
          (s.budget.refill cfg a.now).budgetMs with ⟨hmin, _⟩ | ⟨hmin, _⟩
        · rw [hmin]
          linarith
        · rw [hmin]
          linarith
      refine .settled (fun _ hp => nomatch hp) (done ++ [_]) (by rw [hdone, List.append_assoc]) ?_
      rw [List.sum_append, List.sum_singleton]
      linarith

theorem txRun_accounted {as : List TxAction} (hs : s.budget.Valid cfg s.clock)
    (hsize : ∀ a ∈ as, ∀ packet, a.packet? = some packet → packet.getRawLength ≤ maxTransUnit)
    (h : txRun cfg s as = some t) : Accounted cfg s t := by
  refine (Machine.run_invariant_of_mem
    (I := fun t => t.budget.Valid cfg t.clock ∧ Accounted cfg s t) ?_ ⟨hs, .refl cfg s⟩ h).2
  rintro u a ha v ⟨hvalid, hacc⟩ hstep
  exact ⟨txStep_valid hvalid hstep, txStep_accounted hvalid (hsize a ha) hacc hstep⟩

end

/-- The budget stays within its bounds, and the airtime of the transmissions completed between two
states is at most twice what the bucket had and gained, besides the transmission in progress at the
first. -/
theorem txRun_airtime_bounded (cfg : BudgetConfig) (start : ℚ) (lock : TxLock)
    {before between : List TxAction} {s₀ s₁ : TxState}
    (hbefore : txRun cfg (.enabled cfg start lock) before = some s₀)
    (hbetween : txRun cfg s₀ between = some s₁)
    (hsize : ∀ a ∈ between, ∀ packet, a.packet? = some packet →
      packet.getRawLength ≤ maxTransUnit) :
    s₀.budget.budgetMs ∈ Set.Icc 0 cfg.maxBudget ∧
    ∃ done, s₁.completed = s₀.completed ++ done ∧
      done.sum ≤ 2 * (s₀.budget.budgetAt cfg s₀.clock
          + cfg.dutyCycle * 1000 * (s₁.clock - s₀.clock))
        + s₀.inProgress cfg := by
  have hs₀ := txRun_valid (.reset cfg start) hbefore
  have hs₁ := txRun_valid hs₀ hbetween
  refine ⟨⟨hs₀.nonneg, hs₀.le_max⟩, ?_⟩
  obtain ⟨done, hdone, hsum⟩ := (txRun_accounted hs₀ hsize hbetween).exists_done
  have hleft := hs₁.nonneg.trans hs₁.budgetMs_le_budgetAt
  refine ⟨done, hdone, ?_⟩
  unfold spentSince at hsum
  linarith

/-- A text-sized flood packet. -/
def shortPacket : Packet :=
  { header := 0x09, payload := List.replicate 40 0, payloadLen := 40 }

/-- Sixty-three four-byte hops and a full payload: written without error, 438 bytes long. -/
def oversizePacket : Packet :=
  { header := 0x09
    pathLen := 0xFF
    path := List.replicate 252 0
    payload := List.replicate 184 0
    payloadLen := 184 }

/-- Client-repeat is switched on during one transmission, and a second one follows. -/
theorem txRun_airtime_bounded_short :
    ∃ s₀ s₁, txRun {} (.enabled {} 0 (.sending shortPacket)) [.awaitTxBudget 1] = some s₀ ∧
      txRun {} s₀ [.sendDone 2, .release 2, .recheck 3 shortPacket, .sendDone 4] = some s₁ ∧
      s₀.completed = [] ∧ s₁.completed = [267.264, 267.264] ∧
      s₁.completed.sum ≤ 2 * (s₀.budget.budgetAt {} s₀.clock
        + BudgetConfig.dutyCycle {} * 1000 * (s₁.clock - s₀.clock)) + s₀.inProgress {} := by
  have hlog : ((txRun {} (.enabled {} 0 (.sending shortPacket)) [.awaitTxBudget 1]).bind fun s₀ =>
      (txRun {} s₀ [.sendDone 2, .release 2, .recheck 3 shortPacket, .sendDone 4]).map
        fun s₁ => (s₀.completed, s₁.completed)) = some ([], [267.264, 267.264]) := by
    decide +kernel
  obtain ⟨s₀, h₀, hlog⟩ := Option.bind_eq_some_iff.mp hlog
  obtain ⟨s₁, h₁, hlog⟩ := Option.map_eq_some_iff.mp hlog
  obtain ⟨hc₀, hc₁⟩ := Prod.mk.inj hlog
  obtain ⟨_, done, hdone, hsum⟩ := txRun_airtime_bounded {} 0 _ h₀ h₁ (by decide +kernel)
  rw [hc₀, List.nil_append] at hdone
  exact ⟨s₀, s₁, h₀, h₁, hc₀, hc₁, hdone ▸ hsum⟩

/-- A duty cycle of 1/6000: the full bucket holds 600 ms. -/
def tightBudget : BudgetConfig := { airtimeBudgetFactor := 5999 }

/-- The full bucket is above the reserve of 574 ms and admits a packet that is longer than the
transmission unit and takes 1885 ms. -/
theorem txRun_airtime_oversize :
    ∃ s₁, txRun tightBudget (.enabled tightBudget 0 .free)
        [.recheck 0 oversizePacket, .sendDone 0] = some s₁ ∧
      ¬ s₁.completed.sum ≤ 2 * ((TxBudget.reset tightBudget 0).budgetAt tightBudget 0
          + tightBudget.dutyCycle * 1000 * (s₁.clock - 0))
        + (TxState.enabled tightBudget 0 .free).inProgress tightBudget := by
  have hlog : (txRun tightBudget (.enabled tightBudget 0 .free)
      [.recheck 0 oversizePacket, .sendDone 0]).map (fun s => (s.completed, s.clock)) =
        some ([1885.184], 0) := by
    decide +kernel
  obtain ⟨s₁, h₁, hlog⟩ := Option.map_eq_some_iff.mp hlog
  obtain ⟨hc, hclock⟩ := Prod.mk.inj hlog
  refine ⟨s₁, h₁, ?_⟩
  rw [hc, hclock]
  decide +kernel

end OpenHop.Dispatcher
