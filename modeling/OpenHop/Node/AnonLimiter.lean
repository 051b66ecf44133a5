import OpenHop.Machine.Windows
import OpenHop.Node.LoginServer

/-! # How often anonymous requests are answered

The limiter keeps the opening of its current window and how often it was asked in it,
the refused calls included. A window opens with the first call after the last one ran
out, so that its windows need not follow each other without a gap, and a stretch of
time may hold the end of one and the start of the next.
-/

namespace OpenHop.AnonRateLimiter

open Windows

variable {l : AnonRateLimiter} {now : ℚ} {nows : List ℚ}

def counted (l : AnonRateLimiter) : AnonRateLimiter := { l with count := l.count + 1 }

def opened (l : AnonRateLimiter) (now : ℚ) : AnonRateLimiter :=
  { l with startTimestamp := now, count := 1 }

theorem allow_of_lt (h : now < l.startTimestamp + l.secs) :
    l.allow now = (decide (l.count + 1 ≤ l.maximum), l.counted) :=
  if_pos h

theorem allow_of_le (h : l.startTimestamp + l.secs ≤ now) : l.allow now = (true, l.opened now) :=
  if_neg h.not_gt

/-- The times of the calls that are allowed. -/
def allowedTimes (l : AnonRateLimiter) : List ℚ → List ℚ
  | [] => []
  | now :: nows =>
    let (allowed, l) := l.allow now
    if allowed then now :: l.allowedTimes nows else l.allowedTimes nows

def openings (l : AnonRateLimiter) : List ℚ → List ℚ
  | [] => []
  | now :: nows =>
    let rest := (l.allow now).2.openings nows
    if l.startTimestamp + l.secs ≤ now then now :: rest else rest

theorem mem_of_mem_allowedTimes {t : ℚ} (h : t ∈ l.allowedTimes nows) : t ∈ nows := by
  induction nows generalizing l with
  | nil => exact h
  | cons now nows ih =>
    simp only [allowedTimes] at h
    split_ifs at h
    · rcases List.mem_cons.mp h with rfl | h
      · exact List.mem_cons_self
      · exact List.mem_cons_of_mem _ (ih h)
    · exact List.mem_cons_of_mem _ (ih h)

theorem allowedTimes_cons_of_lt (h : now < l.startTimestamp + l.secs) :
    l.allowedTimes (now :: nows) =
      if l.count + 1 ≤ l.maximum then
        now :: l.counted.allowedTimes nows
      else l.counted.allowedTimes nows := by
  simp [allowedTimes, allow_of_lt h]

theorem allowedTimes_cons_of_le (h : l.startTimestamp + l.secs ≤ now) :
    l.allowedTimes (now :: nows) =
      now :: (l.opened now).allowedTimes nows := by
  simp [allowedTimes, allow_of_le h]

theorem openings_cons_of_lt (h : now < l.startTimestamp + l.secs) :
    l.openings (now :: nows) =
      l.counted.openings nows := by
  simp [openings, allow_of_lt h, h.not_ge]

theorem openings_cons_of_le (h : l.startTimestamp + l.secs ≤ now) :
    l.openings (now :: nows) =
      now :: (l.opened now).openings nows := by
  simp [openings, allow_of_le h, h]

section Spacing

variable (hsecs : 0 < l.secs)
include hsecs

theorem le_of_mem_openings {w : ℚ} (hw : w ∈ l.openings nows) :
    l.startTimestamp + l.secs ≤ w := by
  induction nows generalizing l with
  | nil => cases hw
  | cons now nows ih =>
    rcases lt_or_ge now (l.startTimestamp + l.secs) with h | h
    · rw [openings_cons_of_lt h] at hw
      exact ih (l := l.counted) hsecs hw
    · rw [openings_cons_of_le h, List.mem_cons] at hw
      rcases hw with rfl | hw
      · exact h
      · have hlater : now + l.secs ≤ w := ih (l := l.opened now) hsecs hw
        linarith

theorem spaced_openings : Spaced l.secs (l.openings nows) := by
  induction nows generalizing l with
  | nil => exact List.Pairwise.nil
  | cons now nows ih =>
    rcases lt_or_ge now (l.startTimestamp + l.secs) with h | h
    · rw [openings_cons_of_lt h]
      exact ih (l := l.counted) hsecs
    · rw [openings_cons_of_le h]
      exact List.pairwise_cons.mpr
        ⟨fun w hw => le_of_mem_openings (l := l.opened now) hsecs hw, ih (l := l.opened now) hsecs⟩

end Spacing

theorem exists_inside_of_mem_allowedTimes (hsorted : (l.startTimestamp :: nows).Pairwise (· ≤ ·))
    (hsecs : 0 < l.secs) {t : ℚ} (ht : t ∈ l.allowedTimes nows) :
    ∃ w ∈ l.startTimestamp :: l.openings nows, Inside l.secs w t := by
  induction nows generalizing l with
  | nil => cases ht
  | cons now nows ih =>
    obtain ⟨hstart, hrest⟩ := List.pairwise_cons.mp hsorted
    rcases lt_or_ge now (l.startTimestamp + l.secs) with h | h
    · have hkept : (l.startTimestamp :: nows).Pairwise (· ≤ ·) :=
        List.pairwise_cons.mpr ⟨fun x hx => hstart x (List.mem_cons_of_mem _ hx), hrest.of_cons⟩
      rw [openings_cons_of_lt h]
      have hlater := ih (l := l.counted) hkept hsecs
      rw [allowedTimes_cons_of_lt h] at ht
      split_ifs at ht
      · rcases List.mem_cons.mp ht with rfl | ht
        · exact ⟨_, List.mem_cons_self, hstart t List.mem_cons_self, h⟩
        · exact hlater ht
      · exact hlater ht
    · rw [openings_cons_of_le h]
      rw [allowedTimes_cons_of_le h, List.mem_cons] at ht
      rcases ht with rfl | ht
      · exact ⟨t, by simp, le_refl t, lt_add_of_pos_right t hsecs⟩
      · obtain ⟨w, hw, hin⟩ := ih (l := l.opened now) hrest hsecs ht
        exact ⟨w, List.mem_cons_of_mem _ hw, hin⟩

theorem countP_current_le (hsorted : nows.Pairwise (· ≤ ·)) :
    (l.allowedTimes nows).countP (Inside l.secs l.startTimestamp ·) ≤ l.maximum - l.count := by
  induction nows generalizing l with
  | nil => simp [allowedTimes]
  | cons now nows ih =>
    obtain ⟨hnow, hrest⟩ := List.pairwise_cons.mp hsorted
    rcases lt_or_ge now (l.startTimestamp + l.secs) with h | h
    · have hleft : (l.counted.allowedTimes nows).countP (Inside l.secs l.startTimestamp ·) ≤
          l.maximum - (l.count + 1) := ih (l := l.counted) hrest
      rw [allowedTimes_cons_of_lt h]
      split_ifs with hcount
      · rw [List.countP_cons]
        split_ifs <;> omega
      · omega
    · have hnone :
          (l.allowedTimes (now :: nows)).countP (Inside l.secs l.startTimestamp ·) = 0 := by
        rw [List.countP_eq_zero]
        intro t ht
        have hle : now ≤ t := by
          rcases List.mem_cons.mp (mem_of_mem_allowedTimes ht) with rfl | ht
          · exact le_refl t
          · exact hnow t ht
        simp only [decide_eq_true_eq]
        exact fun hin => (h.trans hle).not_gt hin.2
      omega

theorem countP_opening_le (hsorted : nows.Pairwise (· ≤ ·)) (hsecs : 0 < l.secs)
    (hmax : 1 ≤ l.maximum) {w : ℚ} (hw : w ∈ l.openings nows) :
    (l.allowedTimes nows).countP (Inside l.secs w ·) ≤ l.maximum := by
  induction nows generalizing l with
  | nil => cases hw
  | cons now nows ih =>
    have hrest := hsorted.of_cons
    rcases lt_or_ge now (l.startTimestamp + l.secs) with h | h
    · have hlate := le_of_mem_openings hsecs hw
      have hout : ¬ Inside l.secs w now := fun hin => (h.trans_le hlate).not_ge hin.1
      rw [openings_cons_of_lt h] at hw
      have hlater : (l.counted.allowedTimes nows).countP (Inside l.secs w ·) ≤ l.maximum :=
        ih (l := l.counted) hrest hsecs hmax hw
      rw [allowedTimes_cons_of_lt h]
      split_ifs
      · simpa [List.countP_cons, hout] using hlater
      · exact hlater
    · rw [allowedTimes_cons_of_le h]
      rw [openings_cons_of_le h, List.mem_cons] at hw
      rcases hw with rfl | hw
      · have hleft : ((l.opened w).allowedTimes nows).countP (Inside l.secs w ·) ≤
            l.maximum - 1 := countP_current_le (l := l.opened w) hrest
        rw [List.countP_cons]
        split_ifs <;> omega
      · have hlate : now + l.secs ≤ w :=
          le_of_mem_openings (l := l.opened now) hsecs hw
        have hout : ¬ Inside l.secs w now := fun hin => by
          have := hin.1
          linarith
        have hlater : ((l.opened now).allowedTimes nows).countP (Inside l.secs w ·) ≤ l.maximum :=
          ih (l := l.opened now) hrest hsecs hmax hw
        simpa [List.countP_cons, hout] using hlater

/-- A stretch of time as long as a window holds at most twice the maximum of allowed calls, and any
windows that follow each other hold at most the maximum each. -/
theorem allowed_rate {m : ℕ} {s : ℚ} (hm : 1 ≤ m) (hs : 0 < s) {nows : List ℚ}
    (hsorted : nows.Pairwise (· ≤ ·)) (hnows : ∀ now ∈ nows, s ≤ now) :
    (∀ a, (allowedTimes { maximum := m, secs := s } nows).countP (Inside s a ·) ≤ 2 * m) ∧
    ∀ ws, ws <:+: openings { maximum := m, secs := s } nows →
      (allowedTimes { maximum := m, secs := s } nows).countP (fun t => ∃ w ∈ ws, Inside s w t) ≤
        ws.length * m := by
  set l : AnonRateLimiter := { maximum := m, secs := s } with hl
  have hfew : ∀ w ∈ l.openings nows, (l.allowedTimes nows).countP (Inside s w ·) ≤ m :=
    fun w hw => countP_opening_le (l := l) hsorted hs hm hw
  have hcover : ∀ t ∈ l.allowedTimes nows, ∃ w ∈ l.openings nows, Inside s w t := by
    intro t ht
    have hfirst : (l.startTimestamp :: nows).Pairwise (· ≤ ·) :=
      List.pairwise_cons.mpr ⟨fun now hnow => hs.le.trans (hnows now hnow), hsorted⟩
    obtain ⟨w, hw, hin⟩ := exists_inside_of_mem_allowedTimes (l := l) hfirst hs ht
    rcases List.mem_cons.mp hw with rfl | hw
    · have hlate := hnows t (mem_of_mem_allowedTimes ht)
      have hearly : t < 0 + s := hin.2
      linarith
    · exact ⟨w, hw, hin⟩
  refine ⟨fun a => countP_inside_le (spaced_openings (l := l) hs) hcover hfew, fun ws hws => ?_⟩
  exact countP_exists_inside_le fun w hw => hfew w (hws.subset hw)

theorem allowed_rate_three_calls :
    (allowedTimes { maximum := 1, secs := 2 } [2, 3, 4]).countP (Inside 2 3 ·) ≤ 2 * 1 :=
  (allowed_rate (le_refl 1) (by norm_num) (by norm_num) (by norm_num)).1 3

end OpenHop.AnonRateLimiter
