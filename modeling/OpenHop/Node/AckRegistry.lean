import Mathlib.Algebra.Order.Ring.Rat
import OpenHop.Data.Dict

/-! # The ACK waiter registry

Senders register one event per expected CRC and wait for it off the transmit lock, so
registrations, acknowledgements and exits interleave freely.
-/

namespace OpenHop

/-- `_waiting_acks`, `_recent_acks` and the event objects made so far; an event is its index. -/
structure AckRegistry where
  waitingAcks : Dict ℕ (List ℕ) := Dict.empty
  recentAcks : Dict ℕ ℚ := Dict.empty
  events : List Bool := []

namespace AckRegistry

def expectAck (s : AckRegistry) (crc : ℕ) : AckRegistry × ℕ :=
  let evt := s.events.length
  let waiters := (s.waitingAcks.get? crc).getD []
  let s := { s with
    events := s.events ++ [false]
    waitingAcks := s.waitingAcks.set crc (waiters ++ [evt]) }
  -- the ACK may already be in the recent-ACK cache
  if s.recentAcks.contains crc then ({ s with events := s.events.set evt true }, evt)
  else (s, evt)

def discardAckWaiter (s : AckRegistry) (crc event : ℕ) : AckRegistry :=
  match s.waitingAcks.get? crc with
  | none => s
  | some waiters =>
    let waiters := waiters.erase event
    if waiters.isEmpty then { s with waitingAcks := s.waitingAcks.erase crc }
    else { s with waitingAcks := s.waitingAcks.set crc waiters }

/-- The part of `_register_ack_received` before its listener is awaited. -/
def registerAckReceived (s : AckRegistry) (crc : ℕ) (ts : ℚ) : AckRegistry :=
  let s := { s with recentAcks := s.recentAcks.set crc ts }
  match s.waitingAcks.get? crc with
  | none => s
  | some waiters =>
    { s with
      waitingAcks := s.waitingAcks.erase crc
      events := waiters.foldl (fun events evt => events.set evt true) s.events }

def pruneRecentAcks (s : AckRegistry) (now : ℚ) : AckRegistry :=
  { s with recentAcks := s.recentAcks.filter fun _ ts => now - ts < 5 }

end AckRegistry

inductive AckAction where
  | expectAck (crc : ℕ)
  | ackReceived (crc : ℕ) (ts : ℚ)
  | prune (now : ℚ)
  | exit (waiter : ℕ)

/-- The registry and the CRC each sender keeps next to its event. -/
structure AckSystem where
  registry : AckRegistry := {}
  senders : List ℕ := []

namespace AckSystem

def step (s : AckSystem) : AckAction → AckSystem
  | .expectAck crc => ⟨(s.registry.expectAck crc).1, s.senders ++ [crc]⟩
  | .ackReceived crc ts => { s with registry := s.registry.registerAckReceived crc ts }
  | .prune now => { s with registry := s.registry.pruneRecentAcks now }
  | .exit i =>
    match s.senders[i]? with
    | none => s
    | some crc => { s with registry := s.registry.discardAckWaiter crc i }

def run (actions : List AckAction) : AckSystem := actions.foldl step {}

end AckSystem

/-- Who registered on which CRC, who exited, and whom an ACK popped. -/
structure AckHistory where
  crcOf : List ℕ := []
  exited : List ℕ := []
  popped : List ℕ := []
  exited_lt : ∀ i ∈ exited, i < crcOf.length := by simp
  popped_lt : ∀ i ∈ popped, i < crcOf.length := by simp

namespace AckHistory

/-- Waiter `i` registered on `crc` and has neither exited nor been popped by an ACK. -/
def Live (h : AckHistory) (i crc : ℕ) : Prop :=
  h.crcOf[i]? = some crc ∧ i ∉ h.exited ∧ i ∉ h.popped

instance (h : AckHistory) (i crc : ℕ) : Decidable (h.Live i crc) :=
  inferInstanceAs (Decidable (_ ∧ _ ∧ _))

def liveOn (h : AckHistory) (crc : ℕ) : List ℕ :=
  (List.range h.crcOf.length).filter fun i => h.Live i crc

theorem Live.lt {h : AckHistory} {i crc : ℕ} (hl : h.Live i crc) : i < h.crcOf.length :=
  (List.getElem?_eq_some_iff.mp hl.1).1

theorem mem_liveOn {h : AckHistory} {i crc : ℕ} : i ∈ h.liveOn crc ↔ h.Live i crc := by
  simp only [liveOn, List.mem_filter, List.mem_range, decide_eq_true_eq, and_iff_right_iff_imp]
  exact Live.lt

theorem nodup_liveOn (h : AckHistory) (crc : ℕ) : (h.liveOn crc).Nodup :=
  List.nodup_range.filter _

def step (h : AckHistory) : AckAction → AckHistory
  | .expectAck crc =>
    { h with
      crcOf := h.crcOf ++ [crc]
      exited_lt := fun i hi => by have := h.exited_lt i hi; simp; omega
      popped_lt := fun i hi => by have := h.popped_lt i hi; simp; omega }
  | .ackReceived crc _ =>
    { h with
      popped := h.popped ++ h.liveOn crc
      popped_lt := fun i hi =>
        (List.mem_append.mp hi).elim (h.popped_lt i) fun hm => (mem_liveOn.mp hm).lt }
  | .prune _ => h
  | .exit i =>
    if hi : i < h.crcOf.length then
      { h with
        exited := h.exited ++ [i]
        exited_lt := fun j hj =>
          (List.mem_append.mp hj).elim (h.exited_lt j) fun hm => List.mem_singleton.mp hm ▸ hi }
    else h

def ofRun (actions : List AckAction) : AckHistory := actions.foldl step {}

theorem liveOn_expectAck (h : AckHistory) (crc c : ℕ) :
    (h.step (.expectAck crc)).liveOn c =
      h.liveOn c ++ if c = crc then [h.crcOf.length] else [] := by
  have hold : ∀ i ∈ List.range h.crcOf.length,
      decide ((h.step (.expectAck crc)).Live i c) = decide (h.Live i c) := by
    intro i hi
    have hi := List.mem_range.mp hi
    exact decide_eq_decide.mpr (by simp only [Live, step, List.getElem?_append_left hi])
  have hnew : (h.step (.expectAck crc)).Live h.crcOf.length c ↔ c = crc := by
    have he : h.crcOf.length ∉ h.exited := fun hm => lt_irrefl _ (h.exited_lt _ hm)
    have hp : h.crcOf.length ∉ h.popped := fun hm => lt_irrefl _ (h.popped_lt _ hm)
    simp [Live, step, he, hp, eq_comm]
  have hlen : (h.step (.expectAck crc)).crcOf.length = h.crcOf.length + 1 := by simp [step]
  rw [liveOn, hlen, List.range_succ, List.filter_append, List.filter_congr hold]
  by_cases hc : c = crc
  · subst hc
    simp [liveOn, hnew]
  · simp [liveOn, hnew, hc]

theorem liveOn_ackReceived (h : AckHistory) (crc c : ℕ) (ts : ℚ) :
    (h.step (.ackReceived crc ts)).liveOn c = if c = crc then [] else h.liveOn c := by
  have hlive : ∀ i, (h.step (.ackReceived crc ts)).Live i c ↔ c ≠ crc ∧ h.Live i c := by
    intro i
    simp only [Live, step, List.mem_append, mem_liveOn]
    constructor
    · rintro ⟨hi, he, hp⟩
      obtain ⟨hold, hnew⟩ := not_or.mp hp
      refine ⟨?_, hi, he, hold⟩
      rintro rfl
      exact hnew ⟨hi, he, hold⟩
    · rintro ⟨hc, hi, he, hp⟩
      refine ⟨hi, he, not_or.mpr ⟨hp, ?_⟩⟩
      rintro ⟨hi', -⟩
      exact hc (Option.some.inj (hi.symm.trans hi'))
  by_cases hc : c = crc
  · rw [if_pos hc, List.eq_nil_iff_forall_not_mem]
    intro i hi
    exact ((hlive i).mp (mem_liveOn.mp hi)).1 hc
  · rw [if_neg hc]
    exact List.filter_congr fun i _ => by simp [hlive, hc]

theorem liveOn_exit (h : AckHistory) (i c : ℕ) :
    (h.step (.exit i)).liveOn c = (h.liveOn c).erase i := by
  rw [(h.nodup_liveOn c).erase_eq_filter]
  by_cases hi : i < h.crcOf.length
  · have hlive : ∀ j, (h.step (.exit i)).Live j c ↔ h.Live j c ∧ j ≠ i := by
      intro j
      simp only [Live, step, hi, dite_true, List.mem_append, List.mem_singleton, not_or]
      tauto
    have hlen : (h.step (.exit i)).crcOf.length = h.crcOf.length := by simp [step, hi]
    rw [liveOn, liveOn, hlen, List.filter_filter]
    exact List.filter_congr fun j _ => Bool.eq_iff_iff.mpr (by simp [hlive, and_comm])
  · have hstep : h.step (.exit i) = h := by simp [step, hi]
    rw [hstep, List.filter_eq_self.mpr]
    intro j hj
    have := (mem_liveOn.mp hj).lt
    simp only [bne_iff_ne, ne_eq]
    omega

end AckHistory

/-- The list a key maps to, where an empty list means that there is no key. -/
def AckRegistry.entry (waiters : List ℕ) : Option (List ℕ) :=
  if waiters = [] then none else some waiters

namespace AckSystem

variable {s : AckSystem} {h : AckHistory}

/-- Every CRC maps to its live waiters, in order of registration. -/
structure Refines (s : AckSystem) (h : AckHistory) : Prop where
  senders_eq : s.senders = h.crcOf
  events_length : s.registry.events.length = h.crcOf.length
  waiting : ∀ crc, s.registry.waitingAcks.get? crc = AckRegistry.entry (h.liveOn crc)

theorem length_foldl_set (ws : List ℕ) (es : List Bool) :
    (ws.foldl (fun es i => es.set i true) es).length = es.length := by
  induction ws generalizing es with
  | nil => rfl
  | cons w ws ih => rw [List.foldl_cons, ih, List.length_set]

theorem getElem?_foldl_set {ws : List ℕ} {es : List Bool} {i : ℕ} (hi : i < es.length)
    (hm : i ∈ ws ∨ es[i]? = some true) :
    (ws.foldl (fun es i => es.set i true) es)[i]? = some true := by
  induction ws generalizing es with
  | nil => simpa using hm
  | cons w ws ih =>
    apply ih (by simpa using hi)
    by_cases hw : w = i
    · exact .inr (by simp [hw, hi])
    · rcases hm with hm | hm
      · rcases List.mem_cons.mp hm with rfl | hm
        · exact absurd rfl hw
        · exact .inl hm
      · exact .inr (by simp [hw, hm])

theorem getD_entry (l : List ℕ) : (AckRegistry.entry l).getD [] = l := by
  unfold AckRegistry.entry
  split <;> simp_all

theorem waiters_eq (hr : Refines s h) (crc : ℕ) :
    (s.registry.waitingAcks.get? crc).getD [] = h.liveOn crc := by
  rw [hr.waiting, getD_entry]

theorem refines_expectAck (hr : Refines s h) (crc : ℕ) :
    Refines (s.step (.expectAck crc)) (h.step (.expectAck crc)) := by
  have hget : ∀ c, (s.registry.expectAck crc).1.waitingAcks.get? c =
      if c = crc then some (h.liveOn crc ++ [h.crcOf.length])
      else AckRegistry.entry (h.liveOn c) := by
    intro c
    simp only [AckRegistry.expectAck, waiters_eq hr, hr.events_length]
    split <;> simp only [Dict.get?_set, hr.waiting]
  refine ⟨by simp [step, AckHistory.step, hr.senders_eq], ?_, ?_⟩
  · simp only [step, AckHistory.step, AckRegistry.expectAck]
    split <;> simp [hr.events_length]
  · intro c
    rw [h.liveOn_expectAck]
    refine (hget c).trans ?_
    by_cases hc : c = crc
    · simp [hc, AckRegistry.entry]
    · simp [hc]

theorem refines_ackReceived (hr : Refines s h) (crc : ℕ) (ts : ℚ) :
    Refines (s.step (.ackReceived crc ts)) (h.step (.ackReceived crc ts)) := by
  refine ⟨hr.senders_eq, ?_, ?_⟩
  · simp only [step, AckHistory.step, AckRegistry.registerAckReceived]
    split
    · exact hr.events_length
    · simpa only [length_foldl_set] using hr.events_length
  · intro c
    rw [h.liveOn_ackReceived]
    simp only [step, AckRegistry.registerAckReceived]
    split
    · rename_i hnone
      by_cases hc : c = crc
      · simpa [hc, AckRegistry.entry] using hnone
      · simpa [hc] using hr.waiting c
    · simp only [Dict.get?_erase, hr.waiting]
      by_cases hc : c = crc <;> simp [hc, AckRegistry.entry]

theorem get?_discardAckWaiter (hr : Refines s h) (crc i c : ℕ) :
    (s.registry.discardAckWaiter crc i).waitingAcks.get? c =
      if c = crc then AckRegistry.entry ((h.liveOn crc).erase i)
      else AckRegistry.entry (h.liveOn c) := by
  have hcrc := hr.waiting crc
  simp only [AckRegistry.discardAckWaiter]
  by_cases hl : h.liveOn crc = []
  · have hnone : s.registry.waitingAcks.get? crc = none := by simp [hcrc, hl, AckRegistry.entry]
    rw [hnone]
    by_cases hc : c = crc
    · simp [hc, hnone, hl, AckRegistry.entry]
    · simpa [hc] using hr.waiting c
  · have hsome : s.registry.waitingAcks.get? crc = some (h.liveOn crc) := by
      simp [hcrc, hl, AckRegistry.entry]
    rw [hsome]
    simp only [List.isEmpty_iff]
    split
    · rename_i hempty
      simp only [Dict.get?_erase, hempty, hr.waiting]
      rfl
    · rename_i hne
      simp only [Dict.get?_set, hr.waiting c]
      simp only [AckRegistry.entry, hne, if_false]

theorem refines_exit (hr : Refines s h) (i : ℕ) :
    Refines (s.step (.exit i)) (h.step (.exit i)) := by
  by_cases hi : i < h.crcOf.length
  · obtain ⟨crc, hcrc⟩ : ∃ crc, h.crcOf[i]? = some crc := ⟨_, List.getElem?_eq_getElem hi⟩
    have hstep : s.step (.exit i) =
        { s with registry := s.registry.discardAckWaiter crc i } := by
      simp only [step, hr.senders_eq, hcrc]
    have hother : ∀ c, c ≠ crc → (h.liveOn c).erase i = h.liveOn c := by
      intro c hc
      refine List.erase_of_not_mem fun hm => hc ?_
      exact Option.some.inj ((AckHistory.mem_liveOn.mp hm).1.symm.trans hcrc)
    rw [hstep]
    refine ⟨by simp [AckHistory.step, hi, hr.senders_eq], ?_, ?_⟩
    · simp only [AckRegistry.discardAckWaiter, AckHistory.step, hi, dite_true]
      split
      · exact hr.events_length
      · split <;> exact hr.events_length
    · intro c
      rw [h.liveOn_exit]
      refine (get?_discardAckWaiter hr crc i c).trans ?_
      by_cases hc : c = crc
      · rw [if_pos hc, hc]
      · rw [if_neg hc, hother c hc]
  · have hnone : s.senders[i]? = none := by
      rw [hr.senders_eq]
      exact List.getElem?_eq_none (not_lt.mp hi)
    simpa [step, AckHistory.step, hi, hnone] using hr

theorem refines_step (hr : Refines s h) (a : AckAction) : Refines (s.step a) (h.step a) := by
  cases a with
  | expectAck crc => exact refines_expectAck hr crc
  | ackReceived crc ts => exact refines_ackReceived hr crc ts
  | prune now => exact ⟨hr.senders_eq, hr.events_length, hr.waiting⟩
  | exit i => exact refines_exit hr i

theorem refines_foldl (actions : List AckAction) (hr : Refines s h) :
    Refines (actions.foldl step s) (actions.foldl AckHistory.step h) := by
  induction actions generalizing s h with
  | nil => exact hr
  | cons a as ih => exact ih (refines_step hr a)

theorem refines_run (actions : List AckAction) :
    Refines (run actions) (AckHistory.ofRun actions) :=
  refines_foldl actions ⟨rfl, rfl, fun _ => rfl⟩

theorem events_step {i : ℕ} (a : AckAction) (hi : s.registry.events[i]? = some true) :
    (s.step a).registry.events[i]? = some true := by
  have hlt : i < s.registry.events.length := (List.getElem?_eq_some_iff.mp hi).1
  cases a with
  | expectAck crc =>
    have hne : s.registry.events.length ≠ i := by omega
    simp only [step, AckRegistry.expectAck]
    split
    · rw [List.getElem?_set_ne hne, List.getElem?_append_left hlt, hi]
    · rw [List.getElem?_append_left hlt, hi]
  | ackReceived crc ts =>
    simp only [step, AckRegistry.registerAckReceived]
    split
    · exact hi
    · exact getElem?_foldl_set hlt (.inr hi)
  | prune now => exact hi
  | exit j =>
    simp only [step, AckRegistry.discardAckWaiter]
    split
    · exact hi
    · dsimp only
      split
      · exact hi
      · split <;> exact hi

theorem events_ackReceived (hr : Refines s h) {i crc : ℕ} (hi : h.Live i crc) (ts : ℚ) :
    (s.step (.ackReceived crc ts)).registry.events[i]? = some true := by
  have hmem : i ∈ (s.registry.waitingAcks.get? crc).getD [] := by
    rw [waiters_eq hr]
    exact AckHistory.mem_liveOn.mpr hi
  have hlt : i < s.registry.events.length := by
    rw [hr.events_length]
    exact hi.lt
  simp only [step, AckRegistry.registerAckReceived]
  cases hws : s.registry.waitingAcks.get? crc with
  | none =>
    rw [hws] at hmem
    exact absurd hmem List.not_mem_nil
  | some ws =>
    rw [hws] at hmem
    exact getElem?_foldl_set hlt (.inl hmem)

theorem live_or_set_step (hr : Refines s h) {i crc : ℕ} {a : AckAction} (ha : a ≠ .exit i)
    (hi : h.Live i crc) :
    (h.step a).Live i crc ∨ (s.step a).registry.events[i]? = some true := by
  rw [← AckHistory.mem_liveOn] at hi ⊢
  cases a with
  | expectAck crc' =>
    left
    rw [h.liveOn_expectAck]
    exact List.mem_append_left _ hi
  | ackReceived crc' ts =>
    by_cases hc : crc = crc'
    · subst hc
      exact .inr (events_ackReceived hr (AckHistory.mem_liveOn.mp hi) ts)
    · left
      rw [h.liveOn_ackReceived, if_neg hc]
      exact hi
  | prune now => exact .inl hi
  | exit j =>
    have hij : i ≠ j := fun hij => ha (hij ▸ rfl)
    left
    rw [h.liveOn_exit]
    exact (List.mem_erase_of_ne hij).mpr hi

theorem set_of_ackReceived {i crc : ℕ} {ts : ℚ} {actions : List AckAction} (hr : Refines s h)
    (hi : h.Live i crc ∨ s.registry.events[i]? = some true) (hexit : .exit i ∉ actions)
    (hack : .ackReceived crc ts ∈ actions) :
    (actions.foldl step s).registry.events[i]? = some true := by
  have hset : ∀ (as : List AckAction) (t : AckSystem), t.registry.events[i]? = some true →
      (as.foldl step t).registry.events[i]? = some true := by
    intro as
    induction as with
    | nil => exact fun t ht => ht
    | cons a as ih => exact fun t ht => ih _ (events_step a ht)
  induction actions generalizing s h with
  | nil => exact absurd hack List.not_mem_nil
  | cons a as ih =>
    obtain ⟨ha, has⟩ := not_or.mp (mt List.mem_cons.mpr hexit)
    rcases hi with hi | hi
    · rcases List.mem_cons.mp hack with rfl | hack
      · exact hset as _ (events_ackReceived hr hi ts)
      · exact ih (refines_step hr a) (live_or_set_step hr (Ne.symm ha) hi) has hack
    · exact hset as _ (events_step a hi)

/-- The events registered under a CRC. -/
def waitersOn (s : AckSystem) (crc : ℕ) : List ℕ := (s.registry.waitingAcks.get? crc).getD []

/-- After any interleaving the registry holds exactly the waiters that are still waiting. -/
theorem run_registry_exact (actions : List AckAction) :
    (∀ crc, (run actions).registry.waitingAcks.get? crc ≠ some []) ∧
    (∀ crc, (run actions).registry.waitingAcks.contains crc = true ↔
      ∃ i, (AckHistory.ofRun actions).Live i crc) ∧
    (∀ crc ts i, i ∈ (run actions).waitersOn crc →
      ((run actions).step (.ackReceived crc ts)).registry.events[i]? = some true) ∧
    (∀ i j crc, j ≠ i → j ∈ (run actions).waitersOn crc →
      j ∈ ((run actions).step (.exit i)).waitersOn crc) := by
  have hr := refines_run actions
  refine ⟨?_, ?_, ?_, ?_⟩
  · intro crc
    rw [hr.waiting, AckRegistry.entry]
    split <;> simp_all
  · intro crc
    rw [Dict.contains, hr.waiting, AckRegistry.entry]
    simp only [← AckHistory.mem_liveOn]
    split
    · simp_all
    · rename_i hne
      simpa using List.exists_mem_of_ne_nil _ hne
  · intro crc ts i hi
    have hlive : i ∈ (AckHistory.ofRun actions).liveOn crc := waiters_eq hr crc ▸ hi
    exact events_ackReceived hr (AckHistory.mem_liveOn.mp hlive) ts
  · intro i j crc hji hj
    rw [waitersOn, waiters_eq (refines_step hr (.exit i)), AckHistory.liveOn_exit]
    rw [waitersOn, waiters_eq hr] at hj
    exact (List.mem_erase_of_ne hji).mpr hj

theorem run_registry_exact_shared :
    1 ∈ ((run [.expectAck 7, .expectAck 7]).step (.exit 0)).waitersOn 7 ∧
      ((run [.expectAck 7, .expectAck 7]).step (.ackReceived 7 0)).registry.events[1]? =
        some true := by
  obtain ⟨-, -, hack, hexit⟩ := run_registry_exact [.expectAck 7, .expectAck 7]
  have hmem : 1 ∈ (run [.expectAck 7, .expectAck 7]).waitersOn 7 := by decide
  exact ⟨hexit 0 1 7 (by decide) hmem, hack 7 0 1 hmem⟩

end AckSystem

end OpenHop
