import Mathlib.Data.List.Nodup
import Mathlib.Logic.Relation

/-! # Exchanges without names

Calls are made one at a time, each with one request. Requests are answered in the order in
which they are received, and an answer does not say which request it is for: it is put into
a slot, from which the call in progress takes its result, if it fits what the call asks for.
-/

namespace OpenHop.Machine

/-- `holder` is the call in progress and `onWay` are the requests not received yet. The lists are in
the order of the events. -/
structure Exchange (ρ : Type*) where
  calls : ℕ := 0
  holder : Option ℕ := none
  onWay : List ℕ := []
  outstanding : List ℕ := []
  slot : Option ρ := none
  received : List ℕ := []
  answered : List (ℕ × ρ) := []
  returned : List (ℕ × Option ρ) := []

namespace Exchange

variable {ρ : Type*} {fits : ℕ → ρ → Prop} {e e' : Exchange ρ}

/-- `fits i r` says that the answer is one that the call asks for. -/
inductive Step (fits : ℕ → ρ → Prop) : Exchange ρ → Exchange ρ → Prop
  | start {e : Exchange ρ} (hfree : e.holder = none) :
      Step fits e { e with
        calls := e.calls + 1, holder := some e.calls, onWay := e.onWay ++ [e.calls], slot := none }
  /-- A call returns at once, without a request. -/
  | refuse {e : Exchange ρ} :
      Step fits e { e with calls := e.calls + 1, returned := e.returned ++ [(e.calls, none)] }
  | lose {e : Exchange ρ} {left : List ℕ} (hleft : left.Sublist e.onWay) :
      Step fits e { e with onWay := left }
  /-- The next request is received, perhaps after its call has returned. -/
  | receive {e : Exchange ρ} {i : ℕ} {rest : List ℕ} (hnext : e.onWay = i :: rest) :
      Step fits e { e with
        onWay := rest, outstanding := e.outstanding ++ [i], received := e.received ++ [i] }
  /-- The answer to the oldest request reaches the slot or is lost. -/
  | answer {e : Exchange ρ} {i : ℕ} {rest : List ℕ} {r : ρ} {s : Option ρ}
      (holdest : e.outstanding = i :: rest)
      (hslot : s = e.slot ∨ s = some r ∧ ∀ j, e.holder = some j → fits j r) :
      Step fits e { e with outstanding := rest, answered := e.answered ++ [(i, r)], slot := s }
  /-- The call takes what is in the slot, or gives up. -/
  | finish {e : Exchange ρ} {i : ℕ} {v : Option ρ} (hholder : e.holder = some i)
      (hv : v = none ∨ v = e.slot) :
      Step fits e { e with holder := none, returned := e.returned ++ [(i, v)] }

def Reachable (fits : ℕ → ρ → Prop) (e : Exchange ρ) : Prop :=
  Relation.ReflTransGen (Step fits) {} e

theorem steps_giveUp {i : ℕ} (left : List ℕ) (hholder : e.holder = some i)
    (hleft : left.Sublist e.onWay) :
    Relation.ReflTransGen (Step fits) e
      { e with holder := none, onWay := left, returned := e.returned ++ [(i, none)] } :=
  .tail (.single (.lose hleft)) (.finish hholder (Or.inl rfl))

/-- An answer to a call that has returned without a result fits no other call. -/
def Kept (fits : ℕ → ρ → Prop) (e : Exchange ρ) : Prop :=
  ∀ i r, (i, none) ∈ e.returned → (i, r) ∈ e.answered → ∀ j ≠ i, ¬ fits j r

theorem Kept.anti (hk : e'.Kept fits) (hanswered : e.answered ⊆ e'.answered)
    (hreturned : e.returned ⊆ e'.returned) : e.Kept fits :=
  fun i r hi hr => hk i r (hreturned hi) (hanswered hr)

theorem Kept.of_step (h : Step fits e e') (hk : e'.Kept fits) : e.Kept fits := by
  refine hk.anti ?_ ?_ <;> cases h <;>
    first | exact List.Subset.refl _ | exact List.subset_append_left _ _

/-- What holds while no answer goes astray. -/
structure Sound (e : Exchange ρ) : Prop where
  own : ∀ i r, (i, some r) ∈ e.returned → (i, r) ∈ e.answered
  slot : ∀ i r, e.holder = some i → e.slot = some r → (i, r) ∈ e.answered
  /-- A request that waits for its answer is that of the call in progress or of one that has given
  up. -/
  flight : ∀ i ∈ e.outstanding, e.holder = some i ∨ (i, none) ∈ e.returned
  unanswered : ∀ i ∈ e.outstanding, ∀ r, (i, r) ∉ e.answered
  queued : e.outstanding.Sublist e.received
  known : ∀ i r, (i, r) ∈ e.answered → i ∈ e.received
  done : ∀ i < e.calls, e.holder ≠ some i → ∃ v, (i, v) ∈ e.returned
  fresh : ∀ i ∈ e.received ++ e.onWay, i < e.calls
  once : (e.received ++ e.onWay).Nodup

namespace Sound

theorem start (hs : e.Sound) (hfree : e.holder = none) :
    Sound { e with
      calls := e.calls + 1, holder := some e.calls, onWay := e.onWay ++ [e.calls],
      slot := none } where
  own := hs.own
  slot _ _ _ := nofun
  flight i hi := by
    rcases hs.flight i hi with h | h
    · rw [hfree] at h
      cases h
    · exact Or.inr h
  unanswered := hs.unanswered
  queued := hs.queued
  known := hs.known
  done i hi hne := by
    have hlt : i < e.calls := by
      refine Nat.lt_of_le_of_ne (Nat.le_of_lt_succ hi) ?_
      rintro rfl
      exact hne rfl
    exact hs.done i hlt (by rw [hfree]; exact nofun)
  fresh i hi := by
    dsimp only at hi
    rw [← List.append_assoc, List.mem_append, List.mem_singleton] at hi
    rcases hi with hi | rfl
    · exact Nat.lt_succ_of_lt (hs.fresh i hi)
    · exact Nat.lt_succ_self _
  once := by
    dsimp only
    rw [← List.append_assoc]
    refine List.Nodup.append hs.once (List.nodup_singleton _) ?_
    rw [List.disjoint_singleton]
    exact fun hmem => Nat.lt_irrefl _ (hs.fresh _ hmem)

theorem refuse (hs : e.Sound) :
    Sound { e with calls := e.calls + 1, returned := e.returned ++ [(e.calls, none)] } where
  own i r hi := by
    rcases List.mem_append.mp hi with hi | hi
    · exact hs.own i r hi
    · cases List.mem_singleton.mp hi
  slot := hs.slot
  flight i hi := (hs.flight i hi).imp_right (List.mem_append_left _)
  unanswered := hs.unanswered
  queued := hs.queued
  known := hs.known
  done i hi hne := by
    by_cases hic : i = e.calls
    · subst hic
      exact ⟨none, List.mem_append_right _ (List.mem_singleton_self _)⟩
    · obtain ⟨v, hv⟩ := hs.done i (Nat.lt_of_le_of_ne (Nat.le_of_lt_succ hi) hic) hne
      exact ⟨v, List.mem_append_left _ hv⟩
  fresh i hi := Nat.lt_succ_of_lt (hs.fresh i hi)
  once := hs.once

theorem lose (hs : e.Sound) {left : List ℕ} (hleft : left.Sublist e.onWay) :
    Sound { e with onWay := left } where
  own := hs.own
  slot := hs.slot
  flight := hs.flight
  unanswered := hs.unanswered
  queued := hs.queued
  known := hs.known
  done := hs.done
  fresh i hi := hs.fresh i ((hleft.append_left e.received).subset hi)
  once := hs.once.sublist (hleft.append_left e.received)

theorem notMem_received (hs : e.Sound) {i : ℕ} {rest : List ℕ} (hnext : e.onWay = i :: rest) :
    i ∉ e.received := by
  intro hi
  exact List.disjoint_of_nodup_append hs.once hi (hnext ▸ List.mem_cons_self)

/-- A request that is received is that of the call in progress, or its call has given up. -/
theorem flight_of_receive (hs : e.Sound) {i : ℕ} {rest : List ℕ} (hnext : e.onWay = i :: rest) :
    e.holder = some i ∨ (i, none) ∈ e.returned := by
  have hcall : i < e.calls := by
    refine hs.fresh i (List.mem_append_right _ ?_)
    rw [hnext]
    exact List.mem_cons_self
  by_cases hholder : e.holder = some i
  · exact Or.inl hholder
  · obtain ⟨v, hv⟩ := hs.done i hcall hholder
    cases v with
    | none => exact Or.inr hv
    | some r => exact absurd (hs.known i r (hs.own i r hv)) (hs.notMem_received hnext)

theorem receive (hs : e.Sound) {i : ℕ} {rest : List ℕ} (hnext : e.onWay = i :: rest) :
    Sound { e with
      onWay := rest, outstanding := e.outstanding ++ [i], received := e.received ++ [i] } := by
  have hnew := hs.notMem_received hnext
  have hsame : e.received ++ [i] ++ rest = e.received ++ e.onWay := by
    rw [hnext, List.append_assoc, List.singleton_append]
  refine ⟨hs.own, hs.slot, fun j hj => ?_, fun j hj => ?_, hs.queued.append_right [i], ?_, hs.done,
    ?_, ?_⟩
  · rcases List.mem_append.mp hj with hj | hj
    · exact hs.flight j hj
    · cases List.mem_singleton.mp hj
      exact hs.flight_of_receive hnext
  · rcases List.mem_append.mp hj with hj | hj
    · exact hs.unanswered j hj
    · cases List.mem_singleton.mp hj
      exact fun r hr => hnew (hs.known i r hr)
  · exact fun j r hj => List.mem_append_left _ (hs.known j r hj)
  · rw [hsame]
    exact hs.fresh
  · rw [hsame]
    exact hs.once

/-- An answer that reaches the slot is that to the call in progress. -/
theorem holder_of_answer (hs : e.Sound) {i j : ℕ} {rest : List ℕ} {r : ρ} {s : Option ρ}
    (holdest : e.outstanding = i :: rest) (hholder : e.holder = some j)
    (hfits : fits j r)
    (hk : Kept fits
      { e with outstanding := rest, answered := e.answered ++ [(i, r)], slot := s }) : j = i := by
  by_contra hne
  rcases hs.flight i (holdest ▸ List.mem_cons_self) with h | h
  · exact hne (Option.some.inj (hholder.symm.trans h))
  · exact hk i r h (List.mem_append_right _ (List.mem_singleton_self _)) j hne hfits

theorem answer (hs : e.Sound) {i : ℕ} {rest : List ℕ} {r : ρ} {s : Option ρ}
    (holdest : e.outstanding = i :: rest)
    (hslot : s = e.slot ∨ s = some r ∧ ∀ j, e.holder = some j → fits j r)
    (hk : Kept fits
      { e with outstanding := rest, answered := e.answered ++ [(i, r)], slot := s }) :
    Sound { e with outstanding := rest, answered := e.answered ++ [(i, r)], slot := s } := by
  have hrest : ∀ j ∈ rest, j ∈ e.outstanding := fun j hj => holdest ▸ List.mem_cons_of_mem i hj
  have hnotMem : i ∉ rest := by
    have hnodup := (List.Nodup.of_append_left hs.once).sublist hs.queued
    rw [holdest] at hnodup
    exact (List.nodup_cons.mp hnodup).1
  refine ⟨fun j q hj => List.mem_append_left _ (hs.own j q hj), ?_,
    fun j hj => hs.flight j (hrest j hj), ?_, ?_, ?_, hs.done, hs.fresh, hs.once⟩
  · intro j q hj hq
    dsimp only at hq
    rcases hslot with rfl | ⟨rfl, hfits⟩
    · exact List.mem_append_left _ (hs.slot j q hj hq)
    · cases hq
      obtain rfl := hs.holder_of_answer holdest hj (hfits j hj) hk
      exact List.mem_append_right _ (List.mem_singleton_self _)
  · intro j hj q hq
    rcases List.mem_append.mp hq with hq | hq
    · exact hs.unanswered j (hrest j hj) q hq
    · cases List.mem_singleton.mp hq
      exact hnotMem hj
  · have hqueued := hs.queued
    rw [holdest] at hqueued
    exact (List.sublist_cons_self i rest).trans hqueued
  · intro j q hj
    rcases List.mem_append.mp hj with hj | hj
    · exact hs.known j q hj
    · cases List.mem_singleton.mp hj
      exact hs.queued.subset (holdest ▸ List.mem_cons_self)

theorem finish (hs : e.Sound) {i : ℕ} {v : Option ρ} (hholder : e.holder = some i)
    (hv : v = none ∨ v = e.slot) :
    Sound { e with holder := none, returned := e.returned ++ [(i, v)] } where
  own j r hj := by
    rcases List.mem_append.mp hj with hj | hj
    · exact hs.own j r hj
    · cases List.mem_singleton.mp hj
      rcases hv with hv | hv
      · cases hv
      · exact hs.slot i r hholder hv.symm
  slot _ _ := nofun
  flight j hj := by
    refine Or.inr ?_
    rcases hs.flight j hj with h | h
    · obtain rfl : i = j := Option.some.inj (hholder.symm.trans h)
      have hnone : v = none := by
        rcases hv with rfl | rfl
        · rfl
        · exact Option.eq_none_iff_forall_ne_some.mpr fun r hr =>
            hs.unanswered i hj r (hs.slot i r hholder hr)
      rw [hnone]
      exact List.mem_append_right _ (List.mem_singleton_self _)
    · exact List.mem_append_left _ h
  unanswered := hs.unanswered
  queued := hs.queued
  known := hs.known
  done j hj _ := by
    by_cases hji : e.holder = some j
    · obtain rfl : i = j := Option.some.inj (hholder.symm.trans hji)
      exact ⟨v, List.mem_append_right _ (List.mem_singleton_self _)⟩
    · obtain ⟨w, hw⟩ := hs.done j hj hji
      exact ⟨w, List.mem_append_left _ hw⟩
  fresh := hs.fresh
  once := hs.once

theorem step (hs : e.Sound) (h : Step fits e e') (hk : e'.Kept fits) : e'.Sound := by
  cases h with
  | start hfree => exact hs.start hfree
  | refuse => exact hs.refuse
  | lose hleft => exact hs.lose hleft
  | receive hnext => exact hs.receive hnext
  | answer holdest hslot => exact hs.answer holdest hslot hk
  | finish hholder hv => exact hs.finish hholder hv

end Sound

theorem Reachable.sound (h : e.Reachable fits) (hk : e.Kept fits) : e.Sound := by
  induction h with
  | refl =>
    exact ⟨nofun, nofun, nofun, nofun, .slnil, nofun, nofun, nofun, List.nodup_nil⟩
  | tail _ hstep ih => exact (ih (hk.of_step hstep)).step hstep hk

/-- The answer did not reach its call, which waits in vain or has given up. -/
def Lost (e : Exchange ρ) (r : ρ) : Prop :=
  ∃ i, (i, r) ∈ e.answered ∧ (e.holder = some i ∧ e.slot = none ∨ (i, none) ∈ e.returned)

theorem Sound.lost_of_answer (hs : e.Sound) {i : ℕ} {rest : List ℕ} {r : ρ}
    (holdest : e.outstanding = i :: rest) :
    Lost { e with outstanding := rest, answered := e.answered ++ [(i, r)] } r := by
  have hi : i ∈ e.outstanding := holdest ▸ List.mem_cons_self
  refine ⟨i, List.mem_append_right _ (List.mem_singleton_self _), ?_⟩
  refine (hs.flight i hi).imp_left fun hholder => ⟨hholder, ?_⟩
  exact Option.eq_none_iff_forall_ne_some.mpr fun q hq =>
    hs.unanswered i hi q (hs.slot i q hholder hq)

theorem Lost.step {r : ρ} (hl : e.Lost r) (hs : e.Sound) (h : Step fits e e')
    (hk : e'.Kept fits) : e'.Lost r := by
  obtain ⟨i, hanswered, hend⟩ := hl
  cases h with
  | start hfree =>
    refine ⟨i, hanswered, Or.inr (hend.resolve_left ?_)⟩
    rw [hfree]
    exact fun h => nomatch h.1
  | refuse => exact ⟨i, hanswered, hend.imp_right (List.mem_append_left _)⟩
  | lose hleft => exact ⟨i, hanswered, hend⟩
  | receive hnext => exact ⟨i, hanswered, hend⟩
  | @answer j rest q s holdest hslot =>
    refine ⟨i, List.mem_append_left _ hanswered, hend.imp_left fun ⟨hholder, hnone⟩ => ?_⟩
    refine ⟨hholder, ?_⟩
    rcases hslot with rfl | ⟨rfl, hfits⟩
    · exact hnone
    · obtain rfl := hs.holder_of_answer holdest hholder (hfits i hholder) hk
      exact absurd hanswered (hs.unanswered i (holdest ▸ List.mem_cons_self) r)
  | @finish j v hholder hv =>
    refine ⟨i, hanswered, Or.inr ?_⟩
    rcases hend with ⟨hi, hnone⟩ | hgone
    · obtain rfl : j = i := Option.some.inj (hholder.symm.trans hi)
      obtain rfl : v = none := hv.elim id fun h => h.trans hnone
      exact List.mem_append_right _ (List.mem_singleton_self _)
    · exact List.mem_append_left _ hgone

theorem Kept.of_steps (h : Relation.ReflTransGen (Step fits) e e') (hk : e'.Kept fits) :
    e.Kept fits := by
  induction h with
  | refl => exact hk
  | tail _ hstep ih => exact ih (hk.of_step hstep)

theorem Lost.steps {r : ρ} (hl : e.Lost r) (hr : e.Reachable fits)
    (h : Relation.ReflTransGen (Step fits) e e') (hk : e'.Kept fits) : e'.Lost r := by
  induction h with
  | refl => exact hl
  | tail hsteps hstep ih =>
    have hmid := hk.of_step hstep
    have hsound : Sound _ := Reachable.sound (Relation.ReflTransGen.trans hr hsteps) hmid
    exact (ih hmid).step hsound hstep hk

end Exchange

end OpenHop.Machine
