import Mathlib.Algebra.Order.Group.Defs
import Mathlib.Data.List.Basic

/-! # Seen tables with a time window

A seen table keeps the last time each key was noted and forgets keys once they are older
than a window. It covers a log of past events when every event is still in the table,
possibly with a later time, or has left the window.
-/

namespace OpenHop.SeenTable

variable {κ T : Type*} [AddCommGroup T] [LinearOrder T]

/-- The event of key `k` at time `t` is remembered by the table or has left the window. -/
def Covered (window now : T) (table : κ → Option T) (k : κ) (t : T) : Prop :=
  (∃ seen, table k = some seen ∧ t ≤ seen) ∨ t + window < now

variable {window now later t : T} {table table' : κ → Option T} {k : κ}

theorem Covered.mono_now (h : Covered window now table k t) (hle : now ≤ later) :
    Covered window later table k t :=
  h.imp_right fun hlt => hlt.trans_le hle

theorem Covered.of_table (h : Covered window now table k t) (hk : table' k = table k) :
    Covered window now table' k t := by
  rcases h with ⟨seen, hs, hle⟩ | hlt
  · exact .inl ⟨seen, hk.trans hs, hle⟩
  · exact .inr hlt

theorem Covered.of_noted (hk : table' k = some later) (hle : t ≤ later) :
    Covered window now table' k t :=
  .inl ⟨later, hk, hle⟩

/-- The table differs from the full record only by entries that have left the window. -/
def Forgets (window now : T) (full table : κ → Option T) : Prop :=
  ∀ k, table k = full k ∨ table k = none ∧ ∃ seen, full k = some seen ∧ window < now - seen

variable {full : κ → Option T}

theorem forgets_refl (window now : T) (full : κ → Option T) : Forgets window now full full :=
  fun _ => Or.inl rfl

theorem Forgets.note [DecidableEq κ] (h : Forgets window now full table) (k : κ) (t : T) :
    Forgets window now (Function.update full k (some t)) (Function.update table k (some t)) := by
  intro j
  by_cases hj : j = k
  · subst hj
    exact Or.inl (by simp)
  · simpa only [Function.update_of_ne hj] using h j

theorem Forgets.trans (h : Forgets window now full table) (h' : Forgets window now table table') :
    Forgets window now full table' := by
  intro k
  rcases h' k with heq | ⟨hnone, seen, hseen, hold⟩
  · rw [heq]
    exact h k
  · rcases h k with heq | ⟨hgone, -⟩
    · exact Or.inr ⟨hnone, seen, heq ▸ hseen, hold⟩
    · cases hgone.symm.trans hseen

/-- What was forgotten is not missed by a lookup that only reports what is inside the window. -/
theorem Forgets.recent_iff (h : Forgets window now full table) (k : κ) :
    (∃ seen, table k = some seen ∧ now - seen < window) ↔
      ∃ seen, full k = some seen ∧ now - seen < window := by
  rcases h k with heq | ⟨hnone, seen, hseen, hold⟩
  · rw [heq]
  · constructor
    · rintro ⟨u, hu, -⟩
      cases hnone.symm.trans hu
    · rintro ⟨u, hu, hrecent⟩
      obtain rfl : seen = u := Option.some.inj (hseen.symm.trans hu)
      exact absurd hold hrecent.not_gt

variable [IsOrderedAddMonoid T]

theorem Forgets.mono_now (h : Forgets window now full table) (hle : now ≤ later) :
    Forgets window later full table := by
  intro k
  rcases h k with heq | ⟨hnone, seen, hseen, hold⟩
  · exact Or.inl heq
  · exact Or.inr ⟨hnone, seen, hseen, hold.trans_le (sub_le_sub_right hle seen)⟩

theorem Covered.of_expired (h : Covered window now table k t)
    (hk : table' k = table k ∨ ∃ seen, table k = some seen ∧ window < now - seen) :
    Covered window now table' k t := by
  rcases hk with hk | ⟨seen, hs, hold⟩
  · exact h.of_table hk
  · rcases h with ⟨seen', hs', hle⟩ | hlt
    · obtain rfl : seen = seen' := Option.some.inj (hs.symm.trans hs')
      refine .inr ((add_le_add_left hle window).trans_lt ?_)
      rw [add_comm]
      exact lt_sub_iff_add_lt.mp hold
    · exact .inr hlt

theorem Covered.add_window_le (h : Covered window now table k t)
    (hfresh : ∀ seen, table k = some seen → window ≤ now - seen) : t + window ≤ now := by
  rcases h with ⟨seen, hs, hle⟩ | hlt
  · refine (add_le_add_left hle window).trans ?_
    rw [add_comm]
    exact le_sub_iff_add_le.mp (hfresh seen hs)
  · exact hlt.le

end OpenHop.SeenTable
