import Mathlib.Data.List.MinMax

/-! # The first least element of a kind

A scan that keeps an element until it meets a smaller one finds the first of the
least elements. Where only elements of some kind count, this is `List.argmin` on
the rest of the list.
-/

namespace OpenHop

variable {α β : Type*} [LinearOrder β] {f : α → β} {p : α → Bool} {l : List α} {x : α}

/-- Of the elements that satisfy `p`, `x` is the first with the least value of `f`. -/
def FirstMin (f : α → β) (p : α → Bool) (l : List α) (x : α) : Prop :=
  ∃ a b, l = a ++ x :: b ∧ p x = true ∧ (∀ y ∈ a, p y = true → f x < f y) ∧
    ∀ y ∈ b, p y = true → f x ≤ f y

theorem FirstMin.mem (h : FirstMin f p l x) : x ∈ l ∧ p x = true := by
  obtain ⟨a, b, rfl, hx, -, -⟩ := h
  exact ⟨List.mem_append_right a List.mem_cons_self, hx⟩

theorem argmin_filter_concat (f : α → β) (p : α → Bool) (l : List α) (x : α) :
    ((l ++ [x]).filter p).argmin f =
      if p x = true ∧ ∀ y ∈ (l.filter p).argmin f, f x < f y then some x
      else (l.filter p).argmin f := by
  rw [List.filter_append]
  by_cases hx : p x = true
  · rw [List.filter_cons_of_pos hx, List.filter_nil, List.argmin_concat]
    cases (l.filter p).argmin f with
    | none => simp [hx]
    | some y => simp [hx]
  · rw [List.filter_cons_of_neg hx, List.filter_nil, List.append_nil, if_neg]
    exact fun h => hx h.1

theorem firstMin_of_argmin (h : (l.filter p).argmin f = some x) : FirstMin f p l x := by
  induction l using List.reverseRecOn generalizing x with
  | nil => cases h
  | append_singleton l y ih =>
    rw [argmin_filter_concat] at h
    split at h
    · rename_i hy
      cases h
      refine ⟨l, [], rfl, hy.1, ?_, by simp⟩
      intro z hz hpz
      have hmem : z ∈ l.filter p := List.mem_filter.mpr ⟨hz, hpz⟩
      cases hm : (l.filter p).argmin f with
      | none => exact absurd (List.argmin_eq_none.mp hm) (List.ne_nil_of_mem hmem)
      | some m => exact (hy.2 m hm).trans_le (List.le_of_mem_argmin hmem hm)
    · rename_i hy
      obtain ⟨a, b, rfl, hx, ha, hb⟩ := ih h
      refine ⟨a, b ++ [y], by simp, hx, ha, ?_⟩
      intro z hz hpz
      rcases List.mem_append.mp hz with hz | hz
      · exact hb z hz hpz
      · rw [List.mem_singleton.mp hz] at hpz ⊢
        by_contra hlt
        exact hy ⟨hpz, fun m hm => by cases h.symm.trans hm; exact not_le.mp hlt⟩

theorem argmin_filter_eq_none : (l.filter p).argmin f = none ↔ ∀ y ∈ l, p y = false := by
  rw [List.argmin_eq_none, List.filter_eq_nil_iff]
  simp

end OpenHop
