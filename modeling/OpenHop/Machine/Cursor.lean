import Mathlib.Data.List.Basic

/-! # A position in a list that changes

A loop over a list reads the entry at its position and moves on by one, while entries
are appended and removed behind its back. The distance from the position to an entry only
ever shrinks, and a removal in front of the entry takes one off it without the entry having
been read.
-/

namespace OpenHop.Machine

variable {α : Type*} [DecidableEq α] {a b : α} {xs : List α} {i : ℕ}

/-- The position is behind the first `a`. -/
def Passed (xs : List α) (i : ℕ) (a : α) : Prop := xs.idxOf a < i

theorem idxOf_erase (ha : a ∈ xs) (hb : b ≠ a) :
    (xs.erase b).idxOf a =
      if xs.idxOf b < xs.idxOf a then xs.idxOf a - 1 else xs.idxOf a := by
  induction xs with
  | nil => cases ha
  | cons x xs ih =>
    by_cases hxb : x = b
    · subst hxb
      simp [List.idxOf_cons_ne _ hb]
    by_cases hxa : x = a
    · subst hxa
      simp [hxb]
    have hmem : a ∈ xs := (List.mem_cons.mp ha).resolve_left (Ne.symm hxa)
    have hlt : xs.idxOf b < xs.idxOf a → 0 < xs.idxOf a := fun h => by omega
    rw [List.erase_cons_tail (by simpa using hxb), List.idxOf_cons_ne _ hxa,
      List.idxOf_cons_ne _ hxa, List.idxOf_cons_ne _ hxb, ih hmem]
    simp only [Nat.succ_lt_succ_iff]
    split <;> omega

theorem passed_append (ha : a ∈ xs) (ys : List α) : Passed (xs ++ ys) i a ↔ Passed xs i a := by
  rw [Passed, Passed, List.idxOf_append_of_mem ha]

/-- A removal moves the position past an entry if the entry was the next one and the removed one
stood in front of it. -/
theorem passed_erase (ha : a ∈ xs) (hb : b ≠ a) :
    Passed (xs.erase b) i a ↔ Passed xs i a ∨ xs.idxOf a = i ∧ b ∈ xs.take i := by
  rw [Passed, Passed, idxOf_erase ha hb]
  by_cases hmem : b ∈ xs
  · rw [List.mem_take_iff_idxOf_lt hmem]
    split <;> omega
  · have hlen : xs.idxOf a < xs.length := List.idxOf_lt_length_of_mem ha
    have hnot : b ∉ xs.take i := fun h => hmem (List.mem_of_mem_take h)
    rw [if_neg (by rw [List.idxOf_of_notMem hmem]; omega)]
    simp [hnot]

/-- An entry is appended, or the first of its kind is removed. -/
inductive Edit (α : Type*) where
  | append (x : α)
  | remove (x : α)

def Edit.apply (xs : List α) : Edit α → List α
  | .append x => xs ++ [x]
  | .remove x => xs.erase x

def Edit.Overtakes (xs : List α) (i : ℕ) (a : α) : Edit α → Prop
  | .append _ => False
  | .remove b => xs.idxOf a = i ∧ b ∈ xs.take i

/-- An edit that leaves an entry alone moves the position past it exactly if it overtakes it. -/
theorem passed_apply_iff (h : xs.count a = 1) {e : Edit α} (h' : (e.apply xs).count a = 1) :
    Passed (e.apply xs) i a ↔ Passed xs i a ∨ e.Overtakes xs i a := by
  have ha : a ∈ xs := List.count_pos_iff.mp (by omega)
  cases e with
  | append x => exact (passed_append ha [x]).trans (or_false _).symm.to_iff
  | remove x =>
    refine passed_erase ha ?_
    rintro rfl
    rw [Edit.apply, List.count_erase_self] at h'
    omega

theorem getElem?_eq_some_iff_of_count (h : xs.count a = 1) :
    xs[i]? = some a ↔ i = xs.idxOf a := by
  induction xs generalizing i with
  | nil => simp at h
  | cons x xs ih =>
    by_cases hx : x = a
    · subst hx
      have hnot : x ∉ xs := by simpa [List.count_eq_zero] using h
      cases i with
      | zero => simp
      | succ i => simpa using fun hget => hnot (List.mem_of_getElem? hget)
    · rw [List.count_cons_of_ne hx] at h
      rw [List.idxOf_cons_ne _ hx]
      cases i with
      | zero => simpa using hx
      | succ i => simpa using ih h

theorem not_passed_of_getElem? (h : xs.count a = 1) (hread : xs[i]? = some a) :
    ¬ Passed xs i a := by
  rw [Passed, ← (getElem?_eq_some_iff_of_count h).mp hread]
  exact Nat.lt_irrefl i

theorem passed_succ_iff (h : xs.count a = 1) (hread : xs[i]? = some b) :
    Passed xs (i + 1) a ↔ Passed xs i a ∨ b = a := by
  have heq : b = a ↔ i = xs.idxOf a := by
    rw [← getElem?_eq_some_iff_of_count h, hread, Option.some.injEq]
  rw [heq, Passed, Passed]
  omega

theorem passed_of_getElem?_eq_none (ha : a ∈ xs) (hread : xs[i]? = none) : Passed xs i a :=
  Nat.lt_of_lt_of_le (List.idxOf_lt_length_of_mem ha) (List.getElem?_eq_none_iff.mp hread)

end OpenHop.Machine
