import Mathlib.Algebra.Order.Field.Basic
import Mathlib.Data.List.Infix
import Mathlib.Data.List.Pairwise
import Mathlib.Tactic.Linarith

/-! # Windows of one length

Windows of one length that open one after another, none before the last has run
out. Where each of them holds few marks, any few of them hold few, and so does any
stretch of time that is no longer than a window, since it meets two windows at most.
-/

namespace OpenHop.Windows

section Count

variable {α : Type*} {p q : α → Prop} [DecidablePred p] [DecidablePred q]

theorem countP_or_le (l : List α) :
    l.countP (fun x => p x ∨ q x) ≤ l.countP (fun x => p x) + l.countP (fun x => q x) := by
  induction l with
  | nil => simp
  | cons x l ih =>
    simp only [List.countP_cons, decide_eq_true_eq]
    split_ifs <;> first | omega | tauto

end Count

variable {K : Type*} [Field K] [LinearOrder K]

/-- The time `t` is in the window of length `s` that opens at `w`. -/
def Inside (s w t : K) : Prop := w ≤ t ∧ t < w + s

instance (s w t : K) : Decidable (Inside s w t) := inferInstanceAs (Decidable (_ ∧ _))

def Spaced (s : K) (ws : List K) : Prop := ws.Pairwise fun w w' => w + s ≤ w'

variable {s a : K} {ws ts : List K} {m : ℕ}

theorem countP_exists_inside_le (h : ∀ w ∈ ws, ts.countP (Inside s w ·) ≤ m) :
    ts.countP (fun t => ∃ w ∈ ws, Inside s w t) ≤ ws.length * m := by
  induction ws with
  | nil => simp
  | cons w ws ih =>
    have hrest := ih fun w' hw' => h w' (List.mem_cons_of_mem w hw')
    have hfirst := h w List.mem_cons_self
    have hsplit : ts.countP (fun t => ∃ v ∈ w :: ws, Inside s v t) ≤
        ts.countP (Inside s w ·) + ts.countP (fun t => ∃ v ∈ ws, Inside s v t) := by
      simp only [List.mem_cons, exists_eq_or_imp]
      exact countP_or_le ts
    rw [List.length_cons, Nat.succ_mul]
    omega

variable [IsStrictOrderedRing K]

theorem length_filter_meets_le (hws : Spaced s ws) :
    (ws.filter fun w => a < w + s ∧ w < a + s).length ≤ 2 := by
  have hspaced : Spaced s (ws.filter fun w => a < w + s ∧ w < a + s) := hws.filter _
  have hmeets : ∀ w ∈ ws.filter fun w => a < w + s ∧ w < a + s, a < w + s ∧ w < a + s := by
    intro w hw
    simpa using List.of_mem_filter hw
  generalize ws.filter (fun w => a < w + s ∧ w < a + s) = near at hspaced hmeets ⊢
  match near with
  | [] | [_] | [_, _] => simp
  | w₁ :: w₂ :: w₃ :: rest =>
    simp only [Spaced, List.pairwise_cons, List.mem_cons, forall_eq_or_imp] at hspaced
    obtain ⟨⟨h₁₂, -⟩, ⟨h₂₃, -⟩, -⟩ := hspaced
    have h₁ := (hmeets w₁ (by simp)).1
    have h₃ := (hmeets w₃ (by simp)).2
    linarith

/-- Where every mark is in a window and no window holds more than `m`, a stretch as long as a
window holds no more than `2 * m`. -/
theorem countP_inside_le (hws : Spaced s ws) (hts : ∀ t ∈ ts, ∃ w ∈ ws, Inside s w t)
    (h : ∀ w ∈ ws, ts.countP (Inside s w ·) ≤ m) : ts.countP (Inside s a ·) ≤ 2 * m := by
  set near := ws.filter fun w => a < w + s ∧ w < a + s with hnear
  have hsub : ts.countP (Inside s a ·) ≤ ts.countP fun t => ∃ w ∈ near, Inside s w t := by
    apply List.countP_mono_left
    intro t ht hin
    simp only [decide_eq_true_eq] at hin ⊢
    obtain ⟨w, hw, hwt⟩ := hts t ht
    refine ⟨w, List.mem_filter.mpr ⟨hw, ?_⟩, hwt⟩
    have hleft := hin.1.trans_lt hwt.2
    have hright := hwt.1.trans_lt hin.2
    simp [hleft, hright]
  have hcount : ts.countP (fun t => ∃ w ∈ near, Inside s w t) ≤ near.length * m :=
    countP_exists_inside_le fun w hw => h w (List.mem_of_mem_filter hw)
  have hlen : near.length * m ≤ 2 * m := Nat.mul_le_mul_right m (length_filter_meets_le hws)
  exact hsub.trans (hcount.trans hlen)

end OpenHop.Windows
