import Mathlib.Data.List.Infix

/-! # Watermarks

A machine accepts values and may lose what it knows of them. If each value it accepts
is beyond every bound its state keeps and becomes a bound itself, then the values
accepted between two losses increase.
-/

namespace OpenHop.Machine

/-- What a step shows of itself. -/
inductive Mark (τ : Type*) where
  | silent
  | accepted (t : τ)
  | lost
  deriving DecidableEq

variable {σ α τ : Type*} (step : σ → α → σ × Mark τ)

/-- The marks of a run, without those of silent steps. -/
def marks : σ → List α → List (Mark τ)
  | _, [] => []
  | s, a :: as =>
    match step s a with
    | (t, .silent) => marks t as
    | (t, m) => m :: marks t as

/-- A relation between states and the values below which they accept nothing. -/
structure Watermark [Preorder τ] (bound : σ → τ → Prop) : Prop where
  silent : ∀ s a b, (step s a).2 = .silent → bound s b → bound (step s a).1 b
  beyond : ∀ s a b t, (step s a).2 = .accepted t → bound s b → b < t
  raised : ∀ s a t, (step s a).2 = .accepted t → bound (step s a).1 t

variable {step} {s : σ} {a : α} {as : List α}

theorem marks_silent (h : (step s a).2 = .silent) :
    marks step s (a :: as) = marks step (step s a).1 as := by
  rw [marks]
  split
  · rename_i hs
    rw [hs]
  · rename_i hm hs
    rw [hs] at h
    exact absurd h hm

theorem marks_cons (h : (step s a).2 ≠ .silent) :
    marks step s (a :: as) = (step s a).2 :: marks step (step s a).1 as := by
  rw [marks]
  split
  · rename_i hs
    rw [hs] at h
    exact absurd rfl h
  · rename_i hs
    rw [hs]

theorem exists_marks_of_isSuffix {l : List (Mark τ)} (h : l <:+ marks step s as) :
    ∃ t bs, l = marks step t bs := by
  induction as generalizing s with
  | nil => exact ⟨s, [], List.suffix_nil.mp h⟩
  | cons a as ih =>
    by_cases hm : (step s a).2 = .silent
    · rw [marks_silent hm] at h
      exact ih h
    · rw [marks_cons hm] at h
      rcases List.suffix_cons_iff.mp h with rfl | h
      · exact ⟨s, a :: as, (marks_cons hm).symm⟩
      · exact ih h

namespace Watermark

variable [Preorder τ] {bound : σ → τ → Prop} {ts : List τ}

/-- The values a run accepts before its first loss increase, from each bound of its first state. -/
theorem increasing_of_isPrefix (w : Watermark step bound)
    (h : ts.map Mark.accepted <+: marks step s as) :
    ts.Pairwise (· < ·) ∧ ∀ b, bound s b → ∀ t ∈ ts, b < t := by
  induction as generalizing s ts with
  | nil =>
    obtain rfl := List.map_eq_nil_iff.mp (List.prefix_nil.mp h)
    exact ⟨List.Pairwise.nil, nofun⟩
  | cons a as ih =>
    cases hm : (step s a).2 with
    | silent =>
      rw [marks_silent hm] at h
      obtain ⟨hts, hbound⟩ := ih h
      exact ⟨hts, fun b hb => hbound b (w.silent s a b hm hb)⟩
    | lost =>
      rw [marks_cons (by rw [hm]; exact nofun), hm] at h
      cases ts with
      | nil => exact ⟨List.Pairwise.nil, nofun⟩
      | cons t ts => cases (List.cons_prefix_cons.mp h).1
    | accepted t =>
      rw [marks_cons (by rw [hm]; exact nofun), hm] at h
      cases ts with
      | nil => exact ⟨List.Pairwise.nil, nofun⟩
      | cons t' ts =>
        obtain ⟨ht, hrest⟩ := List.cons_prefix_cons.mp h
        cases ht
        obtain ⟨hts, hbound⟩ := ih hrest
        have hbeyond : ∀ u ∈ ts, t < u := hbound t (w.raised s a t hm)
        refine ⟨List.pairwise_cons.mpr ⟨hbeyond, hts⟩, ?_⟩
        intro b hb u hu
        have hbt : b < t := w.beyond s a b t hm hb
        rcases List.mem_cons.mp hu with rfl | hu
        · exact hbt
        · exact hbt.trans (hbeyond u hu)

theorem pairwise_of_isInfix (w : Watermark step bound)
    (h : ts.map Mark.accepted <:+: marks step s as) : ts.Pairwise (· < ·) := by
  obtain ⟨l, hfirst, hlast⟩ := List.infix_iff_prefix_suffix.mp h
  obtain ⟨t, bs, rfl⟩ := exists_marks_of_isSuffix hlast
  exact (w.increasing_of_isPrefix hfirst).1

end Watermark

end OpenHop.Machine
