import Mathlib.Data.Nat.Basic

/-! # Loops with fuel

A round of a loop goes on with a new state or leaves with a result. An invariant that bounds
the number of the round makes the loop end, whatever the rounds do otherwise.
-/

namespace OpenHop.Machine

variable {σ ρ : Type*}

/-- What a round comes to. -/
inductive Round (σ ρ : Type*) where
  | goOn (s : σ)
  | leave (r : ρ)

/-- The rounds from the `k`-th on, each of which may do something else. -/
def loop (body : ℕ → σ → Round σ ρ) : (fuel k : ℕ) → σ → Option ρ
  | 0, _, _ => none
  | fuel + 1, k, s =>
    match body k s with
    | .goOn t => loop body fuel (k + 1) t
    | .leave r => some r

variable {body : ℕ → σ → Round σ ρ} {k : ℕ} {s : σ}

/-- A loop whose invariant allows no round after the `n`-th ends, and what every way out
establishes holds of its result. -/
theorem exists_loop_eq_some {I : ℕ → σ → Prop} {P : ρ → Prop} {n : ℕ}
    (hbound : ∀ k s, I k s → k ≤ n) (hgo : ∀ k s t, I k s → body k s = .goOn t → I (k + 1) t)
    (hleave : ∀ k s r, I k s → body k s = .leave r → P r) (hs : I k s) :
    ∃ r, (∀ fuel, n < k + fuel → loop body fuel k s = some r) ∧ P r := by
  have hk := hbound k s hs
  induction hleft : n + 1 - k generalizing k s with
  | zero => omega
  | succ left ih =>
    cases hround : body k s with
    | goOn t =>
      have ht := hgo k s t hs hround
      obtain ⟨r, hr, hP⟩ := ih ht (hbound (k + 1) t ht) (by omega)
      refine ⟨r, fun fuel hfuel => ?_, hP⟩
      obtain ⟨fuel, rfl⟩ : ∃ m, fuel = m + 1 := ⟨fuel - 1, by omega⟩
      simp only [loop, hround]
      exact hr fuel (by omega)
    | leave r =>
      refine ⟨r, fun fuel hfuel => ?_, hleave k s r hs hround⟩
      obtain ⟨fuel, rfl⟩ : ∃ m, fuel = m + 1 := ⟨fuel - 1, by omega⟩
      simp only [loop, hround]

end OpenHop.Machine
