import Mathlib.Algebra.Order.Field.Basic
import Mathlib.Tactic.Linarith
import Mathlib.Tactic.Ring

/-! # Token buckets

A bucket holds a level, gains `rate` per unit of time up to a cap and is only
brought up to date when somebody looks. What counts is the credit, the level it
would show if it were looked at now: looking changes no later credit, and over
time the credit grows no faster than the rate.
-/

namespace OpenHop.Bucket

variable {K : Type*} [Field K] [LinearOrder K]

/-- The level at time `now` of a bucket that was last brought up to date at time `last`. -/
def credit (rate cap level last now : K) : K := min (level + rate * (now - last)) cap

variable {rate cap level last now later : K}

theorem credit_le_cap : credit rate cap level last now ≤ cap := min_le_right _ _

theorem credit_self (h : level ≤ cap) : credit rate cap level last last = level := by
  simp [credit, h]

variable [IsStrictOrderedRing K]

theorem le_credit (hrate : 0 ≤ rate) (h : level ≤ cap) (hle : last ≤ now) :
    level ≤ credit rate cap level last now := by
  have hgain : 0 ≤ rate * (now - last) := mul_nonneg hrate (sub_nonneg.mpr hle)
  exact le_min (by linarith) h

theorem credit_credit (hrate : 0 ≤ rate) (hle : now ≤ later) :
    credit rate cap (credit rate cap level last now) now later =
      credit rate cap level last later := by
  have hgain : 0 ≤ rate * (later - now) := mul_nonneg hrate (sub_nonneg.mpr hle)
  have hsum : level + rate * (now - last) + rate * (later - now) =
      level + rate * (later - last) := by ring
  have hcap : cap ≤ cap + rate * (later - now) := by linarith
  unfold credit
  rw [min_add, hsum, min_assoc, min_eq_right hcap]

theorem credit_le_add (hrate : 0 ≤ rate) (hle : now ≤ later) :
    credit rate cap level last later ≤ credit rate cap level last now + rate * (later - now) := by
  have hgain : 0 ≤ rate * (later - now) := mul_nonneg hrate (sub_nonneg.mpr hle)
  rw [← credit_credit hrate hle]
  exact min_le_left _ _

end OpenHop.Bucket
