import Mathlib.Data.BitVec

/-! # Shift registers with feedback

A register of `n` bits is fed with a bit string, most significant bit first. Each bit is
added to the top of the register, which is then shifted up by one place, and the feedback
word is added if a one was shifted out.
-/

namespace OpenHop.ShiftRegister

variable {n : ℕ}

def shift (g r : BitVec n) : BitVec n := if r.msb then (r <<< 1) ^^^ g else r <<< 1

def top (n : ℕ) (b : Bool) : BitVec n := if b then BitVec.twoPow n (n - 1) else 0#n

def feedBit (g r : BitVec n) (b : Bool) : BitVec n := shift g (r ^^^ top n b)

def feed (g r : BitVec n) (bits : List Bool) : BitVec n := bits.foldl (feedBit g) r

theorem feed_append (g r : BitVec n) (bits bits' : List Bool) :
    feed g r (bits ++ bits') = feed g (feed g r bits) bits' :=
  List.foldl_append

theorem shift_xor (g a b : BitVec n) : shift g (a ^^^ b) = shift g a ^^^ shift g b := by
  unfold shift
  rw [BitVec.msb_xor, BitVec.shiftLeft_xor_distrib]
  cases a.msb with
  | false =>
    cases b.msb with
    | false => rfl
    | true => exact BitVec.xor_assoc _ _ _
  | true =>
    cases b.msb with
    | false =>
      show (a <<< 1 ^^^ b <<< 1) ^^^ g = (a <<< 1 ^^^ g) ^^^ b <<< 1
      rw [BitVec.xor_assoc, BitVec.xor_comm (b <<< 1), ← BitVec.xor_assoc]
    | true =>
      show a <<< 1 ^^^ b <<< 1 = (a <<< 1 ^^^ g) ^^^ (b <<< 1 ^^^ g)
      rw [BitVec.xor_comm (b <<< 1) g, ← BitVec.xor_assoc, BitVec.xor_assoc (a <<< 1) g g,
        BitVec.xor_self, BitVec.xor_zero]

variable {g : BitVec n}

theorem eq_zero_of_shift {r : BitVec n} (hg : g.getLsbD 0 = true) (h : shift g r = 0#n) :
    r = 0#n := by
  unfold shift at h
  split at h
  · have hlow := congrArg (BitVec.getLsbD · 0) h
    simp [hg] at hlow
  · rename_i hmsb
    apply BitVec.eq_of_getMsbD_eq
    intro i _
    cases i with
    | zero => simpa [BitVec.msb_eq_getMsbD_zero] using hmsb
    | succ i => simpa using congrArg (BitVec.getMsbD · i) h

theorem shift_injective (hg : g.getLsbD 0 = true) : Function.Injective (shift g) := by
  intro a b hab
  have hzero : a ^^^ b = 0#n := eq_zero_of_shift hg (by rw [shift_xor, hab, BitVec.xor_self])
  exact BitVec.xor_eq_zero_iff.mp hzero

theorem feed_injective (hg : g.getLsbD 0 = true) (bits : List Bool) :
    Function.Injective (feed g · bits) := by
  induction bits with
  | nil => exact fun _ _ h => h
  | cons b bits ih =>
    intro r s h
    exact (BitVec.xor_left_inj (top n b)).mp (shift_injective hg (ih h))

def ofBits (n : ℕ) : List Bool → BitVec n
  | [] => 0#n
  | b :: bits => top n b ^^^ (ofBits n bits >>> 1)

theorem getMsbD_top (b : Bool) {i : ℕ} (hi : i < n) :
    (top n b).getMsbD i = (decide (i = 0) && b) := by
  have hlt : n - 1 < n := by omega
  have hlast : n - (n - 1) - 1 = 0 := by omega
  cases b with
  | false => simp [top]
  | true => simp [top, BitVec.getMsbD_twoPow, hlt, hlast]

theorem getMsbD_ofBits (bits : List Bool) {i : ℕ} (hi : i < n) :
    (ofBits n bits).getMsbD i = bits[i]?.getD false := by
  induction bits generalizing i with
  | nil => simp [ofBits]
  | cons b bits ih =>
    rw [ofBits, BitVec.getMsbD_xor, BitVec.getMsbD_ushiftRight, getMsbD_top b hi]
    cases i with
    | zero => simp
    | succ i =>
      have hlt : i < n := Nat.lt_of_succ_lt hi
      simp [hi, ih hlt]

/-- A word of fewer than `n` bits can be moved down and shifted back. -/
theorem shift_ofBits_ushiftRight (g : BitVec n) {bits : List Bool} (h : bits.length < n) :
    shift g (ofBits n bits >>> 1) = ofBits n bits := by
  have hmsb : (ofBits n bits >>> 1).msb = false := by simp [BitVec.msb_ushiftRight]
  rw [shift, if_neg (by simp [hmsb])]
  apply BitVec.eq_of_getMsbD_eq
  intro i hi
  rw [BitVec.getMsbD_shiftLeft, BitVec.getMsbD_ushiftRight]
  by_cases hlast : i + 1 < n
  · simp [hlast]
  · have hnone : bits[i]? = none := List.getElem?_eq_none (by omega)
    simp [hlast, getMsbD_ofBits bits hi, hnone]

/-- Up to `n` bits are fed as one word. -/
theorem feed_eq_shifts (g r : BitVec n) {bits : List Bool} (h : bits.length ≤ n) :
    feed g r bits = (shift g)^[bits.length] (r ^^^ ofBits n bits) := by
  induction bits generalizing r with
  | nil => simp [feed, ofBits]
  | cons b bits ih =>
    have hlt : bits.length < n := h
    have hstep : shift g (r ^^^ ofBits n (b :: bits)) = feedBit g r b ^^^ ofBits n bits := by
      rw [ofBits, ← BitVec.xor_assoc, shift_xor, shift_ofBits_ushiftRight g hlt]
      rfl
    calc feed g r (b :: bits) = feed g (feedBit g r b) bits := rfl
      _ = (shift g)^[bits.length] (feedBit g r b ^^^ ofBits n bits) := ih _ hlt.le
      _ = (shift g)^[(b :: bits).length] (r ^^^ ofBits n (b :: bits)) := by
        rw [List.length_cons, Function.iterate_succ_apply, hstep]

theorem ofBits_injective {bits bits' : List Bool} (hlen : bits.length = bits'.length)
    (hle : bits.length ≤ n) (h : ofBits n bits = ofBits n bits') : bits = bits' := by
  apply List.ext_getElem hlen
  intro i hi hi'
  have hbit := congrArg (BitVec.getMsbD · i) h
  simpa [getMsbD_ofBits _ (hi.trans_le hle), hi, hi'] using hbit

/-- Different strings of at most `n` bits. -/
theorem feed_ne_of_short (hg : g.getLsbD 0 = true) (r : BitVec n) {bits bits' : List Bool}
    (hlen : bits.length = bits'.length) (hle : bits.length ≤ n) (hne : bits ≠ bits') :
    feed g r bits ≠ feed g r bits' := by
  intro h
  rw [feed_eq_shifts g r hle, feed_eq_shifts g r (hlen ▸ hle), ← hlen] at h
  have hword := (BitVec.xor_right_inj r).mp ((shift_injective hg).iterate bits.length h)
  exact hne (ofBits_injective hlen hle hword)

/-- Two strings of the same length that differ, but only within `n` consecutive places, leave
different registers. -/
theorem feed_ne_of_burst (hg : g.getLsbD 0 = true) (r : BitVec n) {x y : List Bool} {p : ℕ}
    (hlen : x.length = y.length) (hne : x ≠ y)
    (hburst : ∀ i, x[i]? ≠ y[i]? → p ≤ i ∧ i < p + n) : feed g r x ≠ feed g r y := by
  have hfront : x.take p = y.take p := by
    apply List.ext_getElem?
    intro i
    rw [List.getElem?_take, List.getElem?_take]
    split
    · rename_i hi
      by_contra hdiff
      exact absurd hi (not_lt.mpr (hburst i hdiff).1)
    · rfl
  have hback : x.drop (p + n) = y.drop (p + n) := by
    apply List.ext_getElem?
    intro i
    rw [List.getElem?_drop, List.getElem?_drop]
    by_contra hdiff
    exact absurd (hburst _ hdiff).2 (by omega)
  have hsplit : ∀ z : List Bool, z = z.take p ++ ((z.drop p).take n ++ z.drop (p + n)) := by
    intro z
    rw [← List.drop_drop, List.take_append_drop, List.take_append_drop]
  have hmid : (x.drop p).take n ≠ (y.drop p).take n := by
    intro hmid
    apply hne
    rw [hsplit x, hsplit y, hfront, hback, hmid]
  rw [hsplit x, hsplit y, hfront, hback, feed_append, feed_append, feed_append, feed_append]
  refine (feed_injective hg _).ne (feed_ne_of_short hg _ ?_ ?_ hmid)
  · simp [hlen]
  · simp

end OpenHop.ShiftRegister
