import Mathlib.Algebra.BigOperators.Group.List.Lemmas
import Mathlib.Tactic.Ring

/-! # Byte strings

Byte strings are lists of bytes. Fixed-width little-endian integers are read
and written with the rules used by the codecs: writing then reading a value
that fits is the identity, and every byte string is the writing of its value.
-/

namespace OpenHop

abbrev Bytes := List UInt8

namespace Bytes

/-- The `w` little-endian bytes of `n`; higher digits are lost. -/
def le : ℕ → ℕ → Bytes
  | 0, _ => []
  | w + 1, n => UInt8.ofNat n :: le w (n / 256)

/-- The value of a little-endian byte string. -/
def toNatLE : Bytes → ℕ
  | [] => 0
  | b :: d => b.toNat + 256 * toNatLE d

/-- The checked conversion `n.to_bytes(w, "little")`, which refuses a value that does not fit. -/
def ofNatLE? (w n : ℕ) : Option Bytes :=
  if n < 256 ^ w then some (le w n) else none

@[simp] theorem length_le (w n : ℕ) : (le w n).length = w := by
  induction w generalizing n with
  | zero => rfl
  | succ w ih => simp [le, ih]

theorem toNatLE_le (w n : ℕ) (h : n < 256 ^ w) : toNatLE (le w n) = n := by
  induction w generalizing n with
  | zero => simp only [pow_zero, Nat.lt_one_iff] at h; simp [le, toNatLE, h]
  | succ w ih =>
    have hd : n / 256 < 256 ^ w := by
      rw [Nat.div_lt_iff_lt_mul (by decide)]
      rwa [pow_succ] at h
    simp only [le, toNatLE, ih _ hd, UInt8.toNat_ofNat']
    omega

theorem le_toNatLE (d : Bytes) : le d.length (toNatLE d) = d := by
  induction d with
  | nil => rfl
  | cons b d ih =>
    have hb := b.toNat_lt
    have hq : (b.toNat + 256 * toNatLE d) / 256 = toNatLE d := by omega
    have hr : UInt8.ofNat (b.toNat + 256 * toNatLE d) = b := by
      apply UInt8.toNat_inj.mp
      simp only [UInt8.toNat_ofNat']
      omega
    simp only [List.length_cons, le, toNatLE, hq, hr, ih]

theorem toNatLE_lt (d : Bytes) : toNatLE d < 256 ^ d.length := by
  induction d with
  | nil => simp [toNatLE]
  | cons b d ih =>
    have hb := b.toNat_lt
    simp only [toNatLE, List.length_cons, pow_succ]
    omega

theorem ofNatLE?_eq_some {w n : ℕ} {d : Bytes} :
    ofNatLE? w n = some d ↔ n < 256 ^ w ∧ le w n = d := by
  unfold ofNatLE?
  split <;> simp_all

theorem toNat_ofNat_of_lt {n : ℕ} (h : n < 256) : (UInt8.ofNat n).toNat = n := by
  simp only [UInt8.toNat_ofNat']
  omega

theorem takeWhile_append_zeros {d : Bytes} (h : 0 ∉ d) (n : ℕ) :
    (d ++ List.replicate n 0).takeWhile (· ≠ 0) = d := by
  have hall : ∀ b ∈ d, decide (b ≠ 0) = true :=
    fun b hb => decide_eq_true fun h0 => h (h0 ▸ hb)
  rw [List.takeWhile_append_of_pos hall]
  cases n <;> simp [List.replicate_succ]

/-- The first `n` records of `w` bytes each. -/
def cut (w : ℕ) : ℕ → Bytes → List Bytes
  | 0, _ => []
  | n + 1, d => d.take w :: cut w n (d.drop w)

theorem length_flatten_of_uniform {w : ℕ} {rs : List Bytes} (h : ∀ r ∈ rs, r.length = w) :
    rs.flatten.length = rs.length * w := by
  induction rs with
  | nil => simp
  | cons r rs ih =>
    rw [List.flatten_cons, List.length_append, h r (by simp), ih fun x hx => h x (by simp [hx]),
      List.length_cons]
    ring

@[simp] theorem length_cut (w n : ℕ) (d : Bytes) : (cut w n d).length = n := by
  induction n generalizing d with
  | zero => rfl
  | succ n ih => simp [cut, ih]

theorem length_drop_of_records {w n : ℕ} {d : Bytes} (h : d.length = (n + 1) * w) :
    (d.take w).length = w ∧ (d.drop w).length = n * w := by
  rw [add_mul, one_mul] at h
  simp only [List.length_take, List.length_drop]
  omega

theorem length_of_mem_cut {w n : ℕ} {d : Bytes} (h : d.length = n * w) :
    ∀ r ∈ cut w n d, r.length = w := by
  induction n generalizing d with
  | zero => simp [cut]
  | succ n ih =>
    obtain ⟨ht, hd⟩ := length_drop_of_records h
    intro r hr
    rcases List.mem_cons.mp hr with rfl | hr
    · exact ht
    · exact ih hd r hr

theorem flatten_cut {w n : ℕ} {d : Bytes} (h : d.length = n * w) : (cut w n d).flatten = d := by
  induction n generalizing d with
  | zero => simpa [cut, eq_comm] using h
  | succ n ih =>
    rw [cut, List.flatten_cons, ih (length_drop_of_records h).2, List.take_append_drop]

theorem cut_flatten {w : ℕ} {rs : List Bytes} (h : ∀ r ∈ rs, r.length = w) :
    cut w rs.length rs.flatten = rs := by
  induction rs with
  | nil => rfl
  | cons r rs ih =>
    have hr : r.length = w := h r (by simp)
    rw [List.length_cons, List.flatten_cons, cut, List.take_left' hr, List.drop_left' hr,
      ih fun x hx => h x (by simp [hx])]

theorem filterMap_range_eq_cut {w n : ℕ} {d : Bytes} (h : d.length = n * w) :
    (List.range n).filterMap (fun i =>
      if i * w + w ≤ d.length then some ((d.take (i * w + w)).drop (i * w)) else none) =
      cut w n d := by
  induction n generalizing d with
  | zero => rfl
  | succ n ih =>
    obtain ⟨ht, hd⟩ := length_drop_of_records h
    have hle : w ≤ d.length := by
      rw [List.length_take] at ht
      omega
    rw [List.range_succ_eq_map, List.filterMap_cons, List.filterMap_map, cut, ← ih hd]
    simp only [zero_mul, zero_add, if_pos hle, List.drop_zero]
    congr 1
    apply List.filterMap_congr
    intro i _
    have hs : (i + 1) * w = w + i * w := by ring
    simp only [Function.comp_apply, Nat.succ_eq_add_one, hs, List.length_drop, ← List.drop_drop,
      List.take_drop, ← add_assoc]
    congr 1
    exact propext ⟨fun _ => by omega, fun _ => by omega⟩

/-- The field at position `i` of a record starts where the fields before it end. -/
theorem field_flatten {parts : List Bytes} {widths : List ℕ}
    (h : parts.map List.length = widths) {i : ℕ} {part : Bytes} (hi : parts[i]? = some part) :
    (parts.flatten.drop (widths.take i).sum).take part.length = part := by
  obtain ⟨hlt, rfl⟩ := List.getElem?_eq_some_iff.mp hi
  have hsum : (widths.take (i + 1)).sum = (widths.take i).sum + (parts[i]).length := by
    have hi' : i < widths.length := by simpa [← h] using hlt
    rw [List.sum_take_succ _ _ hi']
    simp [← h]
  have hslice := List.drop_take_succ_flatten_eq_getElem parts i hlt
  rwa [h, hsum, List.drop_take, Nat.add_sub_cancel_left] at hslice

end Bytes

end OpenHop
