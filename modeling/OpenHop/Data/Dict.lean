import Mathlib.Data.List.Nodup
import Mathlib.Logic.Function.Iterate

/-! # Insertion-ordered dictionaries

A dictionary is a list of key and value pairs in insertion order whose keys are
distinct. Assigning to a present key keeps its position, as the language's own
dictionaries do, and every operation is described by what `get?` returns after it.
-/

namespace OpenHop

structure Dict (κ ν : Type) where
  entries : List (κ × ν)
  nodup : (entries.map Prod.fst).Nodup

namespace Dict

variable {κ ν : Type} [DecidableEq κ]

def empty : Dict κ ν := ⟨[], List.nodup_nil⟩

def lookup (k : κ) : List (κ × ν) → Option ν
  | [] => none
  | (j, v) :: es => if j = k then some v else lookup k es

def assign (k : κ) (v : ν) : List (κ × ν) → List (κ × ν)
  | [] => [(k, v)]
  | (j, w) :: es => if j = k then (k, v) :: es else (j, w) :: assign k v es

theorem lookup_eq_none_iff {k : κ} {es : List (κ × ν)} :
    lookup k es = none ↔ k ∉ es.map Prod.fst := by
  induction es with
  | nil => simp [lookup]
  | cons e es ih =>
    by_cases h : e.1 = k
    · simp [lookup, h]
    · simp [lookup, h, ih, Ne.symm h]

theorem lookup_eq_some_iff {k : κ} {v : ν} {es : List (κ × ν)} (hn : (es.map Prod.fst).Nodup) :
    lookup k es = some v ↔ (k, v) ∈ es := by
  induction es with
  | nil => simp [lookup]
  | cons e es ih =>
    obtain ⟨j, w⟩ := e
    obtain ⟨hj, hn⟩ := List.nodup_cons.mp hn
    by_cases h : j = k
    · subst h
      have : (j, v) ∉ es := fun hm => hj (List.mem_map.mpr ⟨_, hm, rfl⟩)
      simp [lookup, this, eq_comm]
    · simp [lookup, h, ih hn, Ne.symm h]

theorem map_fst_assign (k : κ) (v : ν) (es : List (κ × ν)) :
    (assign k v es).map Prod.fst =
      if k ∈ es.map Prod.fst then es.map Prod.fst else es.map Prod.fst ++ [k] := by
  induction es with
  | nil => rfl
  | cons e es ih =>
    by_cases h : e.1 = k
    · simp [assign, h]
    · simp only [assign, h, if_false, List.map_cons, ih, List.mem_cons, Ne.symm h, false_or]
      split <;> rfl

theorem assign_of_not_mem {k : κ} {es : List (κ × ν)} (h : k ∉ es.map Prod.fst) (v : ν) :
    assign k v es = es ++ [(k, v)] := by
  induction es with
  | nil => rfl
  | cons e es ih =>
    obtain ⟨hne, hes⟩ := not_or.mp (mt List.mem_cons.mpr h)
    rw [assign, if_neg (Ne.symm hne), ih hes]
    rfl

theorem lookup_assign (k j : κ) (v : ν) (es : List (κ × ν)) :
    lookup j (assign k v es) = if j = k then some v else lookup j es := by
  induction es with
  | nil => simp [assign, lookup, eq_comm]
  | cons e es ih =>
    by_cases h : e.1 = k
    · by_cases hj : j = k
      · simp [assign, lookup, h, hj]
      · simp [assign, lookup, h, hj, Ne.symm hj]
    · by_cases hj : j = k
      · subst hj
        simp [assign, lookup, h, ih]
      · simp [assign, lookup, h, hj, ih]

theorem lookup_map (k j : κ) (f : ν → ν) (es : List (κ × ν)) :
    lookup j (es.map fun e => (e.1, if e.1 = k then f e.2 else e.2)) =
      if j = k then (lookup j es).map f else lookup j es := by
  induction es with
  | nil => simp [lookup]
  | cons e es ih =>
    rw [List.map_cons, lookup, lookup, ih]
    by_cases hj : e.1 = j
    · rw [if_pos hj, if_pos hj, hj]
      split <;> rfl
    · rw [if_neg hj, if_neg hj]

theorem lookup_filter (p : κ → ν → Bool) (k : κ) {es : List (κ × ν)}
    (hn : (es.map Prod.fst).Nodup) :
    lookup k (es.filter fun e => p e.1 e.2) = (lookup k es).filter (p k) := by
  induction es with
  | nil => rfl
  | cons e es ih =>
    obtain ⟨j, v⟩ := e
    obtain ⟨hj, hn⟩ := List.nodup_cons.mp hn
    by_cases h : j = k
    · subst h
      have hnone : lookup j es = none := lookup_eq_none_iff.mpr hj
      cases hp : p j v <;> simp [hp, lookup, ih hn, hnone, Option.filter]
    · cases hp : p j v <;> simp [hp, lookup, ih hn, h]

def get? (d : Dict κ ν) (k : κ) : Option ν := lookup k d.entries

def contains (d : Dict κ ν) (k : κ) : Bool := (d.get? k).isSome

def set (d : Dict κ ν) (k : κ) (v : ν) : Dict κ ν where
  entries := assign k v d.entries
  nodup := by
    rw [map_fst_assign]
    split
    · exact d.nodup
    · rename_i h
      exact List.nodup_append.mpr ⟨d.nodup, List.nodup_singleton k, by
        rintro a ha b hb rfl
        exact h (List.mem_singleton.mp hb ▸ ha)⟩

/-- The entries that satisfy a condition, as a comprehension over the items builds them. -/
def filter (d : Dict κ ν) (p : κ → ν → Bool) : Dict κ ν where
  entries := d.entries.filter fun e => p e.1 e.2
  nodup := (d.nodup.sublist (List.filter_sublist.map _))

def erase (d : Dict κ ν) (k : κ) : Dict κ ν := d.filter fun j _ => j ≠ k

def keys (d : Dict κ ν) : List κ := d.entries.map Prod.fst

def values (d : Dict κ ν) : List ν := d.entries.map Prod.snd

def size (d : Dict κ ν) : ℕ := d.entries.length

def setLast (d : Dict κ ν) (k : κ) (v : ν) : Dict κ ν := (d.erase k).set k v

theorem entries_setLast (d : Dict κ ν) (k : κ) (v : ν) :
    (d.setLast k v).entries = (d.entries.filter fun e => e.1 ≠ k) ++ [(k, v)] := by
  apply assign_of_not_mem
  rintro hk
  obtain ⟨e, he, rfl⟩ := List.mem_map.mp hk
  exact of_decide_eq_true (List.mem_filter.mp he).2 rfl

def modify (d : Dict κ ν) (k : κ) (f : ν → ν) : Dict κ ν where
  entries := d.entries.map fun e => (e.1, if e.1 = k then f e.2 else e.2)
  nodup := by
    rw [List.map_map]
    exact d.nodup

def popFirst (d : Dict κ ν) : Dict κ ν :=
  ⟨d.entries.tail, d.nodup.sublist ((List.tail_sublist _).map _)⟩

omit [DecidableEq κ] in
theorem entries_iterate_popFirst (n : ℕ) (d : Dict κ ν) :
    (popFirst^[n] d).entries = d.entries.drop n := by
  induction n generalizing d with
  | zero => rfl
  | succ n ih =>
    rw [Function.iterate_succ_apply, ih, Nat.add_comm, ← List.drop_drop, List.drop_one]
    rfl

def dropWhile (d : Dict κ ν) (p : κ → ν → Bool) : Dict κ ν where
  entries := d.entries.dropWhile fun e => p e.1 e.2
  nodup := d.nodup.sublist ((List.dropWhile_sublist _).map _)

theorem get?_dropWhile_of_none {d : Dict κ ν} {k : κ} (h : d.get? k = none)
    (p : κ → ν → Bool) : (d.dropWhile p).get? k = none := by
  have hk : k ∉ d.entries.map Prod.fst := lookup_eq_none_iff.mp h
  exact lookup_eq_none_iff.mpr fun hmem =>
    hk (((List.dropWhile_sublist _).map Prod.fst).subset hmem)

@[simp] theorem get?_set (d : Dict κ ν) (k j : κ) (v : ν) :
    (d.set k v).get? j = if j = k then some v else d.get? j :=
  lookup_assign k j v d.entries

@[simp] theorem get?_modify (d : Dict κ ν) (k j : κ) (f : ν → ν) :
    (d.modify k f).get? j = if j = k then (d.get? j).map f else d.get? j :=
  lookup_map k j f d.entries

theorem contains_iff {d : Dict κ ν} {k : κ} : d.contains k = true ↔ k ∈ d.keys := by
  rw [contains, Option.isSome_iff_ne_none, ne_eq, get?, lookup_eq_none_iff, not_not]
  rfl

theorem keys_set_of_mem {d : Dict κ ν} {k : κ} (h : k ∈ d.keys) (v : ν) :
    (d.set k v).keys = d.keys :=
  (map_fst_assign k v d.entries).trans (if_pos h)

theorem get?_eq_some_iff {d : Dict κ ν} {k : κ} {v : ν} :
    d.get? k = some v ↔ (k, v) ∈ d.entries :=
  lookup_eq_some_iff d.nodup

theorem get?_of_mem {d : Dict κ ν} {k : κ} {v : ν} (h : (k, v) ∈ d.entries) : d.get? k = some v :=
  get?_eq_some_iff.mpr h

@[simp] theorem get?_filter (d : Dict κ ν) (p : κ → ν → Bool) (k : κ) :
    (d.filter p).get? k = (d.get? k).filter (p k) :=
  lookup_filter p k d.nodup

@[simp] theorem get?_erase (d : Dict κ ν) (k j : κ) :
    (d.erase k).get? j = if j = k then none else d.get? j := by
  rw [erase, get?_filter]
  by_cases h : j = k
  · cases hg : d.get? j <;> simp [h, Option.filter]
  · cases hg : d.get? j <;> simp [h, Option.filter]

/-- The number of values that satisfy a condition. -/
def count (d : Dict κ ν) (p : ν → Bool) : ℕ := d.entries.countP fun e => p e.2

omit [DecidableEq κ] in
theorem size_eq_count (d : Dict κ ν) (p : ν → Bool) :
    d.size = d.count p + d.count fun v => ¬ p v := by
  simp only [size, count, List.length_eq_countP_add_countP fun e : κ × ν => p e.2]

theorem countP_assign (p : ν → Bool) (k : κ) (v : ν) (es : List (κ × ν)) :
    (assign k v es).countP (fun e => p e.2) + (lookup k es).toList.countP p =
      es.countP (fun e => p e.2) + [v].countP p := by
  induction es with
  | nil => simp [assign, lookup, List.countP_cons]
  | cons e es ih =>
    by_cases h : e.1 = k
    · simp only [assign, lookup, h, if_true, Option.toList_some, List.countP_cons, List.countP_nil]
      omega
    · simp only [assign, lookup, h, if_false, List.countP_cons] at ih ⊢
      omega

theorem countP_erase (p : ν → Bool) (k : κ) {es : List (κ × ν)} (hn : (es.map Prod.fst).Nodup) :
    (es.filter fun e => e.1 ≠ k).countP (fun e => p e.2) + (lookup k es).toList.countP p =
      es.countP fun e => p e.2 := by
  induction es with
  | nil => rfl
  | cons e es ih =>
    obtain ⟨hj, hn⟩ := List.nodup_cons.mp hn
    by_cases h : e.1 = k
    · have hnone : lookup k es = none := lookup_eq_none_iff.mpr (h ▸ hj)
      have ih := ih hn
      rw [hnone] at ih
      rw [List.filter_cons_of_neg (by simp [h])]
      simp only [lookup, h, if_true, Option.toList_some, Option.toList_none, List.countP_cons,
        List.countP_nil] at ih ⊢
      omega
    · have ih := ih hn
      rw [List.filter_cons_of_pos (by simp [h])]
      simp only [lookup, h, if_false, List.countP_cons] at ih ⊢
      omega

theorem count_set (d : Dict κ ν) (p : ν → Bool) (k : κ) (v : ν) :
    (d.set k v).count p + (d.get? k).toList.countP p = d.count p + [v].countP p :=
  countP_assign p k v d.entries

theorem count_erase (d : Dict κ ν) (p : ν → Bool) (k : κ) :
    (d.erase k).count p + (d.get? k).toList.countP p = d.count p :=
  countP_erase p k d.nodup

end Dict

end OpenHop
