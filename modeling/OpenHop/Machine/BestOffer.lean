import Mathlib.Algebra.Order.Group.Defs
import Mathlib.Data.Finset.Card
import Mathlib.Order.Bounds.Basic
import OpenHop.Data.Dict

/-! # The best offer for each key

A bounded table takes offers under keys and holds for each key the best one. An offer first
removes what has expired at the front, then makes its key the latest, and if the table is
over its bound the key that was offered longest ago goes.
-/

namespace OpenHop.BestOffer

variable {κ ν ρ T : Type} [DecidableEq κ] [LinearOrder ρ] [AddCommGroup T] [LinearOrder T]

/-- How offers are compared, and the time of the last one that they stand for. -/
structure Ranking (ν ρ T : Type) where
  rank : ν → ρ
  time : ν → T
  /-- The offer at a new time. -/
  renew : T → ν → ν
  rank_renew : ∀ t v, rank (renew t v) = rank v
  time_renew : ∀ t v, time (renew t v) = t
  renew_time : ∀ v, renew (time v) v = v
  renew_renew : ∀ t t' v, renew t (renew t' v) = renew t v

def trim (room : ℕ) (d : Dict κ ν) : Dict κ ν := if room < d.size then d.popFirst else d

def offer (R : Ranking ν ρ T) (room : ℕ) (ttl : T) (d : Dict κ ν) (e : κ × ν) : Dict κ ν :=
  let d := d.dropWhile fun _ w => ttl < R.time e.2 - R.time w
  match d.get? e.1 with
  | some w =>
    if R.rank e.2 ≤ R.rank w then d.setLast e.1 (R.renew (R.time e.2) w)
    else trim room (d.setLast e.1 e.2)
  | none => trim room (d.setLast e.1 e.2)

variable {R : Ranking ν ρ T} {room : ℕ} {ttl : T} {d : Dict κ ν} {k : κ} {e : κ × ν}

theorem dropWhile_append_cons {α : Type} {p : α → Bool} {x : α} (hx : p x = false) (a b : List α) :
    ∃ a', (a ++ x :: b).dropWhile p = a' ++ x :: b := by
  induction a with
  | nil => exact ⟨[], List.dropWhile_cons_of_neg (by simp [hx])⟩
  | cons y a ih =>
    rw [List.cons_append, List.dropWhile_cons]
    split
    · exact ih
    · exact ⟨y :: a, rfl⟩

omit [DecidableEq κ] in
/-- An entry with fewer entries behind it than the table has room for is not the oldest of a table
over its bound. -/
theorem entries_trim {a b : List (κ × ν)} {x : κ × ν} (h : d.entries = a ++ x :: b)
    (hroom : b.length < room) : ∃ a', (trim room d).entries = a' ++ x :: b := by
  unfold trim
  split
  · rename_i hfull
    cases a with
    | nil =>
      rw [Dict.size, h, List.nil_append, List.length_cons] at hfull
      omega
    | cons y a =>
      refine ⟨a, ?_⟩
      show d.entries.tail = _
      rw [h]
      rfl
  · exact ⟨a, h⟩

theorem get?_trim_of_none (h : d.get? k = none) : (trim room d).get? k = none := by
  have hk : k ∉ d.entries.map Prod.fst := Dict.lookup_eq_none_iff.mp h
  unfold trim
  split
  · exact Dict.lookup_eq_none_iff.mpr fun hmem =>
      hk (((List.tail_sublist d.entries).map Prod.fst).subset hmem)
  · exact h

theorem get?_setLast_of_ne {j : κ} (hne : k ≠ j) (v : ν) :
    (d.setLast j v).get? k = d.get? k := by
  simp [Dict.setLast, hne]

theorem get?_offer_of_none (h : d.get? k = none) (hne : k ≠ e.1) :
    (offer R room ttl d e).get? k = none := by
  have hdrop := Dict.get?_dropWhile_of_none h fun _ w => ttl < R.time e.2 - R.time w
  unfold offer
  dsimp only
  generalize d.dropWhile (fun _ w => decide (ttl < R.time e.2 - R.time w)) = d' at hdrop
  have hset (v : ν) : (d'.setLast e.1 v).get? k = none := by
    rw [get?_setLast_of_ne hne, hdrop]
  split
  · split
    · exact hset _
    · exact get?_trim_of_none (hset _)
  · exact get?_trim_of_none (hset _)

/-- Of the offers for a key, the table holds one that is as good as any, with no entries behind it
but those of other keys that were offered. -/
structure Holds (R : Ranking ν ρ T) (offers : List (κ × ν)) (k : κ) (d : Dict κ ν) (w : ν) :
    Prop where
  position : ∃ a b, d.entries = a ++ (k, w) :: b ∧
    ∀ x ∈ b, x.1 ∈ (offers.map Prod.fst).toFinset.erase k
  offered : ∃ v, (k, v) ∈ offers ∧ w = R.renew (R.time w) v
  greatest : ∀ v, (k, v) ∈ offers → R.rank v ≤ R.rank w
  time : ∃ x ∈ offers, R.time w = R.time x.2

variable {offers : List (κ × ν)} {w : ν}

omit [AddCommGroup T] [LinearOrder T] in
theorem Holds.get? (h : Holds R offers k d w) : d.get? k = some w := by
  obtain ⟨a, b, hentries, -⟩ := h.position
  exact Dict.get?_of_mem (hentries ▸ List.mem_append_right a List.mem_cons_self)

theorem length_le_card {a b : List (κ × ν)} {x : κ × ν} {s : Finset κ}
    (h : d.entries = a ++ x :: b) (hb : ∀ y ∈ b, y.1 ∈ s) : b.length ≤ s.card := by
  have hsub : b.Sublist d.entries := by
    rw [h]
    exact (List.sublist_cons_self x b).trans (List.sublist_append_right a _)
  have hnodup : (b.map Prod.fst).Nodup := d.nodup.sublist (hsub.map _)
  rw [← List.length_map Prod.fst, ← List.toFinset_card_of_nodup hnodup]
  apply Finset.card_le_card
  intro j hj
  obtain ⟨y, hy, rfl⟩ := List.mem_map.mp (List.mem_toFinset.mp hj)
  exact hb y hy

theorem position_setLast {a b : List (κ × ν)} {j : κ} (h : d.entries = a ++ (k, w) :: b)
    (hne : k ≠ j) (v : ν) : (d.setLast j v).entries =
      (a.filter fun x => x.1 ≠ j) ++ (k, w) :: ((b.filter fun x => x.1 ≠ j) ++ [(j, v)]) := by
  rw [Dict.entries_setLast, h, List.filter_append, List.filter_cons_of_pos (by simpa using hne)]
  simp

theorem Holds.offer_of_ne (h : Holds R offers k d w) (hne : k ≠ e.1)
    (hfresh : R.time e.2 - R.time w ≤ ttl)
    (hroom : (((offers ++ [e]).map Prod.fst).toFinset.erase k).card < room) :
    Holds R (offers ++ [e]) k (offer R room ttl d e) w := by
  obtain ⟨a, b, hentries, hbehind⟩ := h.position
  obtain ⟨a', hdrop⟩ := dropWhile_append_cons
    (p := fun x : κ × ν => decide (ttl < R.time e.2 - R.time x.2)) (x := (k, w))
    (by simpa using hfresh) a b
  rw [← hentries] at hdrop
  have hmem : e.1 ∈ ((offers ++ [e]).map Prod.fst).toFinset.erase k := by
    simp [Ne.symm hne]
  have hmono : ∀ x ∈ b, x.1 ∈ ((offers ++ [e]).map Prod.fst).toFinset.erase k := by
    intro x hx
    have hx := hbehind x hx
    simp only [Finset.mem_erase, List.mem_toFinset, List.map_append, List.mem_append] at hx ⊢
    exact ⟨hx.1, .inl hx.2⟩
  have hset (v : ν) : ∃ a b, ((d.dropWhile fun _ w =>
        ttl < R.time e.2 - R.time w).setLast e.1 v).entries = a ++ (k, w) :: b ∧
      ∀ x ∈ b, x.1 ∈ ((offers ++ [e]).map Prod.fst).toFinset.erase k := by
    refine ⟨_, _, position_setLast hdrop hne v, ?_⟩
    intro x hx
    obtain hx | hx := List.mem_append.mp hx
    · exact hmono x (List.mem_filter.mp hx).1
    · rw [List.mem_singleton.mp hx]
      exact hmem
  have htrim (v : ν) : ∃ a b, (trim room ((d.dropWhile fun _ w =>
        ttl < R.time e.2 - R.time w).setLast e.1 v)).entries = a ++ (k, w) :: b ∧
      ∀ x ∈ b, x.1 ∈ ((offers ++ [e]).map Prod.fst).toFinset.erase k := by
    obtain ⟨a, b, hab, hb⟩ := hset v
    obtain ⟨a', ha'⟩ := entries_trim hab ((length_le_card hab hb).trans_lt hroom)
    exact ⟨a', b, ha', hb⟩
  refine ⟨?_, ?_, ?_, ?_⟩
  · unfold offer
    dsimp only
    split
    · split
      · exact hset _
      · exact htrim _
    · exact htrim _
  · obtain ⟨v, hv, hw⟩ := h.offered
    exact ⟨v, List.mem_append_left _ hv, hw⟩
  · intro v hv
    obtain hv | hv := List.mem_append.mp hv
    · exact h.greatest v hv
    · exact absurd (congrArg Prod.fst (List.mem_singleton.mp hv)) hne
  · obtain ⟨x, hx, htime⟩ := h.time
    exact ⟨x, List.mem_append_left _ hx, htime⟩

theorem position_self (v : ν) (hroom : 0 < room) (s : Finset κ) :
    (∃ a b, (d.setLast k v).entries = a ++ (k, v) :: b ∧ ∀ x ∈ b, x.1 ∈ s) ∧
    ∃ a b, (trim room (d.setLast k v)).entries = a ++ (k, v) :: b ∧ ∀ x ∈ b, x.1 ∈ s := by
  have hset : (d.setLast k v).entries = _ ++ (k, v) :: [] := Dict.entries_setLast ..
  obtain ⟨a, ha⟩ := entries_trim hset hroom
  exact ⟨⟨_, _, hset, by simp⟩, a, [], ha, by simp⟩

theorem holds_first (h : d.get? k = none) (hnew : k ∉ offers.map Prod.fst) (v : ν)
    (hroom : 0 < room) : Holds R (offers ++ [(k, v)]) k (offer R room ttl d (k, v)) v := by
  refine ⟨?_, ⟨v, by simp, (R.renew_time v).symm⟩, ?_, (k, v), by simp, rfl⟩
  · unfold offer
    dsimp only
    rw [Dict.get?_dropWhile_of_none h]
    exact (position_self v hroom _).2
  · intro v' hv'
    obtain hv' | hv' := List.mem_append.mp hv'
    · exact absurd (List.mem_map.mpr ⟨_, hv', rfl⟩) hnew
    · cases List.mem_singleton.mp hv'
      exact le_rfl

theorem Holds.offer_self (h : Holds R offers k d w) (v : ν) (hfresh : R.time v - R.time w ≤ ttl)
    (hroom : 0 < room) :
    ∃ w', Holds R (offers ++ [(k, v)]) k (offer R room ttl d (k, v)) w' := by
  obtain ⟨a, b, hentries, -⟩ := h.position
  obtain ⟨a', hdrop⟩ := dropWhile_append_cons
    (p := fun x : κ × ν => decide (ttl < R.time v - R.time x.2)) (x := (k, w))
    (by simpa using hfresh) a b
  rw [← hentries] at hdrop
  have hget : (d.dropWhile fun _ w => ttl < R.time v - R.time w).get? k = some w :=
    Dict.get?_of_mem (by
      show (k, w) ∈ List.dropWhile _ d.entries
      rw [hdrop]
      exact List.mem_append_right a' List.mem_cons_self)
  by_cases hle : R.rank v ≤ R.rank w
  · refine ⟨R.renew (R.time v) w, ?_, ?_, ?_, (k, v), by simp, R.time_renew _ _⟩
    · unfold offer
      dsimp only
      rw [hget]
      dsimp only
      rw [if_pos hle]
      exact (position_self _ hroom _).1
    · obtain ⟨x, hx, hw⟩ := h.offered
      refine ⟨x, List.mem_append_left _ hx, ?_⟩
      rw [R.time_renew]
      conv_lhs => rw [hw]
      rw [R.renew_renew]
    · intro x hx
      rw [R.rank_renew]
      obtain hx | hx := List.mem_append.mp hx
      · exact h.greatest x hx
      · cases List.mem_singleton.mp hx
        exact hle
  · refine ⟨v, ?_, ⟨v, by simp, (R.renew_time v).symm⟩, ?_, (k, v), by simp, rfl⟩
    · unfold offer
      dsimp only
      rw [hget]
      dsimp only
      rw [if_neg hle]
      exact (position_self v hroom _).2
    · intro x hx
      obtain hx | hx := List.mem_append.mp hx
      · exact (h.greatest x hx).trans (le_of_not_ge hle)
      · cases List.mem_singleton.mp hx
        exact le_rfl

/-- The offers are made within one period, and those for other keys leave room. -/
structure Window (R : Ranking ν ρ T) (room : ℕ) (ttl : T) (offers : List (κ × ν)) (k : κ) :
    Prop where
  period : ∀ x ∈ offers, ∀ y ∈ offers, R.time y.2 - R.time x.2 ≤ ttl
  others : ((offers.map Prod.fst).toFinset.erase k).card < room

omit [LinearOrder ρ] in
theorem Window.init (h : Window R room ttl (offers ++ [e]) k) : Window R room ttl offers k where
  period x hx y hy := h.period x (List.mem_append_left _ hx) y (List.mem_append_left _ hy)
  others := by
    refine lt_of_le_of_lt (Finset.card_le_card (Finset.erase_subset_erase k ?_)) h.others
    intro j hj
    simp only [List.mem_toFinset, List.map_append, List.mem_append] at hj ⊢
    exact .inl hj

theorem foldl_offer (hnone : d.get? k = none) (h : Window R room ttl offers k) :
    k ∉ offers.map Prod.fst ∧ (offers.foldl (offer R room ttl) d).get? k = none ∨
      ∃ w, Holds R offers k (offers.foldl (offer R room ttl) d) w := by
  induction offers using List.reverseRecOn with
  | nil => exact .inl ⟨List.not_mem_nil, hnone⟩
  | append_singleton offers e ih =>
    rw [List.foldl_append, List.foldl_cons, List.foldl_nil]
    have hroom : 0 < room := Nat.zero_lt_of_lt h.others
    obtain ⟨hnew, hget⟩ | ⟨w, hw⟩ := ih h.init
    · by_cases hk : k = e.1
      · subst hk
        exact .inr ⟨e.2, holds_first hget hnew e.2 hroom⟩
      · refine .inl ⟨?_, get?_offer_of_none hget hk⟩
        simp only [List.map_append, List.mem_append, not_or]
        exact ⟨hnew, by simpa using hk⟩
    · obtain ⟨x, hx, htime⟩ := hw.time
      have hfresh : R.time e.2 - R.time w ≤ ttl := by
        rw [htime]
        exact h.period x (List.mem_append_left _ hx) e (by simp)
      by_cases hk : k = e.1
      · subst hk
        exact .inr (hw.offer_self e.2 hfresh hroom)
      · exact .inr ⟨w, hw.offer_of_ne hk hfresh h.others⟩

end OpenHop.BestOffer
