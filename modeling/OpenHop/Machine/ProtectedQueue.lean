import Mathlib.Data.List.Nodup
import Mathlib.Data.List.Perm.Basic

/-! # Queues that evict unprotected entries

A queue has room for a number of entries. When it is full, a new entry takes the place of
the oldest one that may be evicted, and is refused if there is none. Entries are otherwise
taken from either end, picked out, or cleared.
-/

namespace OpenHop.ProtectedQueue

variable {α β : Type*}

/-- What stays and what goes when an entry is pushed; none if it is refused. -/
def makeRoom (room : ℕ) (evictable : α → Bool) (q : List α) : Option (List α × List α) :=
  if room = 0 then none
  else if q.length < room then some (q, [])
  else (q.find? evictable).map fun x => (q.eraseP evictable, [x])

inductive Op (α : Type*) where
  | push (x : α)
  | pop
  | popLast
  | remove (p : α → Bool)
  | clear

/-- The queue with a record of what went in and out. -/
structure Log (α : Type*) where
  held : List α := []
  accepted : List α := []
  evicted : List α := []
  taken : List α := []

/-- Entries leave because they were asked for. -/
def Log.take (l : Log α) (kept gone : List α) : Log α :=
  { l with held := kept, taken := l.taken ++ gone }

def Log.push (room : ℕ) (evictable : α → Bool) (l : Log α) (x : α) : Log α :=
  match makeRoom room evictable l.held with
  | none => l
  | some (kept, gone) =>
    { l with
      held := kept ++ [x]
      accepted := l.accepted ++ [x]
      evicted := l.evicted ++ gone }

def Log.step (room : ℕ) (evictable : α → Bool) (l : Log α) : Op α → Log α
  | .push x => l.push room evictable x
  | .pop => l.take l.held.tail l.held.head?.toList
  | .popLast => l.take l.held.dropLast l.held.getLast?.toList
  | .remove p => l.take (l.held.eraseP p) (l.held.find? p).toList
  | .clear => l.take [] l.held

section

variable {room : ℕ} {evictable p : α → Bool} {q kept gone : List α} {x : α}

theorem eraseP_of_find? (h : q.find? p = some x) :
    ∃ a b, q = a ++ x :: b ∧ (∀ y ∈ a, p y = false) ∧ p x = true ∧ q.eraseP p = a ++ b := by
  obtain ⟨hx, a, b, rfl, ha⟩ := List.find?_eq_some_iff_append.mp h
  have ha : ∀ y ∈ a, p y = false := fun y hy => by simpa using ha y hy
  refine ⟨a, b, rfl, ha, hx, ?_⟩
  rw [List.eraseP_append_right _ (fun y hy => by simp [ha y hy]), List.eraseP_cons_of_pos hx]

/-- The ways in which room is made: there was some, or the oldest evictable entry goes. -/
inductive Room (room : ℕ) (evictable : α → Bool) (q kept gone : List α) : Prop where
  | free (hfree : q.length < room) (hkept : kept = q) (hgone : gone = [])
  | evict (hfull : q.length = room) (a b : List α) (x : α) (hq : q = a ++ x :: b)
      (ha : ∀ y ∈ a, evictable y = false) (hx : evictable x = true) (hkept : kept = a ++ b)
      (hgone : gone = [x])

theorem makeRoom_eq_some (hle : q.length ≤ room)
    (h : makeRoom room evictable q = some (kept, gone)) :
    kept.length < room ∧ Room room evictable q kept gone := by
  unfold makeRoom at h
  split at h
  · cases h
  split at h
  · rename_i hfree
    cases h
    exact ⟨hfree, .free hfree rfl rfl⟩
  · rename_i hfull
    obtain ⟨x, hx, heq⟩ := Option.map_eq_some_iff.mp h
    cases heq
    obtain ⟨a, b, rfl, ha, hpx, herase⟩ := eraseP_of_find? hx
    refine ⟨?_, .evict (by omega) a b x rfl ha hpx herase rfl⟩
    rw [List.length_append, List.length_cons] at hle
    rw [herase, List.length_append]
    omega

theorem makeRoom_eq_none (hroom : 0 < room) (hle : q.length ≤ room) :
    makeRoom room evictable q = none ↔ (q.filter fun x => !evictable x).length = room := by
  have hfilter : (q.filter fun x => !evictable x).length ≤ q.length := List.length_filter_le _ _
  unfold makeRoom
  rw [if_neg (Nat.ne_of_gt hroom)]
  split
  · rename_i hlt
    simp only [reduceCtorEq, false_iff]
    omega
  · rename_i hfull
    have hlen : q.length = room := by omega
    rw [Option.map_eq_none_iff, List.find?_eq_none, ← hlen, List.length_filter_eq_length_iff]
    simp

theorem Room.perm (h : Room room evictable q kept gone) : q.Perm (kept ++ gone) := by
  cases h with
  | free hfree hkept hgone => simp [hkept, hgone]
  | evict hfull a b x hq ha hx hkept hgone =>
    subst hq hkept hgone
    rw [List.append_assoc]
    exact (List.perm_append_left_iff a).mpr (List.perm_append_singleton x b).symm

theorem Room.sublist (h : Room room evictable q kept gone) : kept.Sublist q := by
  cases h with
  | free hfree hkept hgone => exact hkept ▸ List.Sublist.refl _
  | evict hfull a b x hq ha hx hkept hgone =>
    subst hq hkept
    exact (List.Sublist.refl a).append (List.sublist_cons_self x b)

theorem Room.evictable_of_mem (h : Room room evictable q kept gone) (hx : x ∈ gone) :
    evictable x = true := by
  cases h with
  | free hfree hkept hgone =>
    subst hgone
    cases hx
  | evict hfull a b y hq ha hy hkept hgone =>
    subst hgone
    exact List.mem_singleton.mp hx ▸ hy

end

structure Log.Balanced (room : ℕ) (evictable : α → Bool) (l : Log α) : Prop where
  length_le : l.held.length ≤ room
  order : l.held.Sublist l.accepted
  balance : l.accepted.Perm (l.held ++ (l.evicted ++ l.taken))
  evictable_of_mem : ∀ x ∈ l.evicted, evictable x = true

namespace Log

variable {room : ℕ} {evictable : α → Bool} {l : Log α}

theorem balanced_empty (room : ℕ) (evictable : α → Bool) :
    Balanced room evictable ({} : Log α) where
  length_le := Nat.zero_le room
  order := List.Sublist.refl _
  balance := List.Perm.refl _
  evictable_of_mem x hx := by cases hx

theorem Balanced.take (h : Balanced room evictable l) {kept gone : List α}
    (hsub : kept.Sublist l.held) (hperm : l.held.Perm (kept ++ gone)) :
    Balanced room evictable (l.take kept gone) where
  length_le := Nat.le_trans hsub.length_le h.length_le
  order := hsub.trans h.order
  balance := by
    refine h.balance.trans ((hperm.append_right _).trans ?_)
    show (kept ++ gone ++ (l.evicted ++ l.taken)).Perm (kept ++ (l.evicted ++ (l.taken ++ gone)))
    rw [List.append_assoc, List.perm_append_left_iff, ← List.append_assoc l.evicted]
    exact List.perm_append_comm
  evictable_of_mem := h.evictable_of_mem

theorem Balanced.push (h : Balanced room evictable l) (x : α) :
    Balanced room evictable (l.push room evictable x) := by
  unfold Log.push
  split
  · exact h
  · rename_i kept gone hroom
    obtain ⟨hlt, hmade⟩ := makeRoom_eq_some h.length_le hroom
    refine ⟨?_, ?_, ?_, ?_⟩
    · rw [List.length_append, List.length_singleton]
      exact hlt
    · exact (hmade.sublist.trans h.order).append (List.Sublist.refl _)
    · classical
      rw [List.perm_iff_count]
      intro y
      have hbalance := h.balance.count_eq y
      have hgone := hmade.perm.count_eq y
      simp only [List.count_append] at hbalance hgone ⊢
      omega
    · intro y hy
      rcases List.mem_append.mp hy with hy | hy
      · exact h.evictable_of_mem y hy
      · exact hmade.evictable_of_mem hy

theorem Balanced.step (h : Balanced room evictable l) (op : Op α) :
    Balanced room evictable (l.step room evictable op) := by
  cases op with
  | push x => exact h.push x
  | pop =>
    apply h.take (List.tail_sublist _)
    cases hq : l.held with
    | nil => exact List.Perm.refl _
    | cons x q => exact (List.perm_append_singleton x q).symm
  | popLast =>
    apply h.take (List.dropLast_sublist _)
    cases hq : l.held.getLast? with
    | none =>
      rw [List.getLast?_eq_none_iff.mp hq]
      exact List.Perm.refl _
    | some x =>
      obtain ⟨q, hq⟩ := List.getLast?_eq_some_iff.mp hq
      rw [hq]
      simp
  | remove p =>
    apply h.take List.eraseP_sublist
    cases hq : l.held.find? p with
    | none =>
      rw [List.eraseP_of_forall_not fun x hx => List.find?_eq_none.mp hq x hx]
      simp
    | some x =>
      obtain ⟨a, b, hheld, -, -, herase⟩ := eraseP_of_find? hq
      rw [herase, hheld, List.append_assoc]
      exact (List.perm_append_left_iff a).mpr (List.perm_append_singleton x b).symm
  | clear => exact h.take (List.nil_sublist _) (List.Perm.refl _)

theorem Balanced.held_eq [DecidableEq α] (h : Balanced room evictable l) (hn : l.accepted.Nodup) :
    l.held = l.accepted.filter fun x => x ∉ l.evicted ++ l.taken := by
  have hdisjoint : ∀ x ∈ l.held, x ∉ l.evicted ++ l.taken := by
    intro x hx hleft
    exact (List.nodup_append.mp (h.balance.nodup_iff.mp hn)).2.2 x hx x hleft rfl
  have hheld : l.held.filter (fun x => x ∉ l.evicted ++ l.taken) = l.held :=
    List.filter_eq_self.mpr fun x hx => decide_eq_true (hdisjoint x hx)
  have hleft : (l.evicted ++ l.taken).filter (fun x => x ∉ l.evicted ++ l.taken) = [] :=
    List.filter_eq_nil_iff.mpr fun x hx => by simp [hx]
  have hlength := (h.balance.filter fun x => x ∉ l.evicted ++ l.taken).length_eq
  rw [List.filter_append, hheld, hleft, List.append_nil] at hlength
  have hsub := h.order.filter fun x => x ∉ l.evicted ++ l.taken
  rw [hheld] at hsub
  exact hsub.eq_of_length hlength.symm

theorem Balanced.mem_of_protected (h : Balanced room evictable l) {x : α} (hx : x ∈ l.accepted)
    (hp : evictable x = false) : x ∈ l.held ∨ x ∈ l.taken := by
  have hmem := h.balance.subset hx
  rcases List.mem_append.mp hmem with hheld | hleft
  · exact Or.inl hheld
  rcases List.mem_append.mp hleft with hevicted | htaken
  · exact absurd (h.evictable_of_mem x hevicted) (by simp [hp])
  · exact Or.inr htaken

end Log

end OpenHop.ProtectedQueue
