import Mathlib.Data.List.Range
import Mathlib.Order.Lattice

/-! # Queues with two consumers

Entries wait in a queue with limited room, each until a due time. One consumer brings a
value and pairs it with the oldest entry, the other delivers the entries at the front that
are due, without a value. Entries are delivered in the order in which they were accepted.
-/

namespace OpenHop.PairingQueue

variable {α β τ : Type*}

inductive Op (α β τ : Type*) where
  | push (x : α) (due : τ)
  | pair (y : β)
  | expire (now : τ)

def pushed (ops : List (Op α β τ)) : List (α × τ) :=
  ops.filterMap fun
    | .push x due => some (x, due)
    | _ => none

def paired (ops : List (Op α β τ)) : List β :=
  ops.filterMap fun
    | .pair y => some y
    | _ => none

@[simp] theorem pushed_append (ops ops' : List (Op α β τ)) :
    pushed (ops ++ ops') = pushed ops ++ pushed ops' :=
  List.filterMap_append

@[simp] theorem paired_append (ops ops' : List (Op α β τ)) :
    paired (ops ++ ops') = paired ops ++ paired ops' :=
  List.filterMap_append

@[simp] theorem pushed_push (x : α) (due : τ) :
    pushed [(.push x due : Op α β τ)] = [(x, due)] := rfl

@[simp] theorem pushed_pair (y : β) : pushed [(.pair y : Op α β τ)] = [] := rfl

@[simp] theorem pushed_expire (now : τ) : pushed [(.expire now : Op α β τ)] = [] := rfl

@[simp] theorem paired_push (x : α) (due : τ) : paired [(.push x due : Op α β τ)] = [] := rfl

@[simp] theorem paired_pair (y : β) : paired [(.pair y : Op α β τ)] = [y] := rfl

@[simp] theorem paired_expire (now : τ) : paired [(.expire now : Op α β τ)] = [] := rfl

theorem concat_prefix_concat_iff {γ : Type*} {as bs : List γ} {a b : γ} :
    as ++ [a] <+: bs ++ [b] ↔ (as = bs ∧ a = b) ∨ as ++ [a] <+: bs := by
  rw [List.prefix_concat_iff, ← List.concat_eq_append, ← List.concat_eq_append, List.concat_inj]

section Numbers

variable {num : α → ℕ} {num' : β → ℕ} {ops : List (Op α β τ)} {op : Op α β τ}

/-- Entries and values are numbered in the order in which they come, and no value comes before
the entry of its number. -/
structure Numbered (num : α → ℕ) (num' : β → ℕ) (ops : List (Op α β τ)) : Prop where
  pushes : (pushed ops).map (fun e => num e.1) = List.range (pushed ops).length
  pairs : (paired ops).map num' = List.range (paired ops).length
  order : ∀ pre, pre <+: ops → (paired pre).length ≤ (pushed pre).length

theorem Numbered.of_append_singleton (h : Numbered num num' (ops ++ [op])) :
    Numbered num num' ops := by
  have hprefix : ops <+: ops ++ [op] := List.prefix_append _ _
  refine ⟨?_, ?_, fun pre hpre => h.order pre (hpre.trans hprefix)⟩
  · have hp := congrArg (List.take (pushed ops).length) h.pushes
    simpa [List.take_range] using hp
  · have hp := congrArg (List.take (paired ops).length) h.pairs
    simpa [List.take_range] using hp

theorem Numbered.push {x : α} {due : τ} (h : Numbered num num' (ops ++ [.push x due])) :
    num x = (pushed ops).length := by
  have hp := congrArg (fun xs => xs[(pushed ops).length]?) h.pushes
  simpa using hp

theorem Numbered.pair {y : β} (h : Numbered num num' (ops ++ [.pair y])) :
    num' y = (paired ops).length := by
  have hp := congrArg (fun xs => xs[(paired ops).length]?) h.pairs
  simpa using hp

end Numbers

/-- The queue with a record of what went in and out. -/
structure Log (α β τ : Type*) where
  held : List (α × τ) := []
  accepted : List (α × τ) := []
  delivered : List (α × Option β) := []
  refused : ℕ := 0

variable [LinearOrder τ]

def isDue (now : τ) (entry : α × τ) : Bool := decide (entry.2 ≤ now)

def Log.step (room : ℕ) (l : Log α β τ) : Op α β τ → Log α β τ
  | .push x due =>
    if l.held.length < room then
      { l with held := l.held ++ [(x, due)], accepted := l.accepted ++ [(x, due)] }
    else { l with refused := l.refused + 1 }
  | .pair y =>
    match l.held with
    | [] => l
    | entry :: rest =>
      { l with held := rest, delivered := l.delivered ++ [(entry.1, some y)] }
  | .expire now =>
    { l with
      held := l.held.dropWhile (isDue now)
      delivered := l.delivered ++ (l.held.takeWhile (isDue now)).map fun e => (e.1, none) }

def run (room : ℕ) (ops : List (Op α β τ)) : Log α β τ := ops.foldl (Log.step room) {}

variable {room : ℕ} {ops pre : List (Op α β τ)} {l : Log α β τ} {op : Op α β τ}

@[simp] theorem run_append_singleton : run room (ops ++ [op]) = (run room ops).step room op :=
  List.foldl_append

/-- What was accepted is what was delivered, followed by what is held. -/
structure Kept (room : ℕ) (l : Log α β τ) : Prop where
  accepted : ∃ gone, l.accepted = gone ++ l.held ∧ gone.map Prod.fst = l.delivered.map Prod.fst
  room : l.held.length ≤ room

theorem Kept.step (h : Kept room l) (op : Op α β τ) : Kept room (l.step room op) := by
  obtain ⟨⟨gone, hgone, hmap⟩, hroom⟩ := h
  cases op with
  | push x due =>
    simp only [Log.step]
    split
    · rename_i hfree
      refine ⟨⟨gone, by rw [hgone, List.append_assoc], hmap⟩, ?_⟩
      rw [List.length_append, List.length_singleton]
      exact hfree
    · exact ⟨⟨gone, hgone, hmap⟩, hroom⟩
  | pair y =>
    simp only [Log.step]
    split
    · exact ⟨⟨gone, hgone, hmap⟩, hroom⟩
    · rename_i entry rest hheld
      rw [hheld] at hgone hroom
      refine ⟨⟨gone ++ [entry], ?_, ?_⟩, ?_⟩
      · rw [hgone, List.append_assoc, List.singleton_append]
      · simp [hmap]
      · exact (Nat.le_succ _).trans hroom
  | expire now =>
    refine ⟨⟨gone ++ l.held.takeWhile (isDue now), ?_, ?_⟩, ?_⟩
    · simp [Log.step, hgone]
    · simp [Log.step, hmap, Function.comp_def]
    · exact (List.dropWhile_suffix _).length_le.trans hroom

theorem kept_run (room : ℕ) (ops : List (Op α β τ)) : Kept room (run room ops) := by
  induction ops using List.reverseRecOn with
  | nil => exact ⟨⟨[], rfl, rfl⟩, Nat.zero_le _⟩
  | append_singleton ops op ih =>
    rw [run_append_singleton]
    exact ih.step op

theorem run_delivered_append_held (room : ℕ) (ops : List (Op α β τ)) :
    (run room ops).accepted.map Prod.fst =
      (run room ops).delivered.map Prod.fst ++ (run room ops).held.map Prod.fst := by
  obtain ⟨gone, hgone, hmap⟩ := (kept_run room ops).accepted
  rw [hgone, List.map_append, hmap]

theorem step_accepted (room : ℕ) (l : Log α β τ) (op : Op α β τ) :
    ∃ new, (l.step room op).accepted = l.accepted ++ new ∧ new.Sublist (pushed [op]) ∧
      new.length + (l.step room op).refused = (pushed [op]).length + l.refused := by
  cases op with
  | push x due =>
    simp only [Log.step]
    split
    · exact ⟨[(x, due)], rfl, List.Sublist.refl _, rfl⟩
    · exact ⟨[], (List.append_nil _).symm, List.nil_sublist _, by simp [Nat.add_comm]⟩
  | pair y =>
    refine ⟨[], ?_, List.nil_sublist _, ?_⟩ <;> simp only [Log.step] <;> split <;> simp
  | expire now => exact ⟨[], (List.append_nil _).symm, List.nil_sublist _, rfl⟩

theorem run_accepted (room : ℕ) (ops : List (Op α β τ)) :
    (run room ops).accepted.Sublist (pushed ops) ∧
      (run room ops).accepted.length + (run room ops).refused = (pushed ops).length := by
  induction ops using List.reverseRecOn with
  | nil => exact ⟨List.Sublist.refl _, rfl⟩
  | append_singleton ops op ih =>
    obtain ⟨new, haccepted, hsub, hcount⟩ := step_accepted room (run room ops) op
    rw [run_append_singleton, pushed_append, haccepted]
    refine ⟨ih.1.append hsub, ?_⟩
    simp only [List.length_append]
    omega

theorem lt_of_mem_dropWhile_isDue {now : τ} {entries : List (α × τ)}
    (hsorted : entries.Pairwise fun a b => a.2 ≤ b.2) :
    ∀ e ∈ entries.dropWhile (isDue now), now < e.2 := by
  induction entries with
  | nil => simp
  | cons a entries ih =>
    obtain ⟨hhead, htail⟩ := List.pairwise_cons.mp hsorted
    rw [List.dropWhile_cons]
    split
    · exact ih htail
    · rename_i hnot
      have ha : now < a.2 := by simpa [isDue] using hnot
      intro e he
      rcases List.mem_cons.mp he with rfl | he
      · exact ha
      · exact ha.trans_le (hhead e he)

theorem delivered_of_due {now : τ} {i : ℕ} {e : α × τ}
    (hsorted : (pushed ops).Pairwise fun a b => a.2 ≤ b.2)
    (hi : (run room (ops ++ [.expire now])).accepted[i]? = some e) (hdue : e.2 ≤ now) :
    i < (run room (ops ++ [.expire now])).delivered.length := by
  obtain ⟨gone, hgone, hmap⟩ := (kept_run room (ops ++ [.expire now])).accepted
  have hlen : gone.length = (run room (ops ++ [.expire now])).delivered.length := by
    simpa using congrArg List.length hmap
  rw [← hlen]
  by_contra hge
  have hheld : (run room ops).held.Pairwise fun a b => a.2 ≤ b.2 := by
    obtain ⟨before, hbefore, -⟩ := (kept_run room ops).accepted
    have hall := hsorted.sublist (run_accepted room ops).1
    rw [hbefore] at hall
    exact (List.pairwise_append.mp hall).2.1
  have hmem : e ∈ (run room (ops ++ [.expire now])).held := by
    rw [hgone, List.getElem?_append_right (not_lt.mp hge)] at hi
    exact List.mem_of_getElem? hi
  rw [run_append_singleton] at hmem
  exact absurd hdue (lt_of_mem_dropWhile_isDue hheld e hmem).not_ge

section Numbers

variable {num : α → ℕ} {num' : β → ℕ}

theorem Numbered.held (room : ℕ) (h : Numbered num num' ops) :
    (run room ops).held.Pairwise fun a b => num a.1 < num b.1 := by
  have hall : (pushed ops).Pairwise fun a b => num a.1 < num b.1 := by
    rw [← List.pairwise_map (f := fun e : α × τ => num e.1), h.pushes]
    exact List.pairwise_lt_range
  obtain ⟨gone, hgone, -⟩ := (kept_run room ops).accepted
  have haccepted := hall.sublist (run_accepted room ops).1
  rw [hgone] at haccepted
  exact (List.pairwise_append.mp haccepted).2.1

/-- A value that finds entries waiting finds the entry of its number among them. -/
def Timely (room : ℕ) (num : α → ℕ) (num' : β → ℕ) (ops : List (Op α β τ)) : Prop :=
  ∀ pre y, pre ++ [.pair y] <+: ops →
    (run room pre).held = [] ∨ ∃ e ∈ (run room pre).held, num e.1 = num' y

theorem timely_append_singleton : Timely room num num' (ops ++ [op]) ↔
    Timely room num num' ops ∧ ∀ y, op = .pair y →
      (run room ops).held = [] ∨ ∃ e ∈ (run room ops).held, num e.1 = num' y := by
  constructor
  · intro h
    refine ⟨fun pre y hpre => h pre y (hpre.trans (List.prefix_append _ _)), ?_⟩
    rintro y rfl
    exact h ops y List.prefix_rfl
  · rintro ⟨hbefore, hlast⟩ pre y hpre
    rcases concat_prefix_concat_iff.mp hpre with ⟨rfl, hop⟩ | hpre
    · exact hlast y hop.symm
    · exact hbefore pre y hpre

/-- Every value delivered belongs to the entry it is delivered with. -/
def Own (num : α → ℕ) (num' : β → ℕ) (l : Log α β τ) : Prop :=
  ∀ x y, (x, some y) ∈ l.delivered → num x = num' y

theorem delivered_prefix_step (l : Log α β τ) (op : Op α β τ) :
    l.delivered <+: (l.step room op).delivered := by
  cases op with
  | push x due =>
    simp only [Log.step]
    split <;> exact List.prefix_rfl
  | pair y =>
    simp only [Log.step]
    split
    · exact List.prefix_rfl
    · exact List.prefix_append _ _
  | expire now => exact List.prefix_append _ _

theorem delivered_prefix_run (h : pre <+: ops) :
    (run room pre).delivered <+: (run room ops).delivered := by
  obtain ⟨rest, rfl⟩ := h
  induction rest using List.reverseRecOn with
  | nil => simp
  | append_singleton rest op ih =>
    rw [← List.append_assoc, run_append_singleton]
    exact ih.trans (delivered_prefix_step _ op)

theorem own_of_timely (hnum : Numbered num num' ops) (htimely : Timely room num num' ops) :
    Own num num' (run room ops) ∧
      ∀ e ∈ (run room ops).held, (paired ops).length ≤ num e.1 := by
  induction ops using List.reverseRecOn with
  | nil => exact ⟨fun _ _ h => (by cases h), fun _ h => (by cases h)⟩
  | append_singleton ops op ih =>
    have hprefix : ops <+: ops ++ [op] := List.prefix_append _ _
    have hnum' := hnum.of_append_singleton
    obtain ⟨hown, hheld⟩ := ih hnum' fun pre y hpre => htimely pre y (hpre.trans hprefix)
    rw [run_append_singleton]
    cases op with
    | push x due =>
      have hx := hnum.push
      have horder := hnum'.order ops List.prefix_rfl
      simp only [Log.step]
      split
      · refine ⟨hown, fun e he => ?_⟩
        simp only [paired_append, paired_push, List.append_nil]
        rcases List.mem_append.mp he with he | he
        · exact hheld e he
        · obtain rfl := List.mem_singleton.mp he
          exact horder.trans hx.ge
      · exact ⟨hown, by simpa using hheld⟩
    | pair y =>
      have hy := hnum.pair
      simp only [Log.step]
      split
      · rename_i hnone
        exact ⟨hown, by simp [hnone]⟩
      · rename_i entry rest hcons
        have hsorted := hnum'.held room
        rw [hcons] at hsorted hheld
        obtain ⟨hfirst, -⟩ := List.pairwise_cons.mp hsorted
        -- all numbers here are at least that of the value, and the front is the smallest
        have hentry : num entry.1 = num' y := by
          rcases htimely ops y List.prefix_rfl with hnone | ⟨e, he, hey⟩
          · rw [hcons] at hnone
            cases hnone
          · rw [hcons] at he
            rcases List.mem_cons.mp he with rfl | he
            · exact hey
            · have h₁ := hfirst e he
              have h₂ := hheld entry List.mem_cons_self
              omega
        constructor
        · intro x z hxz
          rcases List.mem_append.mp hxz with hxz | hxz
          · exact hown x z hxz
          · obtain ⟨rfl, hz⟩ := Prod.mk.inj (List.mem_singleton.mp hxz)
            rw [Option.some.inj hz]
            exact hentry
        · intro e he
          have := hfirst e he
          simp only [paired_append, paired_pair, List.length_append, List.length_singleton]
          omega
    | expire now =>
      refine ⟨fun x y hxy => ?_, fun e he => ?_⟩
      · rcases List.mem_append.mp hxy with hxy | hxy
        · exact hown x y hxy
        · obtain ⟨_, -, heq⟩ := List.mem_map.mp hxy
          cases (Prod.mk.inj heq).2
      · simpa using hheld e ((List.dropWhile_suffix _).subset he)

theorem own_iff_timely (room : ℕ) (hnum : Numbered num num' ops) :
    Own num num' (run room ops) ↔ Timely room num num' ops := by
  constructor
  · intro hown pre y hpre
    cases hheld : (run room pre).held with
    | nil => exact Or.inl rfl
    | cons entry rest =>
      refine Or.inr ⟨entry, List.mem_cons_self, hown entry.1 y ?_⟩
      refine (delivered_prefix_run hpre).subset ?_
      simp [Log.step, hheld]
  · intro htimely
    exact (own_of_timely hnum htimely).1

end Numbers

end OpenHop.PairingQueue
