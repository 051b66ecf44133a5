import Mathlib.Data.List.Basic
import Mathlib.Data.List.Induction

/-! # Runs of a step function

A machine is given by a step function that may refuse an action. A run is a list
of actions none of which is refused. What one step keeps, a run keeps.
-/

namespace OpenHop.Machine

variable {σ α : Type*} {step : σ → α → Option σ} {s t u : σ} {as bs : List α}

/-- The state after a list of actions, unless one of them is refused. -/
def run (step : σ → α → Option σ) (s : σ) : List α → Option σ
  | [] => some s
  | a :: as => (step s a).bind fun t => run step t as

theorem run_cons_eq_some {a : α} :
    run step s (a :: as) = some u ↔ ∃ t, step s a = some t ∧ run step t as = some u :=
  Option.bind_eq_some_iff

theorem run_invariant_of_mem {I : σ → Prop}
    (hstep : ∀ s, ∀ a ∈ as, ∀ t, I s → step s a = some t → I t)
    (hs : I s) (h : run step s as = some t) : I t := by
  induction as generalizing s with
  | nil => exact Option.some.inj h ▸ hs
  | cons a as ih =>
    obtain ⟨v, hv, ht⟩ := run_cons_eq_some.mp h
    exact ih (fun s b hb => hstep s b (List.mem_cons_of_mem a hb))
      (hstep s a List.mem_cons_self v hs hv) ht

theorem run_invariant {I : σ → Prop} (hstep : ∀ s a t, I s → step s a = some t → I t)
    (hs : I s) (h : run step s as = some t) : I t :=
  run_invariant_of_mem (fun s a _ => hstep s a) hs h

/-- Every action of a run is taken in a state that allows it. -/
def Along (step : σ → α → Option σ) (ok : σ → α → Prop) (s : σ) : List α → Prop
  | [] => True
  | a :: as => ok s a ∧ ∀ t, step s a = some t → Along step ok t as

theorem Along.cons {ok : σ → α → Prop} {a : α} (hok : ok s a) (hstep : step s a = some t)
    (h : Along step ok t as) : Along step ok s (a :: as) := by
  refine ⟨hok, fun u hu => ?_⟩
  cases hstep.symm.trans hu
  exact h

instance Along.decidable {ok : σ → α → Prop} [∀ s a, Decidable (ok s a)] :
    (s : σ) → (as : List α) → Decidable (Along step ok s as)
  | _, [] => isTrue trivial
  | s, a :: as =>
    match h : step s a with
    | none => decidable_of_iff (ok s a) (by simp [Along, h])
    | some t =>
      have : Decidable (Along step ok t as) := Along.decidable t as
      decidable_of_iff (ok s a ∧ Along step ok t as) (by simp [Along, h])

theorem Along.imp {ok ok' : σ → α → Prop} (himp : ∀ s a, ok s a → ok' s a)
    (h : Along step ok s as) : Along step ok' s as := by
  induction as generalizing s with
  | nil => trivial
  | cons a as ih => exact ⟨himp s a h.1, fun t ht => ih (h.2 t ht)⟩

theorem run_invariant_of_along {ok : σ → α → Prop} {I : σ → Prop}
    (hstep : ∀ s a t, ok s a → I s → step s a = some t → I t) (hs : I s)
    (hok : Along step ok s as) (h : run step s as = some t) : I t := by
  induction as generalizing s with
  | nil => exact Option.some.inj h ▸ hs
  | cons a as ih =>
    obtain ⟨v, hv, ht⟩ := run_cons_eq_some.mp h
    exact ih (hstep s a v hok.1 hs hv) (hok.2 v hv) ht

theorem forall_prefix_cons_iff {P : List α → Prop} {a : α} :
    (∀ bs, bs <+: a :: as → P bs) ↔ P [] ∧ ∀ bs, bs <+: as → P (a :: bs) := by
  constructor
  · intro h
    exact ⟨h [] List.nil_prefix, fun bs hbs => h (a :: bs) (List.cons_prefix_cons.mpr ⟨rfl, hbs⟩)⟩
  · rintro ⟨hnil, hcons⟩ bs hbs
    cases bs with
    | nil => exact hnil
    | cons b bs =>
      obtain ⟨rfl, hrest⟩ := List.cons_prefix_cons.mp hbs
      exact hcons bs hrest

theorem forall_prefix_nil_iff {P : List α → Prop} : (∀ bs, bs <+: [] → P bs) ↔ P [] := by
  simp

theorem forall_snoc_prefix_cons_iff {P : List α → α → Prop} {a : α} :
    (∀ bs b, bs ++ [b] <+: a :: as → P bs b) ↔
      P [] a ∧ ∀ bs b, bs ++ [b] <+: as → P (a :: bs) b := by
  constructor
  · intro h
    exact ⟨h [] a ⟨as, rfl⟩,
      fun bs b hbs => h (a :: bs) b (List.cons_prefix_cons.mpr ⟨rfl, hbs⟩)⟩
  · rintro ⟨hnil, hcons⟩ bs b hbs
    cases bs with
    | nil =>
      obtain ⟨rfl, -⟩ := List.cons_prefix_cons.mp hbs
      exact hnil
    | cons c bs =>
      obtain ⟨rfl, hrest⟩ := List.cons_prefix_cons.mp hbs
      exact hcons bs b hrest

theorem forall_snoc_prefix_nil {P : List α → α → Prop} : ∀ bs b, bs ++ [b] <+: [] → P bs b := by
  intro bs b hbs
  simp at hbs

/-- Where a step between states of a kind keeps an invariant exactly if its action does no harm,
all states of a run through such states have the invariant exactly if none of its actions does
harm. -/
theorem forall_prefix_foldl_iff_of {f : σ → α → σ} {I J : σ → Prop} {harms : σ → α → Prop}
    (hstep : ∀ s a, J s → J (f s a) → I s → (I (f s a) ↔ ¬ harms s a)) (hs : I s) {as : List α}
    (hJ : ∀ bs, bs <+: as → J (bs.foldl f s)) :
    (∀ bs, bs <+: as → I (bs.foldl f s)) ↔
      ∀ bs a, bs ++ [a] <+: as → ¬ harms (bs.foldl f s) a := by
  have hone : ∀ bs a, bs ++ [a] <+: as → I (bs.foldl f s) →
      (I ((bs ++ [a]).foldl f s) ↔ ¬ harms (bs.foldl f s) a) := by
    intro bs a hbs hbefore
    have hafter := hJ (bs ++ [a]) hbs
    rw [List.foldl_append] at hafter ⊢
    exact hstep _ a (hJ bs ((List.prefix_append bs [a]).trans hbs)) hafter hbefore
  constructor
  · intro h bs a hbs
    exact (hone bs a hbs (h bs ((List.prefix_append bs [a]).trans hbs))).mp (h _ hbs)
  · intro h bs hbs
    induction bs using List.reverseRecOn with
    | nil => exact hs
    | append_singleton bs a ih =>
      exact (hone bs a hbs (ih ((List.prefix_append bs [a]).trans hbs))).mpr (h bs a hbs)

/-- Where moreover what is lost stays lost, the last state of a run tells whether there was harm. -/
theorem foldl_iff_of {f : σ → α → σ} {I J : σ → Prop} {H : σ → α → Prop}
    (hstep : ∀ s a, J s → J (f s a) → I s → (I (f s a) ↔ ¬ H s a))
    (hlost : ∀ s a, J s → J (f s a) → I (f s a) → I s) (hs : I s) {as : List α}
    (hJ : ∀ bs, bs <+: as → J (bs.foldl f s)) :
    I (as.foldl f s) ↔ ∀ bs a, bs ++ [a] <+: as → ¬ H (bs.foldl f s) a := by
  rw [← forall_prefix_foldl_iff_of hstep hs hJ]
  refine ⟨fun hlast => ?_, fun h => h as (List.prefix_refl as)⟩
  rintro bs ⟨cs, rfl⟩
  induction cs using List.reverseRecOn with
  | nil => simpa using hlast
  | append_singleton cs a ih =>
    have hbefore : bs ++ cs <+: bs ++ (cs ++ [a]) := ⟨[a], by simp⟩
    refine ih (fun ds hds => hJ ds (hds.trans hbefore)) ?_
    have hlater := hJ _ (List.prefix_refl _)
    rw [← List.append_assoc, List.foldl_append] at hlast hlater
    exact hlost _ a (hJ _ hbefore) hlater hlast

/-- Where a step keeps an invariant exactly if its action does no harm, all states of a run have
the invariant exactly if none of its actions does harm. -/
theorem forall_prefix_foldl_iff {f : σ → α → σ} {I : σ → Prop} {harms : σ → α → Prop}
    (hstep : ∀ s a, I s → (I (f s a) ↔ ¬ harms s a)) (hs : I s) (as : List α) :
    (∀ bs, bs <+: as → I (bs.foldl f s)) ↔
      ∀ bs a, bs ++ [a] <+: as → ¬ harms (bs.foldl f s) a :=
  forall_prefix_foldl_iff_of (J := fun _ => True) (fun s a _ _ => hstep s a) hs
    fun _ _ => trivial

end OpenHop.Machine
