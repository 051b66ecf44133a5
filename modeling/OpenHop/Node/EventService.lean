import OpenHop.Data.Dict
import OpenHop.Machine.Cursor
import OpenHop.Machine.Runs

/-! # The event service

A publication goes through the subscribers of its event type and then through the global
ones, in the very lists that they are registered in, and is suspended while each of them
handles the event.
-/

namespace OpenHop

variable {ε σ : Type} [DecidableEq ε]

structure EventService (ε σ : Type) where
  subscribers : Dict ε (List σ) := Dict.empty
  globalSubscribers : List σ := []

namespace EventService

inductive Registration (ε σ : Type) where
  | subscribe (eventType : ε) (subscriber : σ)
  | subscribeAll (subscriber : σ)
  | unsubscribe (eventType : ε) (subscriber : σ)
  | unsubscribeAll (subscriber : σ)

def subscribe (s : EventService ε σ) (eventType : ε) (subscriber : σ) : EventService ε σ :=
  { s with subscribers :=
      s.subscribers.set eventType ((s.subscribers.get? eventType).getD [] ++ [subscriber]) }

def subscribeAll (s : EventService ε σ) (subscriber : σ) : EventService ε σ :=
  { s with globalSubscribers := s.globalSubscribers ++ [subscriber] }

section

variable [DecidableEq σ]

/-- `list.remove` takes out the first entry, and none where there is none. -/
def unsubscribe (s : EventService ε σ) (eventType : ε) (subscriber : σ) : EventService ε σ :=
  match s.subscribers.get? eventType with
  | none => s
  | some list => { s with subscribers := s.subscribers.set eventType (list.erase subscriber) }

def unsubscribeAll (s : EventService ε σ) (subscriber : σ) : EventService ε σ :=
  { s with globalSubscribers := s.globalSubscribers.erase subscriber }

def register (s : EventService ε σ) : Registration ε σ → EventService ε σ
  | .subscribe eventType subscriber => s.subscribe eventType subscriber
  | .subscribeAll subscriber => s.subscribeAll subscriber
  | .unsubscribe eventType subscriber => s.unsubscribe eventType subscriber
  | .unsubscribeAll subscriber => s.unsubscribeAll subscriber

end

def specific (s : EventService ε σ) (eventType : ε) : List σ :=
  (s.subscribers.get? eventType).getD []

def Registration.list : Registration ε σ → Option ε
  | .subscribe eventType _ => some eventType
  | .unsubscribe eventType _ => some eventType
  | .subscribeAll _ => none
  | .unsubscribeAll _ => none

def Registration.edit : Registration ε σ → Machine.Edit σ
  | .subscribe _ subscriber => .append subscriber
  | .subscribeAll subscriber => .append subscriber
  | .unsubscribe _ subscriber => .remove subscriber
  | .unsubscribeAll subscriber => .remove subscriber

variable [DecidableEq σ]

theorem specific_register (s : EventService ε σ) (r : Registration ε σ) (eventType : ε) :
    (s.register r).specific eventType =
      if r.list = some eventType then r.edit.apply (s.specific eventType)
      else s.specific eventType := by
  cases r with
  | subscribe e subscriber =>
    by_cases he : e = eventType
    · simp [register, subscribe, specific, Registration.list, Registration.edit, Machine.Edit.apply,
        he]
    · simp [register, subscribe, specific, Registration.list, he, Ne.symm he]
  | unsubscribe e subscriber =>
    by_cases he : e = eventType
    · subst he
      cases hget : s.subscribers.get? e with
      | none => simp [register, unsubscribe, specific, Registration.list, Registration.edit,
          Machine.Edit.apply, hget]
      | some list => simp [register, unsubscribe, specific, Registration.list, Registration.edit,
          Machine.Edit.apply, hget]
    · cases hget : s.subscribers.get? e with
      | none => simp [register, unsubscribe, specific, Registration.list, he, hget]
      | some list => simp [register, unsubscribe, specific, Registration.list, he, Ne.symm he, hget]
  | subscribeAll subscriber => rfl
  | unsubscribeAll subscriber => rfl

theorem globalSubscribers_register (s : EventService ε σ) (r : Registration ε σ) :
    (s.register r).globalSubscribers =
      if r.list = none then r.edit.apply s.globalSubscribers else s.globalSubscribers := by
  cases r with
  | subscribe e subscriber => rfl
  | unsubscribe e subscriber =>
    rw [register, unsubscribe]
    split <;> rfl
  | subscribeAll subscriber => rfl
  | unsubscribeAll subscriber => rfl

end EventService

open EventService

/-- How `handle_event` ends. What is raised is caught if it is an `Exception`. -/
inductive HandlerOutcome where
  | returned
  | raised
  | interrupted
  deriving DecidableEq

/-- Where a publication is: the position that is read next, or the end. -/
inductive PublicationLoop where
  | specific (next : ℕ)
  | global (next : ℕ)
  | ended
  deriving DecidableEq

/-- A publication in the middle of a handler, with the subscribers called so far. -/
structure Publication (ε σ : Type) where
  service : EventService ε σ
  eventType : ε
  loop : PublicationLoop
  calls : List σ := []

/-- While a handler is suspended it, or another task, changes the registrations. -/
inductive PublicationStep (ε σ : Type) where
  | registers (r : Registration ε σ)
  | handled (outcome : HandlerOutcome)

namespace Publication

def notifyGlobal (p : Publication ε σ) (next : ℕ) : Publication ε σ :=
  match p.service.globalSubscribers[next]? with
  | some subscriber =>
    { p with loop := .global (next + 1), calls := p.calls ++ [subscriber] }
  | none => { p with loop := .ended }

/-- On to the next subscriber. -/
def resume (p : Publication ε σ) : Publication ε σ :=
  match p.loop with
  | .specific next =>
    match (p.service.specific p.eventType)[next]? with
    | some subscriber =>
      { p with loop := .specific (next + 1), calls := p.calls ++ [subscriber] }
    | none => p.notifyGlobal 0
  | .global next => p.notifyGlobal next
  | .ended => p

/-- `publish`, up to its first suspension. -/
def publish (service : EventService ε σ) (eventType : ε) : Publication ε σ :=
  resume { service, eventType, loop := .specific 0 }

/-- The registrations for the event type of the publication. -/
def registrations (p : Publication ε σ) : List σ :=
  p.service.specific p.eventType ++ p.service.globalSubscribers

theorem registrations_resume (p : Publication ε σ) : p.resume.registrations = p.registrations := by
  unfold resume notifyGlobal
  split
  · split
    · rfl
    · split <;> rfl
  · split <;> rfl
  · rfl

variable [DecidableEq σ]

def step (p : Publication ε σ) : PublicationStep ε σ → Publication ε σ
  | .registers r => { p with service := p.service.register r }
  | .handled .interrupted => { p with loop := .ended }
  | .handled .returned => p.resume
  | .handled .raised => p.resume

def run (p : Publication ε σ) (steps : List (PublicationStep ε σ)) : Publication ε σ :=
  steps.foldl step p

variable {p : Publication ε σ} {s : σ}

def PassedBy (p : Publication ε σ) (s : σ) : Prop :=
  match p.loop with
  | .specific next =>
    s ∈ p.service.specific p.eventType ∧ Machine.Passed (p.service.specific p.eventType) next s
  | .global next =>
    s ∈ p.service.specific p.eventType ∨ Machine.Passed p.service.globalSubscribers next s
  | .ended => True

/-- The subscriber is next and one in front of it is unsubscribed, or the publication is broken
off. -/
def PassesOver (p : Publication ε σ) (s : σ) : PublicationStep ε σ → Prop
  | .registers r =>
    (∃ next, p.loop = .specific next ∧ r.list = some p.eventType ∧
      s ∈ p.service.specific p.eventType ∧
      r.edit.Overtakes (p.service.specific p.eventType) next s) ∨
    ∃ next, p.loop = .global next ∧ r.list = none ∧ s ∈ p.service.globalSubscribers ∧
      r.edit.Overtakes p.service.globalSubscribers next s
  | .handled .interrupted => s ∉ p.calls
  | .handled _ => False

/-- What going on means for a subscriber: it is called and passed, or neither. -/
inductive Resumes (s : σ) (p p' : Publication ε σ) : Prop where
  | called (hbefore : ¬ p.PassedBy s) (hafter : p'.PassedBy s)
      (hcount : p'.calls.count s = p.calls.count s + 1)
  | left (hpassed : p'.PassedBy s ↔ p.PassedBy s) (hcount : p'.calls.count s = p.calls.count s)

theorem count_cases (h : p.registrations.count s = 1) :
    (p.service.specific p.eventType).count s = 1 ∧ s ∉ p.service.globalSubscribers ∨
      s ∉ p.service.specific p.eventType ∧ p.service.globalSubscribers.count s = 1 := by
  rw [registrations, List.count_append] at h
  rw [← List.count_eq_zero, ← List.count_eq_zero]
  omega

theorem mem_of_count {xs : List σ} (h : xs.count s = 1) : s ∈ xs :=
  List.count_pos_iff.mp (by omega)

theorem resumes_notifyGlobal (h : p.registrations.count s = 1) {next : ℕ}
    (hloop : p.loop = .global next) : Resumes s p (p.notifyGlobal next) := by
  have hbefore : p.PassedBy s ↔ s ∈ p.service.specific p.eventType ∨
      Machine.Passed p.service.globalSubscribers next s := by
    rw [PassedBy, hloop]
  unfold notifyGlobal
  split
  · rename_i subscriber hread
    rcases count_cases h with ⟨hspecific, hnot⟩ | ⟨hnot, hglobal⟩
    · have hmem := mem_of_count hspecific
      have hne : subscriber ≠ s := by
        rintro rfl
        exact hnot (List.mem_of_getElem? hread)
      refine .left ?_ (by simp [hne])
      rw [hbefore]
      exact iff_of_true (Or.inl hmem) (Or.inl hmem)
    · have hsucc := Machine.passed_succ_iff hglobal hread
      by_cases heq : subscriber = s
      · subst heq
        refine .called ?_ (Or.inr (hsucc.mpr (Or.inr rfl))) (by simp)
        rw [hbefore]
        rintro (hmem | hpassed)
        · exact hnot hmem
        · exact Machine.not_passed_of_getElem? hglobal hread hpassed
      · refine .left ?_ (by simp [heq])
        rw [hbefore]
        exact or_congr_right (hsucc.trans (or_iff_left heq))
  · rename_i hread
    refine .left (iff_of_true trivial ?_) rfl
    rw [hbefore]
    rcases count_cases h with ⟨hspecific, -⟩ | ⟨-, hglobal⟩
    · exact Or.inl (mem_of_count hspecific)
    · exact Or.inr (Machine.passed_of_getElem?_eq_none (mem_of_count hglobal) hread)

theorem resumes_resume (h : p.registrations.count s = 1) : Resumes s p p.resume := by
  unfold resume
  split
  · rename_i next hloop
    have hbefore : p.PassedBy s ↔ s ∈ p.service.specific p.eventType ∧
        Machine.Passed (p.service.specific p.eventType) next s := by
      rw [PassedBy, hloop]
    split
    · rename_i subscriber hread
      rcases count_cases h with ⟨hspecific, -⟩ | ⟨hnot, -⟩
      · have hmem := mem_of_count hspecific
        have hsucc := Machine.passed_succ_iff hspecific hread
        by_cases heq : subscriber = s
        · subst heq
          refine .called ?_ ⟨hmem, hsucc.mpr (Or.inr rfl)⟩ (by simp)
          rw [hbefore]
          exact fun hpassed => Machine.not_passed_of_getElem? hspecific hread hpassed.2
        · refine .left ?_ (by simp [heq])
          rw [hbefore]
          exact and_congr_right' (hsucc.trans (or_iff_left heq))
      · have hne : subscriber ≠ s := by
          rintro rfl
          exact hnot (List.mem_of_getElem? hread)
        refine .left ?_ (by simp [hne])
        rw [hbefore]
        exact iff_of_false (fun hpassed => hnot hpassed.1) fun hpassed => hnot hpassed.1
    · rename_i hread
      have hglobal := resumes_notifyGlobal (p := { p with loop := .global 0 }) h rfl
      have hsame : PassedBy { p with loop := .global 0 } s ↔ p.PassedBy s := by
        have hstart : ¬ Machine.Passed p.service.globalSubscribers 0 s := Nat.not_lt_zero _
        rw [hbefore, and_iff_left_of_imp fun hmem => Machine.passed_of_getElem?_eq_none hmem hread]
        exact or_iff_left hstart
      cases hglobal with
      | called hpassed hafter hcount => exact .called (hsame.not.mp hpassed) hafter hcount
      | left hpassed hcount => exact .left (hpassed.trans hsame) hcount
  · rename_i next hloop
    exact resumes_notifyGlobal h hloop
  · exact .left Iff.rfl rfl

theorem count_registers (h : p.registrations.count s = 1) {r : Registration ε σ}
    (h' : (p.step (.registers r)).registrations.count s = 1) :
    ((p.service.register r).specific p.eventType).count s =
        (p.service.specific p.eventType).count s ∧
      (p.service.register r).globalSubscribers.count s = p.service.globalSubscribers.count s := by
  simp only [step, registrations, List.count_append] at h h'
  rw [specific_register, globalSubscribers_register] at h' ⊢
  by_cases hlist : r.list = none
  · simp only [hlist, reduceCtorEq, if_false, if_true] at h' ⊢
    exact ⟨trivial, by omega⟩
  · simp only [hlist, if_false] at h' ⊢
    exact ⟨by omega, trivial⟩

theorem passedBy_registers (h : p.registrations.count s = 1) {r : Registration ε σ}
    (h' : (p.step (.registers r)).registrations.count s = 1) :
    (p.step (.registers r)).PassedBy s ↔ p.PassedBy s ∨ p.PassesOver s (.registers r) := by
  obtain ⟨hspecific, hglobal⟩ := count_registers h h'
  have hmem : s ∈ (p.service.register r).specific p.eventType ↔
      s ∈ p.service.specific p.eventType := by
    rw [← List.count_pos_iff, ← List.count_pos_iff, hspecific]
  simp only [step, PassedBy, PassesOver, hmem]
  cases p.loop with
  | specific next =>
    simp only [PublicationLoop.specific.injEq, exists_eq_left', reduceCtorEq, false_and,
      exists_false, or_false]
    by_cases hs : s ∈ p.service.specific p.eventType
    · have hone : (p.service.specific p.eventType).count s = 1 :=
        (count_cases h).elim And.left fun hnot => absurd hs hnot.1
      by_cases hlist : r.list = some p.eventType
      · have hedit := specific_register p.service r p.eventType
        rw [if_pos hlist] at hedit
        rw [hedit] at hspecific ⊢
        simp only [hs, hlist, true_and]
        exact Machine.passed_apply_iff hone (hspecific.trans hone)
      · rw [specific_register, if_neg hlist]
        simp [hlist]
    · simp [hs]
  | global next =>
    simp only [PublicationLoop.global.injEq, exists_eq_left', reduceCtorEq, false_and,
      exists_false, false_or]
    by_cases hs : s ∈ p.service.specific p.eventType
    · simp [hs]
    · have hone : p.service.globalSubscribers.count s = 1 :=
        (count_cases h).elim (fun hin => absurd (mem_of_count hin.1) hs) And.right
      by_cases hlist : r.list = none
      · have hedit := globalSubscribers_register p.service r
        rw [if_pos hlist] at hedit
        rw [hedit] at hglobal ⊢
        simp only [hs, hlist, mem_of_count hone, true_and, false_or]
        exact Machine.passed_apply_iff hone (hglobal.trans hone)
      · rw [globalSubscribers_register, if_neg hlist]
        simp [hlist]
  | ended => simp

/-- A subscriber is called once at most, and not without being passed. -/
structure CalledOnce (p : Publication ε σ) (s : σ) : Prop where
  steady : p.registrations.count s = 1
  once : p.calls.count s ≤ 1
  passed : s ∈ p.calls → p.PassedBy s

theorem CalledOnce.resumes {p' : Publication ε σ} (h : p.CalledOnce s)
    (hsteady : p'.registrations.count s = 1) (hresumes : Resumes s p p') : p'.CalledOnce s := by
  have hcalls := h.once
  cases hresumes with
  | called hbefore hafter hcount =>
    have hnone : p.calls.count s = 0 := List.count_eq_zero.mpr fun hmem => hbefore (h.passed hmem)
    exact ⟨hsteady, by omega, fun _ => hafter⟩
  | left hpassed hcount =>
    refine ⟨hsteady, by omega, fun hmem => hpassed.mpr (h.passed ?_)⟩
    rw [← List.count_pos_iff] at hmem ⊢
    omega

theorem CalledOnce.step (h : p.CalledOnce s) {a : PublicationStep ε σ}
    (hsteady : (p.step a).registrations.count s = 1) : (p.step a).CalledOnce s := by
  cases a with
  | registers r =>
    exact ⟨hsteady, h.once, fun hmem =>
      (passedBy_registers h.steady hsteady).mpr (Or.inl (h.passed hmem))⟩
  | handled outcome =>
    cases outcome with
    | interrupted => exact ⟨hsteady, h.once, fun _ => trivial⟩
    | returned => exact h.resumes hsteady (resumes_resume h.steady)
    | raised => exact h.resumes hsteady (resumes_resume h.steady)

def Serves (p : Publication ε σ) (s : σ) : Prop := p.PassedBy s → s ∈ p.calls

theorem serves_resumes_iff {p' : Publication ε σ} (h : Resumes s p p') :
    p'.Serves s ↔ p.Serves s := by
  cases h with
  | called hbefore hafter hcount =>
    have hmem : s ∈ p'.calls := List.count_pos_iff.mp (by omega)
    exact iff_of_true (fun _ => hmem) fun hpassed => absurd hpassed hbefore
  | left hpassed hcount =>
    rw [Serves, Serves, hpassed, ← List.count_pos_iff, ← List.count_pos_iff, hcount]

theorem not_passedBy_of_passesOver (h : p.registrations.count s = 1) {r : Registration ε σ}
    (hover : p.PassesOver s (.registers r)) : ¬ p.PassedBy s := by
  have hnext : ∀ {xs : List σ} {next : ℕ}, r.edit.Overtakes xs next s →
      ¬ Machine.Passed xs next s := by
    intro xs next hovertakes hpassed
    generalize r.edit = e at hovertakes
    cases e with
    | append x => exact hovertakes
    | remove x => exact absurd hovertakes.1 (Nat.ne_of_lt hpassed)
  rcases hover with ⟨next, hloop, -, -, hovertakes⟩ | ⟨next, hloop, -, hmem, hovertakes⟩
  · rw [PassedBy, hloop]
    exact fun hpassed => hnext hovertakes hpassed.2
  · rw [PassedBy, hloop]
    rintro (hspecific | hpassed)
    · rcases count_cases h with ⟨-, hnot⟩ | ⟨hnot, -⟩
      · exact hnot hmem
      · exact hnot hspecific
    · exact hnext hovertakes hpassed

theorem serves_step_iff (h : p.CalledOnce s) {a : PublicationStep ε σ}
    (hsteady : (p.step a).registrations.count s = 1) (hserves : p.Serves s) :
    (p.step a).Serves s ↔ ¬ p.PassesOver s a := by
  cases a with
  | registers r =>
    rw [Serves, passedBy_registers h.steady hsteady]
    constructor
    · intro hcalled hover
      exact not_passedBy_of_passesOver h.steady hover (h.passed (hcalled (Or.inr hover)))
    · rintro hover (hpassed | hpasses)
      · exact hserves hpassed
      · exact absurd hpasses hover
  | handled outcome =>
    cases outcome with
    | interrupted =>
      exact ⟨fun hcalled hnot => hnot (hcalled trivial), fun hmem _ => not_not.mp hmem⟩
    | returned =>
      exact iff_of_true ((serves_resumes_iff (resumes_resume h.steady)).mpr hserves) not_false
    | raised =>
      exact iff_of_true ((serves_resumes_iff (resumes_resume h.steady)).mpr hserves) not_false

theorem Serves.of_step (h : p.registrations.count s = 1) {a : PublicationStep ε σ}
    (hsteady : (p.step a).registrations.count s = 1) (hserves : (p.step a).Serves s) :
    p.Serves s := by
  cases a with
  | registers r =>
    exact fun hpassed => hserves ((passedBy_registers h hsteady).mpr (Or.inl hpassed))
  | handled outcome =>
    cases outcome with
    | interrupted => exact fun _ => hserves trivial
    | returned => exact (serves_resumes_iff (resumes_resume h)).mp hserves
    | raised => exact (serves_resumes_iff (resumes_resume h)).mp hserves

theorem publish_calledOnce {service : EventService ε σ} {eventType : ε}
    (h : (publish service eventType).registrations.count s = 1) :
    (publish service eventType).CalledOnce s ∧ (publish service eventType).Serves s := by
  have hstart : ({ service, eventType, loop := .specific 0 } : Publication ε σ).registrations.count
      s = 1 := by
    rw [← h, publish, registrations_resume]
  have hresumes := resumes_resume hstart
  have hnot : ¬ PassedBy ({ service, eventType, loop := .specific 0 } : Publication ε σ) s :=
    fun hpassed => Nat.not_lt_zero _ hpassed.2
  refine ⟨CalledOnce.resumes ⟨hstart, Nat.zero_le _, ?_⟩ h hresumes,
    (serves_resumes_iff hresumes).mpr fun hpassed => absurd hpassed hnot⟩
  intro hmem
  cases hmem

theorem run_calledOnce {service : EventService ε σ} {eventType : ε}
    {steps : List (PublicationStep ε σ)}
    (hsteady : ∀ before, before <+: steps →
      ((publish service eventType).run before).registrations.count s = 1) :
    ((publish service eventType).run steps).CalledOnce s := by
  induction steps using List.reverseRecOn with
  | nil => exact (publish_calledOnce (hsteady [] List.nil_prefix)).1
  | append_singleton steps a ih =>
    have hbefore := ih fun before hbefore =>
      hsteady before (hbefore.trans (List.prefix_append steps [a]))
    have hafter := hsteady _ (List.prefix_refl _)
    simp only [run, List.foldl_append, List.foldl_cons, List.foldl_nil] at hbefore hafter ⊢
    exact hbefore.step hafter

/-- A subscriber with one registration that stands throughout a publication is called exactly once
if and only if nothing passes it over. -/
theorem called_once_iff {service : EventService ε σ} {eventType : ε}
    {steps : List (PublicationStep ε σ)} {s : σ}
    (hended : ((publish service eventType).run steps).loop = .ended)
    (hsteady : ∀ before, before <+: steps →
      ((publish service eventType).run before).registrations.count s = 1) :
    ((publish service eventType).run steps).calls.count s = 1 ↔
      ∀ before a, before ++ [a] <+: steps →
        ¬ ((publish service eventType).run before).PassesOver s a := by
  have honce := run_calledOnce hsteady
  have hserves : ((publish service eventType).run steps).calls.count s = 1 ↔
      ((publish service eventType).run steps).Serves s := by
    have hle := honce.once
    rw [Serves, PassedBy, hended, true_imp_iff, ← List.count_pos_iff]
    omega
  rw [hserves]
  refine Machine.foldl_iff_of (J := fun p => CalledOnce p s) (H := fun p a => p.PassesOver s a)
    (fun p a h h' hs => serves_step_iff h h'.steady hs)
    (fun p a h h' hs => hs.of_step h.steady h'.steady)
    (publish_calledOnce (hsteady [] List.nil_prefix)).2 fun before hbefore => ?_
  exact run_calledOnce fun earlier hearlier => hsteady earlier (hearlier.trans hbefore)

/-- Two subscribers of one event type. -/
def pair : EventService ℕ ℕ := { subscribers := Dict.empty.set 0 [1, 2] }

/-- The second is still to be called when the first, which then fails, brings in a third. -/
theorem called_once_iff_pair :
    ((publish pair 0).run [.registers (.subscribe 0 3), .handled .raised, .handled .returned,
      .handled .returned]).calls.count 2 = 1 := by
  refine (called_once_iff (by decide) ?_).mpr ?_
  · simp only [Machine.forall_prefix_cons_iff, Machine.forall_prefix_nil_iff]
    decide
  · simp only [Machine.forall_snoc_prefix_cons_iff, PassesOver]
    refine ⟨?_, not_false, not_false, not_false, Machine.forall_snoc_prefix_nil⟩
    rintro (⟨next, -, -, -, hovertakes⟩ | ⟨next, hloop, -⟩)
    · exact hovertakes
    · cases hloop

/-- The first leaves while it handles the event, and the second never hears of it. -/
theorem not_called_pair :
    ((publish pair 0).run [.registers (.unsubscribe 0 1), .handled .returned]).loop = .ended ∧
      (∀ before, before <+: [.registers (.unsubscribe 0 1), .handled .returned] →
        ((publish pair 0).run before).registrations.count 2 = 1) ∧
      ((publish pair 0).run [.registers (.unsubscribe 0 1), .handled .returned]).calls = [1] := by
  refine ⟨by decide, ?_, by decide⟩
  simp only [Machine.forall_prefix_cons_iff, Machine.forall_prefix_nil_iff]
  decide

end Publication

end OpenHop
