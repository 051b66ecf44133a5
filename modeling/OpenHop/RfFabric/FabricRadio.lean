import OpenHop.Node.SendPacket

/-! # The radio fabric

Several radios are registered with a fabric under ids, and while the fabric is armed each of
them holds a callback that carries its id. A frame goes from there to the callback of the
adapter that makes the fabric look like one radio.
-/

namespace OpenHop

/-- `radio_id must be a non-empty string`, `radio_id=… is already registered` and `Radio object
already registered as radio_id=…`. -/
inductive FabricError where
  | emptyRadioId
  | radioIdTaken (radioId : RadioId)
  | radioRegistered (existingId : RadioId)
  deriving DecidableEq

/-- `RFFabric` as receptions see it and, of each radio, the id in the callback it holds. -/
structure RFFabricRegistry (ρ : Type) where
  radios : Dict RadioId ρ := Dict.empty
  defaultRadioId : Option RadioId := none
  armed : Bool := false
  lastRssi : ℤ := 0
  lastSnr : ℚ := 0
  lastRxRadioId : Option RadioId := none
  rxCallback : ρ → Option RadioId := fun _ => none

/-- The calls of the registry. -/
inductive FabricCall (ρ : Type) where
  | registerRadio (radio : ρ) (radioId : RadioId)
  | unregisterRadio (radioId : Option RadioId)
  | arm
  | disarm

namespace RFFabricRegistry

variable {ρ : Type} [DecidableEq ρ] (hasSetRxCallback : ρ → Bool)

def setRxCallback (f : RFFabricRegistry ρ) (radio : ρ) (radioId : Option RadioId) :
    RFFabricRegistry ρ :=
  { f with rxCallback := Function.update f.rxCallback radio radioId }

def bindOne (f : RFFabricRegistry ρ) (radioId : RadioId) (radio : ρ) : RFFabricRegistry ρ :=
  if hasSetRxCallback radio then f.setRxCallback radio (some radioId) else f

def unbindOne (f : RFFabricRegistry ρ) (radio : ρ) : RFFabricRegistry ρ :=
  if hasSetRxCallback radio then f.setRxCallback radio none else f

def registerRadio (f : RFFabricRegistry ρ) (radio : ρ) (radioId : RadioId) :
    Except FabricError (RFFabricRegistry ρ) :=
  if radioId = [] then .error .emptyRadioId
  else if f.radios.contains radioId then .error (.radioIdTaken radioId)
  else
    match f.radios.entries.find? fun entry => entry.2 = radio with
    | some (existingId, _) => .error (.radioRegistered existingId)
    | none =>
      let f :=
        { f with
          radios := f.radios.set radioId radio
          defaultRadioId := f.defaultRadioId <|> some radioId }
      .ok (if f.armed then f.bindOne hasSetRxCallback radioId radio else f)

def unbindAll (f : RFFabricRegistry ρ) : RFFabricRegistry ρ :=
  f.radios.values.foldl (unbindOne hasSetRxCallback) f

def unregisterRadio (f : RFFabricRegistry ρ) : Option RadioId → RFFabricRegistry ρ
  | none =>
    { f.unbindAll hasSetRxCallback with radios := Dict.empty, defaultRadioId := none }
  | some radioId =>
    match f.radios.get? radioId with
    | none => f
    | some radio =>
      let f := ({ f with radios := f.radios.erase radioId }).unbindOne hasSetRxCallback radio
      if f.defaultRadioId = some radioId then { f with defaultRadioId := f.radios.keys.head? }
      else f

def arm (f : RFFabricRegistry ρ) : RFFabricRegistry ρ :=
  f.radios.entries.foldl (fun f entry => f.bindOne hasSetRxCallback entry.1 entry.2)
    { f with armed := true }

def disarm (f : RFFabricRegistry ρ) : RFFabricRegistry ρ :=
  ({ f with armed := false }).unbindAll hasSetRxCallback

/-- A call that raises changes nothing. -/
def call (f : RFFabricRegistry ρ) : FabricCall ρ → RFFabricRegistry ρ
  | .registerRadio radio radioId =>
    match f.registerRadio hasSetRxCallback radio radioId with
    | .error _ => f
    | .ok f => f
  | .unregisterRadio radioId => f.unregisterRadio hasSetRxCallback radioId
  | .arm => f.arm hasSetRxCallback
  | .disarm => f.disarm hasSetRxCallback

end RFFabricRegistry

/-- How a call ends: what is raised is a `TypeError`, another `Exception`, or none. -/
inductive CallOutcome where
  | returned
  | typeError
  | exception
  | interrupt
  deriving DecidableEq

/-- What a callback does: calls to the registry, and its end. -/
structure CallbackBody (ρ : Type) where
  calls : List (FabricCall ρ) := []
  outcome : CallOutcome := .returned

/-- Data alone, or with the signal metrics. -/
inductive RxArguments where
  | one (data : Bytes)
  | three (data : Bytes) (rssi : Option ℤ) (snr : Option ℚ)
  deriving DecidableEq

def RxArguments.data : RxArguments → Bytes
  | .one data => data
  | .three data _ _ => data

/-- A callback: the arguments it can be called with, and what it does when it is called for the
first time for a frame, for the second time and so on. -/
structure RxCallback (ρ : Type) where
  takesOne : Bool := true
  takesThree : Bool := true
  body : ℕ → CallbackBody ρ

/-- A frame as a radio reports it, and what the radio would say of it if it is asked. -/
structure RxReport where
  data : Bytes
  rssi : Option ℤ := none
  snr : Option ℚ := none
  radioRssi : Option ℤ := none
  radioSnr : Option ℚ := none

/-- The callback was invoked with arguments, while the fabric named an id. -/
structure Invocation where
  arguments : RxArguments
  lastRxRadioId : Option RadioId
  deriving DecidableEq

/-- The fabric in the middle of a reception, with the invocations of the callback so far. -/
structure Reception (ρ : Type) where
  fabric : RFFabricRegistry ρ
  invocations : List Invocation := []

namespace Reception

variable {ρ : Type} [DecidableEq ρ] (hasSetRxCallback : ρ → Bool)

def accepts (cb : RxCallback ρ) : RxArguments → Bool
  | .one _ => cb.takesOne
  | .three .. => cb.takesThree

def perform (r : Reception ρ) (calls : List (FabricCall ρ)) : Reception ρ :=
  { r with fabric := calls.foldl (RFFabricRegistry.call hasSetRxCallback) r.fabric }

def invoke (r : Reception ρ) (cb : RxCallback ρ) (arguments : RxArguments) :
    Reception ρ × CallOutcome :=
  if accepts cb arguments then
    let body := cb.body r.invocations.length
    let invocation : Invocation := ⟨arguments, r.fabric.lastRxRadioId⟩
    let r := { r with invocations := r.invocations ++ [invocation] }
    (r.perform hasSetRxCallback body.calls, body.outcome)
  else (r, .typeError)

/-- `FabricRadio._on_fabric_rx` -/
def onFabricRx (r : Reception ρ) (rxCallback : Option (RxCallback ρ)) (data : Bytes)
    (rssi : Option ℤ) (snr : Option ℚ) : Reception ρ × CallOutcome :=
  match rxCallback with
  | none => (r, .returned)
  | some cb =>
    match r.invoke hasSetRxCallback cb (.three data rssi snr) with
    | (r, .typeError) => r.invoke hasSetRxCallback cb (.one data)
    | handled => handled

def legacyRx (r : Reception ρ) (rxCallback : Option (RxCallback ρ)) (data : Bytes)
    (rssi : Option ℤ) (snr : Option ℚ) : Reception ρ × CallOutcome :=
  match r.onFabricRx hasSetRxCallback rxCallback data rssi snr with
  | (r, .typeError) => r.onFabricRx hasSetRxCallback rxCallback data none none
  | handled => handled

/-- The signal metrics as far as the report or the radio tells them, and the id. -/
def noteReception (f : RFFabricRegistry ρ) (radioId : RadioId) (report : RxReport) :
    RFFabricRegistry ρ :=
  let known := f.radios.contains radioId
  { f with
    lastRssi := report.rssi.getD (if known then report.radioRssi.getD f.lastRssi else f.lastRssi)
    lastSnr := report.snr.getD (if known then report.radioSnr.getD f.lastSnr else f.lastSnr)
    lastRxRadioId := some radioId }

/-- `_on_radio_rx`, with the callbacks that are set at the time. What an `Exception` says is
logged. -/
def onRadioRx (f : RFFabricRegistry ρ) (ingressCallback : Option (CallbackBody ρ))
    (rxCallback : Option (RxCallback ρ)) (radioId : RadioId) (report : RxReport) :
    Reception ρ × CallOutcome :=
  let ingress := ingressCallback.getD {}
  let r : Reception ρ :=
    Reception.perform hasSetRxCallback { fabric := noteReception f radioId report } ingress.calls
  if ingress.outcome = .interrupt then (r, .interrupt)
  else
    match r.legacyRx hasSetRxCallback rxCallback report.data report.rssi report.snr with
    | (r, .interrupt) => (r, .interrupt)
    | (r, _) => (r, .returned)

end Reception

/-- A call of the registry, or a frame that a radio reports. -/
inductive FabricEvent (ρ : Type) where
  | call (c : FabricCall ρ)
  | report (radio : ρ) (report : RxReport) (ingressCallback : Option (CallbackBody ρ))
      (rxCallback : Option (RxCallback ρ))

namespace RFFabricRegistry

variable {ρ : Type} [DecidableEq ρ] (hasSetRxCallback : ρ → Bool)

/-- A radio without a callback of the fabric reports to nobody here. -/
def report (f : RFFabricRegistry ρ) (radio : ρ) (report : RxReport)
    (ingressCallback : Option (CallbackBody ρ)) (rxCallback : Option (RxCallback ρ)) :
    Reception ρ :=
  match f.rxCallback radio with
  | none => { fabric := f }
  | some radioId =>
    (Reception.onRadioRx hasSetRxCallback f ingressCallback rxCallback radioId report).1

def step (f : RFFabricRegistry ρ) : FabricEvent ρ → RFFabricRegistry ρ
  | .call c => f.call hasSetRxCallback c
  | .report radio report ingressCallback rxCallback =>
    (f.report hasSetRxCallback radio report ingressCallback rxCallback).fabric

def run (f : RFFabricRegistry ρ) (events : List (FabricEvent ρ)) : RFFabricRegistry ρ :=
  events.foldl (step hasSetRxCallback) f

variable {hasSetRxCallback} {f : RFFabricRegistry ρ} {radio other : ρ} {radioId : RadioId}

theorem rxCallback_bindOne :
    (f.bindOne hasSetRxCallback radioId radio).rxCallback other =
      if other = radio ∧ hasSetRxCallback radio = true then some radioId
      else f.rxCallback other := by
  unfold bindOne
  split
  · rename_i hhas
    simp [setRxCallback, Function.update_apply, hhas]
  · rename_i hhas
    simp [hhas]

theorem rxCallback_unbindOne :
    (f.unbindOne hasSetRxCallback radio).rxCallback other =
      if other = radio ∧ hasSetRxCallback radio = true then none else f.rxCallback other := by
  unfold unbindOne
  split
  · rename_i hhas
    simp [setRxCallback, Function.update_apply, hhas]
  · rename_i hhas
    simp [hhas]

/-- Everything but the callbacks. -/
structure SameRegistry (f f' : RFFabricRegistry ρ) : Prop where
  radios : f'.radios = f.radios
  armed : f'.armed = f.armed
  lastRxRadioId : f'.lastRxRadioId = f.lastRxRadioId

omit [DecidableEq ρ] in
theorem SameRegistry.refl (f : RFFabricRegistry ρ) : SameRegistry f f := ⟨rfl, rfl, rfl⟩

omit [DecidableEq ρ] in
theorem SameRegistry.trans {f' f'' : RFFabricRegistry ρ} (h : SameRegistry f f')
    (h' : SameRegistry f' f'') : SameRegistry f f'' :=
  ⟨h'.radios.trans h.radios, h'.armed.trans h.armed, h'.lastRxRadioId.trans h.lastRxRadioId⟩

variable (hasSetRxCallback) in
theorem sameRegistry_bindOne (f : RFFabricRegistry ρ) (radioId : RadioId) (radio : ρ) :
    SameRegistry f (f.bindOne hasSetRxCallback radioId radio) := by
  unfold bindOne
  split <;> exact ⟨rfl, rfl, rfl⟩

variable (hasSetRxCallback) in
theorem sameRegistry_unbindOne (f : RFFabricRegistry ρ) (radio : ρ) :
    SameRegistry f (f.unbindOne hasSetRxCallback radio) := by
  unfold unbindOne
  split <;> exact ⟨rfl, rfl, rfl⟩

variable (hasSetRxCallback) in
theorem unbind_spec (radios : List ρ) (f : RFFabricRegistry ρ) :
    SameRegistry f (radios.foldl (unbindOne hasSetRxCallback) f) ∧
      ∀ radio radioId, (radios.foldl (unbindOne hasSetRxCallback) f).rxCallback radio =
        some radioId → f.rxCallback radio = some radioId ∧
          ¬ (radio ∈ radios ∧ hasSetRxCallback radio = true) := by
  induction radios generalizing f with
  | nil => exact ⟨.refl f, fun radio radioId h => ⟨h, by simp⟩⟩
  | cons first radios ih =>
    obtain ⟨hsame, hcallbacks⟩ := ih (f.unbindOne hasSetRxCallback first)
    refine ⟨(sameRegistry_unbindOne hasSetRxCallback f first).trans hsame,
      fun radio radioId h => ?_⟩
    obtain ⟨hheld, hnot⟩ := hcallbacks radio radioId h
    rw [rxCallback_unbindOne] at hheld
    split at hheld
    · cases hheld
    · rename_i hne
      refine ⟨hheld, ?_⟩
      rintro ⟨hmem, hhas⟩
      rcases List.mem_cons.mp hmem with rfl | hmem
      · exact hne ⟨rfl, hhas⟩
      · exact hnot ⟨hmem, hhas⟩

variable (hasSetRxCallback) in
theorem bind_spec (entries : List (RadioId × ρ)) (f : RFFabricRegistry ρ) :
    SameRegistry f (entries.foldl (fun f entry => f.bindOne hasSetRxCallback entry.1 entry.2) f) ∧
      ∀ radio radioId,
        (entries.foldl (fun f entry => f.bindOne hasSetRxCallback entry.1 entry.2) f).rxCallback
          radio = some radioId →
        f.rxCallback radio = some radioId ∨
          (radioId, radio) ∈ entries ∧ hasSetRxCallback radio = true := by
  induction entries generalizing f with
  | nil => exact ⟨.refl f, fun radio radioId h => Or.inl h⟩
  | cons first entries ih =>
    obtain ⟨hsame, hcallbacks⟩ := ih (f.bindOne hasSetRxCallback first.1 first.2)
    refine ⟨(sameRegistry_bindOne hasSetRxCallback f first.1 first.2).trans hsame,
      fun radio radioId h => ?_⟩
    rcases hcallbacks radio radioId h with hheld | ⟨hmem, hhas⟩
    · rw [rxCallback_bindOne] at hheld
      split at hheld
      · rename_i hfirst
        obtain ⟨rfl, hhas⟩ := hfirst
        cases hheld
        exact Or.inr ⟨List.mem_cons_self, hhas⟩
      · exact Or.inl hheld
    · exact Or.inr ⟨List.mem_cons_of_mem _ hmem, hhas⟩

/-- What a call of the registry does to the registered radios and to the callbacks they hold. -/
inductive Transition (hasSetRxCallback : ρ → Bool) (f f' : RFFabricRegistry ρ) : Prop where
  | unchanged : f' = f → Transition hasSetRxCallback f f'
  | registered (radioId : RadioId) (radio : ρ) :
      f.radios.get? radioId = none → (∀ otherId, f.radios.get? otherId ≠ some radio) →
      f'.radios = f.radios.set radioId radio → f'.armed = f.armed →
      (∀ other otherId, f'.rxCallback other = some otherId → f.rxCallback other = some otherId ∨
        other = radio ∧ otherId = radioId ∧ f.armed = true ∧ hasSetRxCallback radio = true) →
      Transition hasSetRxCallback f f'
  | removed (radioId : RadioId) (radio : ρ) :
      f.radios.get? radioId = some radio → f'.radios = f.radios.erase radioId →
      f'.armed = f.armed →
      (∀ other otherId, f'.rxCallback other = some otherId → f.rxCallback other = some otherId ∧
        ¬ (other = radio ∧ hasSetRxCallback radio = true)) →
      Transition hasSetRxCallback f f'
  | armed : f'.radios = f.radios → f'.armed = true →
      (∀ other otherId, f'.rxCallback other = some otherId → f.rxCallback other = some otherId ∨
        f.radios.get? otherId = some other ∧ hasSetRxCallback other = true) →
      Transition hasSetRxCallback f f'
  | unbound : f'.radios = f.radios ∨ f'.radios = Dict.empty →
      (∀ other otherId, f'.rxCallback other = some otherId → f.rxCallback other = some otherId ∧
        ¬ (other ∈ f.radios.values ∧ hasSetRxCallback other = true)) →
      Transition hasSetRxCallback f f'

theorem transition_registerRadio {f' : RFFabricRegistry ρ}
    (hok : f.registerRadio hasSetRxCallback radio radioId = .ok f') :
    Transition hasSetRxCallback f f' ∧ f'.lastRxRadioId = f.lastRxRadioId := by
  unfold RFFabricRegistry.registerRadio at hok
  split at hok
  · cases hok
  split at hok
  · cases hok
  rename_i hfree
  split at hok
  · cases hok
  rename_i hnew
  have hfresh : ∀ otherId, f.radios.get? otherId ≠ some radio := by
    intro otherId hget
    have := List.find?_eq_none.mp hnew _ (Dict.get?_eq_some_iff.mp hget)
    simp at this
  have hnone : f.radios.get? radioId = none := by simpa [Dict.contains] using hfree
  cases hok
  split
  · rename_i harmed
    have hsame := sameRegistry_bindOne hasSetRxCallback
      { f with
        radios := f.radios.set radioId radio
        defaultRadioId := f.defaultRadioId <|> some radioId } radioId radio
    refine ⟨.registered radioId radio hnone hfresh hsame.radios hsame.armed ?_,
      hsame.lastRxRadioId⟩
    intro other otherId hheld
    rw [rxCallback_bindOne] at hheld
    split at hheld
    · rename_i hother
      cases hheld
      exact Or.inr ⟨hother.1, rfl, harmed, hother.2⟩
    · exact Or.inl hheld
  · exact ⟨.registered radioId radio hnone hfresh rfl rfl fun _ _ hheld => Or.inl hheld, rfl⟩

theorem transition_unregisterRadio (f : RFFabricRegistry ρ) (radioId : Option RadioId) :
    Transition hasSetRxCallback f (f.unregisterRadio hasSetRxCallback radioId) ∧
      (f.unregisterRadio hasSetRxCallback radioId).lastRxRadioId = f.lastRxRadioId := by
  cases radioId with
  | none =>
    obtain ⟨hsame, hcallbacks⟩ := unbind_spec hasSetRxCallback f.radios.values f
    exact ⟨.unbound (Or.inr rfl) hcallbacks, hsame.lastRxRadioId⟩
  | some radioId =>
    unfold RFFabricRegistry.unregisterRadio
    dsimp only
    split
    · exact ⟨.unchanged rfl, rfl⟩
    rename_i radio hradio
    have hsame := sameRegistry_unbindOne hasSetRxCallback
      { f with radios := f.radios.erase radioId } radio
    have hcallbacks : ∀ other otherId,
        (({ f with radios := f.radios.erase radioId }).unbindOne hasSetRxCallback
          radio).rxCallback other = some otherId →
        f.rxCallback other = some otherId ∧
          ¬ (other = radio ∧ hasSetRxCallback radio = true) := by
      intro other otherId hheld
      rw [rxCallback_unbindOne] at hheld
      split at hheld
      · cases hheld
      · rename_i hother
        exact ⟨hheld, hother⟩
    split
    · exact ⟨.removed radioId radio hradio hsame.radios hsame.armed hcallbacks,
        hsame.lastRxRadioId⟩
    · exact ⟨.removed radioId radio hradio hsame.radios hsame.armed hcallbacks,
        hsame.lastRxRadioId⟩

variable (hasSetRxCallback) in
theorem transition_call (f : RFFabricRegistry ρ) (c : FabricCall ρ) :
    Transition hasSetRxCallback f (f.call hasSetRxCallback c) ∧
      (f.call hasSetRxCallback c).lastRxRadioId = f.lastRxRadioId := by
  cases c with
  | registerRadio radio radioId =>
    unfold RFFabricRegistry.call
    dsimp only
    split
    · exact ⟨.unchanged rfl, rfl⟩
    · rename_i f' hok
      exact transition_registerRadio hok
  | unregisterRadio radioId => exact transition_unregisterRadio f radioId
  | arm =>
    obtain ⟨hsame, hcallbacks⟩ :=
      bind_spec hasSetRxCallback f.radios.entries { f with armed := true }
    refine ⟨.armed hsame.radios hsame.armed fun other otherId hheld => ?_, hsame.lastRxRadioId⟩
    rcases hcallbacks other otherId hheld with hbefore | ⟨hmem, hhas⟩
    · exact Or.inl hbefore
    · exact Or.inr ⟨Dict.get?_of_mem hmem, hhas⟩
  | disarm =>
    obtain ⟨hsame, hcallbacks⟩ :=
      unbind_spec hasSetRxCallback f.radios.values { f with armed := false }
    exact ⟨.unbound (Or.inl hsame.radios) hcallbacks, hsame.lastRxRadioId⟩

/-- A radio is registered once, and one that holds a callback is registered under the id in it,
with a fabric that is armed. -/
structure Consistent (hasSetRxCallback : ρ → Bool) (f : RFFabricRegistry ρ) : Prop where
  distinct : ∀ radio radioId otherId, f.radios.get? radioId = some radio →
    f.radios.get? otherId = some radio → otherId = radioId
  bound : ∀ radio radioId, f.rxCallback radio = some radioId →
    f.radios.get? radioId = some radio ∧ f.armed = true ∧ hasSetRxCallback radio = true

omit [DecidableEq ρ] in
theorem Consistent.transition {f' : RFFabricRegistry ρ} (h : f.Consistent hasSetRxCallback)
    (ht : Transition hasSetRxCallback f f') : f'.Consistent hasSetRxCallback := by
  cases ht with
  | unchanged heq => rwa [heq]
  | registered radioId radio hfree hfresh hradios harmed hcallbacks =>
    constructor
    · intro other firstId secondId hfirst hsecond
      simp only [hradios, Dict.get?_set] at hfirst hsecond
      split at hfirst <;> split at hsecond
      · simp_all
      · cases hfirst
        exact absurd hsecond (hfresh secondId)
      · cases hsecond
        exact absurd hfirst (hfresh firstId)
      · exact h.distinct other firstId secondId hfirst hsecond
    · intro other otherId hheld
      rw [hradios, harmed, Dict.get?_set]
      rcases hcallbacks other otherId hheld with hbefore | ⟨rfl, rfl, harmed', hhas⟩
      · obtain ⟨hget, harmed', hhas⟩ := h.bound other otherId hbefore
        have hne : otherId ≠ radioId := by
          rintro rfl
          rw [hfree] at hget
          cases hget
        exact ⟨by rw [if_neg hne, hget], harmed', hhas⟩
      · exact ⟨if_pos rfl, harmed', hhas⟩
  | removed radioId radio hradio hradios harmed hcallbacks =>
    constructor
    · intro other firstId secondId hfirst hsecond
      simp only [hradios, Dict.get?_erase, Option.ite_none_left_eq_some] at hfirst hsecond
      exact h.distinct other firstId secondId hfirst.2 hsecond.2
    · intro other otherId hheld
      obtain ⟨hbefore, hother⟩ := hcallbacks other otherId hheld
      obtain ⟨hget, harmed', hhas⟩ := h.bound other otherId hbefore
      have hne : otherId ≠ radioId := by
        rintro rfl
        rw [hradio] at hget
        cases hget
        exact hother ⟨rfl, hhas⟩
      exact ⟨by rw [hradios, Dict.get?_erase, if_neg hne, hget], harmed.trans harmed', hhas⟩
  | armed hradios harmed hcallbacks =>
    constructor
    · rw [hradios]
      exact h.distinct
    · intro other otherId hheld
      rw [hradios]
      rcases hcallbacks other otherId hheld with hbefore | ⟨hget, hhas⟩
      · obtain ⟨hget, -, hhas⟩ := h.bound other otherId hbefore
        exact ⟨hget, harmed, hhas⟩
      · exact ⟨hget, harmed, hhas⟩
  | unbound hradios hcallbacks =>
    constructor
    · intro radio firstId secondId
      rcases hradios with hradios | hradios
      · rw [hradios]
        exact h.distinct radio firstId secondId
      · rw [hradios]
        rintro ⟨⟩
    · intro other otherId hheld
      -- Whoever held a callback was registered, and so has been unbound.
      obtain ⟨hbefore, hother⟩ := hcallbacks other otherId hheld
      obtain ⟨hget, -, hhas⟩ := h.bound other otherId hbefore
      exact absurd ⟨List.mem_map_of_mem (Dict.get?_eq_some_iff.mp hget), hhas⟩ hother

omit [DecidableEq ρ] in
theorem Consistent.init : ({} : RFFabricRegistry ρ).Consistent hasSetRxCallback := by
  constructor
  · rintro radio radioId otherId ⟨⟩
  · rintro radio radioId ⟨⟩

end RFFabricRegistry

namespace Reception

variable {ρ : Type} [DecidableEq ρ] {hasSetRxCallback : ρ → Bool} {r : Reception ρ}
  {cb : RxCallback ρ} {radioId : RadioId} {data : Bytes}

/-- The calls of the registry were made in a consistent fabric that names the id, and so was each
invocation, with the frame. -/
structure Attributed (hasSetRxCallback : ρ → Bool) (radioId : RadioId) (data : Bytes)
    (r : Reception ρ) : Prop where
  consistent : r.fabric.Consistent hasSetRxCallback
  lastRxRadioId : r.fabric.lastRxRadioId = some radioId
  invocations : ∀ invocation ∈ r.invocations,
    invocation.arguments.data = data ∧ invocation.lastRxRadioId = some radioId

theorem Attributed.perform (h : r.Attributed hasSetRxCallback radioId data)
    (calls : List (FabricCall ρ)) :
    (r.perform hasSetRxCallback calls).Attributed hasSetRxCallback radioId data := by
  induction calls generalizing r with
  | nil => exact h
  | cons c calls ih =>
    obtain ⟨ht, hlast⟩ := RFFabricRegistry.transition_call hasSetRxCallback r.fabric c
    have hnext : Attributed hasSetRxCallback radioId data
        { r with fabric := r.fabric.call hasSetRxCallback c } :=
      ⟨h.consistent.transition ht, hlast.trans h.lastRxRadioId, h.invocations⟩
    exact ih hnext

theorem Attributed.invoke (h : r.Attributed hasSetRxCallback radioId data)
    {arguments : RxArguments} (hdata : arguments.data = data) :
    (r.invoke hasSetRxCallback cb arguments).1.Attributed hasSetRxCallback radioId data := by
  unfold Reception.invoke
  split
  · apply Attributed.perform
    refine ⟨h.consistent, h.lastRxRadioId, fun invocation hmem => ?_⟩
    rcases List.mem_append.mp hmem with hmem | hmem
    · exact h.invocations invocation hmem
    · rw [List.mem_singleton.mp hmem]
      exact ⟨hdata, h.lastRxRadioId⟩
  · exact h

/-- One call after the other, until one ends without a type error. -/
def attempt (hasSetRxCallback : ρ → Bool) (cb : RxCallback ρ) :
    Reception ρ → List RxArguments → Reception ρ × CallOutcome
  | r, [] => (r, .typeError)
  | r, arguments :: rest =>
    match r.invoke hasSetRxCallback cb arguments with
    | (r, .typeError) => attempt hasSetRxCallback cb r rest
    | handled => handled

theorem attempt_cons (r : Reception ρ) (arguments : RxArguments) (rest : List RxArguments) :
    attempt hasSetRxCallback cb r (arguments :: rest) =
      if (r.invoke hasSetRxCallback cb arguments).2 = .typeError then
        attempt hasSetRxCallback cb (r.invoke hasSetRxCallback cb arguments).1 rest
      else r.invoke hasSetRxCallback cb arguments := by
  rw [attempt]
  rcases r.invoke hasSetRxCallback cb arguments with ⟨r', ⟨⟩⟩ <;> rfl

theorem legacyRx_eq_attempt (r : Reception ρ) (cb : RxCallback ρ) (data : Bytes)
    (rssi : Option ℤ) (snr : Option ℚ) :
    r.legacyRx hasSetRxCallback (some cb) data rssi snr =
      attempt hasSetRxCallback cb r
        [.three data rssi snr, .one data, .three data none none, .one data] := by
  simp only [legacyRx, onFabricRx, attempt]
  rcases r.invoke hasSetRxCallback cb (.three data rssi snr) with ⟨r₁, ⟨⟩⟩ <;> simp only
  rcases r₁.invoke hasSetRxCallback cb (.one data) with ⟨r₂, ⟨⟩⟩ <;> simp only
  rcases r₂.invoke hasSetRxCallback cb (.three data none none) with ⟨r₃, ⟨⟩⟩ <;> simp only
  rcases r₃.invoke hasSetRxCallback cb (.one data) with ⟨r₄, ⟨⟩⟩ <;> simp only

theorem Attributed.attempt (h : r.Attributed hasSetRxCallback radioId data)
    {attempts : List RxArguments} (hdata : ∀ arguments ∈ attempts, arguments.data = data) :
    (attempt hasSetRxCallback cb r attempts).1.Attributed hasSetRxCallback radioId data := by
  induction attempts generalizing r with
  | nil => exact h
  | cons arguments rest ih =>
    have hinvoke : (r.invoke hasSetRxCallback cb arguments).1.Attributed hasSetRxCallback radioId
        data := h.invoke (hdata arguments List.mem_cons_self)
    rw [attempt_cons]
    split
    · exact ih hinvoke fun a ha => hdata a (List.mem_cons_of_mem _ ha)
    · exact hinvoke

theorem attempt_filter (r : Reception ρ) (cb : RxCallback ρ) (attempts : List RxArguments) :
    attempt hasSetRxCallback cb r attempts =
      attempt hasSetRxCallback cb r (attempts.filter (accepts cb)) := by
  induction attempts generalizing r with
  | nil => rfl
  | cons arguments rest ih =>
    cases haccepts : accepts cb arguments with
    | true => rw [List.filter_cons_of_pos haccepts, attempt_cons, attempt_cons, ih]
    | false =>
      rw [List.filter_cons_of_neg (by simp [haccepts]), ← ih]
      simp [attempt, invoke, haccepts]

variable (hasSetRxCallback) in
theorem length_invoke {arguments : RxArguments} (h : accepts cb arguments = true)
    (r : Reception ρ) :
    (r.invoke hasSetRxCallback cb arguments).1.invocations.length = r.invocations.length + 1 := by
  simp [invoke, h, perform]

variable (hasSetRxCallback) in
theorem outcome_invoke {arguments : RxArguments} (h : accepts cb arguments = true)
    (r : Reception ρ) :
    (r.invoke hasSetRxCallback cb arguments).2 = (cb.body r.invocations.length).outcome := by
  simp [invoke, h]

variable (hasSetRxCallback) in
theorem length_le_attempt (r : Reception ρ) {attempts : List RxArguments}
    (h : ∀ arguments ∈ attempts, accepts cb arguments = true) :
    r.invocations.length ≤ (attempt hasSetRxCallback cb r attempts).1.invocations.length := by
  induction attempts generalizing r with
  | nil => exact le_rfl
  | cons arguments rest ih =>
    have hlength := length_invoke hasSetRxCallback (h arguments List.mem_cons_self) r
    rw [attempt_cons]
    split
    · exact (Nat.le_succ _).trans (hlength.ge.trans
        (ih _ fun a ha => h a (List.mem_cons_of_mem _ ha)))
    · exact (Nat.le_succ _).trans hlength.ge

/-- With a second call to fall back on, the first one is the only one just when it does not end
with a type error. -/
theorem length_attempt_eq_one_iff {first second : RxArguments} {rest : List RxArguments}
    (h : ∀ arguments ∈ first :: second :: rest, accepts cb arguments = true)
    (hr : r.invocations.length = 0) :
    (attempt hasSetRxCallback cb r (first :: second :: rest)).1.invocations.length = 1 ↔
      (cb.body 0).outcome ≠ .typeError := by
  obtain ⟨hfirst, hrest⟩ := List.forall_mem_cons.mp h
  obtain ⟨hsecond, hrest⟩ := List.forall_mem_cons.mp hrest
  have hlength := length_invoke hasSetRxCallback hfirst r
  have houtcome := outcome_invoke hasSetRxCallback hfirst r
  rw [hr] at hlength houtcome
  rw [attempt_cons, houtcome]
  split
  · rename_i htype
    set r' := (r.invoke hasSetRxCallback cb first).1
    have htwo := length_invoke hasSetRxCallback hsecond r'
    have hle : 2 ≤ (attempt hasSetRxCallback cb r' (second :: rest)).1.invocations.length := by
      rw [attempt_cons]
      split
      · have := length_le_attempt hasSetRxCallback
          (r'.invoke hasSetRxCallback cb second).1 hrest
        omega
      · omega
    simp only [htype, ne_eq, not_true_eq_false, iff_false]
    omega
  · rename_i hne
    simp only [hlength, ne_eq, hne, not_false_eq_true, zero_add]

/-- A callback is invoked once just when it can be called, and does not end with a type error the
first time. -/
theorem length_legacyRx_eq_one_iff (hr : r.invocations.length = 0)
    (rxCallback : Option (RxCallback ρ)) (data : Bytes) (rssi : Option ℤ) (snr : Option ℚ) :
    (r.legacyRx hasSetRxCallback rxCallback data rssi snr).1.invocations.length = 1 ↔
      ∃ cb, rxCallback = some cb ∧ (cb.takesThree = true ∨ cb.takesOne = true) ∧
        (cb.body 0).outcome ≠ .typeError := by
  cases rxCallback with
  | none => simp [legacyRx, onFabricRx, hr]
  | some cb =>
    rw [legacyRx_eq_attempt, attempt_filter]
    cases hthree : cb.takesThree <;> cases hone : cb.takesOne <;>
      simp only [List.filter, accepts, hthree, hone]
    · simp [attempt, hr, hthree, hone]
    · rw [length_attempt_eq_one_iff (by simp [accepts, hone]) hr]
      simp [hthree, hone]
    · rw [length_attempt_eq_one_iff (by simp [accepts, hthree]) hr]
      simp [hthree, hone]
    · rw [length_attempt_eq_one_iff (by simp [accepts, hthree, hone]) hr]
      simp [hthree, hone]

theorem Attributed.legacyRx (h : r.Attributed hasSetRxCallback radioId data)
    (rxCallback : Option (RxCallback ρ)) (rssi : Option ℤ) (snr : Option ℚ) :
    (r.legacyRx hasSetRxCallback rxCallback data rssi snr).1.Attributed hasSetRxCallback radioId
      data := by
  cases rxCallback with
  | none => exact h
  | some cb =>
    rw [legacyRx_eq_attempt]
    exact h.attempt (by simp [RxArguments.data])

/-- The frame reaches the callback, at once: no type error comes out of it. -/
def HandledAtOnce (ingressCallback : Option (CallbackBody ρ)) (rxCallback : Option (RxCallback ρ)) :
    Prop :=
  (ingressCallback.getD {}).outcome ≠ .interrupt ∧
    ∃ cb, rxCallback = some cb ∧ (cb.takesThree = true ∨ cb.takesOne = true) ∧
      (cb.body 0).outcome ≠ .typeError

variable (ingressCallback : Option (CallbackBody ρ)) (rxCallback : Option (RxCallback ρ))
  (radioId : RadioId) (report : RxReport)

theorem fst_onRadioRx (f : RFFabricRegistry ρ) :
    (onRadioRx hasSetRxCallback f ingressCallback rxCallback radioId report).1 =
      let r := Reception.perform hasSetRxCallback { fabric := noteReception f radioId report }
        (ingressCallback.getD {}).calls
      if (ingressCallback.getD {}).outcome = .interrupt then r
      else (r.legacyRx hasSetRxCallback rxCallback report.data report.rssi report.snr).1 := by
  simp only [onRadioRx]
  split
  · rfl
  · split <;> rename_i heq <;> rw [heq]

theorem attributed_onRadioRx {f : RFFabricRegistry ρ} (h : f.Consistent hasSetRxCallback) :
    (onRadioRx hasSetRxCallback f ingressCallback rxCallback radioId report).1.Attributed
      hasSetRxCallback radioId report.data := by
  have hnoted : Attributed hasSetRxCallback radioId report.data
      { fabric := noteReception f radioId report } :=
    ⟨⟨h.distinct, h.bound⟩, rfl, by simp⟩
  have hingress := hnoted.perform (ingressCallback.getD {}).calls
  rw [fst_onRadioRx]
  dsimp only
  split
  · exact hingress
  · exact hingress.legacyRx rxCallback report.rssi report.snr

variable (hasSetRxCallback) in
theorem length_onRadioRx_eq_one_iff (f : RFFabricRegistry ρ) :
    (onRadioRx hasSetRxCallback f ingressCallback rxCallback radioId
      report).1.invocations.length = 1 ↔ HandledAtOnce ingressCallback rxCallback := by
  rw [fst_onRadioRx]
  dsimp only
  split
  · rename_i hinterrupt
    simp [perform, HandledAtOnce, hinterrupt]
  · rename_i hnot
    rw [length_legacyRx_eq_one_iff rfl]
    simp [HandledAtOnce, hnot]

end Reception

namespace RFFabricRegistry

variable {ρ : Type} [DecidableEq ρ] {hasSetRxCallback : ρ → Bool} {f : RFFabricRegistry ρ}

theorem Consistent.step (h : f.Consistent hasSetRxCallback) (event : FabricEvent ρ) :
    (f.step hasSetRxCallback event).Consistent hasSetRxCallback := by
  cases event with
  | call c => exact h.transition (transition_call hasSetRxCallback f c).1
  | report radio report ingressCallback rxCallback =>
    unfold RFFabricRegistry.step
    dsimp only [RFFabricRegistry.report]
    split
    · exact h
    · rename_i radioId hheld
      exact (Reception.attributed_onRadioRx ingressCallback rxCallback radioId report h).consistent

theorem Consistent.run (h : f.Consistent hasSetRxCallback) (events : List (FabricEvent ρ)) :
    (f.run hasSetRxCallback events).Consistent hasSetRxCallback :=
  List.foldlRecOn events _ h fun _ hf event _ => hf.step event

/-- The frame is passed on once, while the fabric names the id of the radio. -/
def DeliversOnce (hasSetRxCallback : ρ → Bool) (f : RFFabricRegistry ρ) (radio : ρ)
    (report : RxReport) (ingressCallback : Option (CallbackBody ρ))
    (rxCallback : Option (RxCallback ρ)) : Prop :=
  ∃ invocation,
    (f.report hasSetRxCallback radio report ingressCallback rxCallback).invocations =
      [invocation] ∧ invocation.arguments.data = report.data ∧
    ∃ radioId, invocation.lastRxRadioId = some radioId ∧
      ∀ otherId, f.radios.get? otherId = some radio ↔ otherId = radioId

/-- After any calls and receptions, the frame of a radio that holds a callback of the fabric is
delivered once just when it is handled at once. -/
theorem deliversOnce_iff (events : List (FabricEvent ρ)) (radio : ρ) (report : RxReport)
    (ingressCallback : Option (CallbackBody ρ)) (rxCallback : Option (RxCallback ρ)) :
    let f := RFFabricRegistry.run hasSetRxCallback {} events
    (f.rxCallback radio ≠ none →
      (f.DeliversOnce hasSetRxCallback radio report ingressCallback rxCallback ↔
        Reception.HandledAtOnce ingressCallback rxCallback)) ∧
    ((∀ radioId, f.radios.get? radioId ≠ some radio) ∨ f.armed = false →
      f.rxCallback radio = none) := by
  intro f
  have hf : f.Consistent hasSetRxCallback := Consistent.init.run events
  constructor
  · intro hheld
    obtain ⟨radioId, hheld⟩ := Option.ne_none_iff_exists'.mp hheld
    have hreport : f.report hasSetRxCallback radio report ingressCallback rxCallback =
        (Reception.onRadioRx hasSetRxCallback f ingressCallback rxCallback radioId report).1 := by
      simp only [RFFabricRegistry.report, hheld]
    have hattributed :=
      Reception.attributed_onRadioRx ingressCallback rxCallback radioId report hf
    rw [← Reception.length_onRadioRx_eq_one_iff hasSetRxCallback ingressCallback rxCallback radioId
      report f, List.length_eq_one_iff, DeliversOnce, hreport]
    constructor
    · rintro ⟨invocation, hone, -⟩
      exact ⟨invocation, hone⟩
    · rintro ⟨invocation, hone⟩
      obtain ⟨hdata, hlast⟩ := hattributed.invocations invocation (by simp [hone])
      have hget := (hf.bound radio radioId hheld).1
      refine ⟨invocation, hone, hdata, radioId, hlast, fun otherId => ⟨hf.distinct radio radioId
        otherId hget, ?_⟩⟩
      rintro rfl
      exact hget
  · intro hnot
    by_contra hne
    obtain ⟨radioId, hheld⟩ := Option.ne_none_iff_exists'.mp hne
    obtain ⟨hget, harmed, -⟩ := hf.bound radio radioId hheld
    rcases hnot with hnot | hnot
    · exact hnot radioId hget
    · rw [harmed] at hnot
      cases hnot

/-- The second of two radios, one registered before the fabric is armed and one after. -/
theorem deliversOnce_iff_second :
    DeliversOnce (fun _ => true)
      (RFFabricRegistry.run (fun _ => true) {}
        [.call (.registerRadio false ['a']), .call .arm, .call (.registerRadio true ['b'])])
      true { data := [1], rssi := some (-90) } none (some { body := fun _ => {} }) := by
  apply ((deliversOnce_iff _ true _ none _).1 (by decide)).mpr
  exact ⟨by decide, _, rfl, Or.inl rfl, by decide⟩

/-- A callback that ends with a type error each time is called with the same frame four times. -/
theorem not_deliversOnce_typeError :
    let f := RFFabricRegistry.run (fun _ => true) {} [.call (.registerRadio () ['a']), .call .arm]
    f.rxCallback () = some ['a'] ∧
      (f.report (fun _ => true) () { data := [1] } none
        (some { body := fun _ => { outcome := .typeError } })).invocations.length = 4 ∧
      ¬ f.DeliversOnce (fun _ => true) () { data := [1] } none
        (some { body := fun _ => { outcome := .typeError } }) := by
  intro f
  have hlength : (f.report (fun _ => true) () { data := [1] } none
      (some { body := fun _ => { outcome := .typeError } })).invocations.length = 4 := by decide
  refine ⟨by decide, hlength, ?_⟩
  rintro ⟨invocation, hone, -⟩
  rw [hone] at hlength
  cases hlength

end RFFabricRegistry

end OpenHop
