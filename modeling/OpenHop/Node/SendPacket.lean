import OpenHop.Data.Dict
import OpenHop.Node.ReplyScope

/-! # From the dispatcher to the radio

A packet is scoped and given its hash width, written, and handed to the radio, which may
be one radio or a fabric of several. A radio reports a failure by an exception, by `None`
or by `False`, and the dispatcher takes a `TypeError` for the sign that the radio knows
nothing of radio ids, and sends again without one.
-/

namespace OpenHop

abbrev RadioId := List Char

/-- What a send may raise; a cancellation is no `Exception`. -/
inductive SendError where
  | typeError
  | exception
  | cancelled
  deriving DecidableEq

/-- What a radio's `send` comes to: a dict with its `radio_id`, `True`, `False`, `None`, any
other value, or an exception. -/
inductive SendResult where
  | metadata (radioId : Option RadioId)
  | ok
  | refused
  | nothing
  | value
  | raised (e : SendError)
  deriving DecidableEq

/-- The only radio, or one of a fabric. -/
inductive PhysicalRadio where
  | sole
  | registered (radioId : RadioId)
  deriving DecidableEq

structure SendCall where
  radio : PhysicalRadio
  data : Bytes
  result : SendResult
  deriving DecidableEq

/-- What the radios do, which may depend on everything they were asked to send before. -/
abbrev RadioBehaviour := List SendCall → PhysicalRadio → Bytes → SendResult

def physicalSend (behaviour : RadioBehaviour) (calls : List SendCall) (radio : PhysicalRadio)
    (data : Bytes) : List SendCall × SendResult :=
  let result := behaviour calls radio data
  (calls ++ [⟨radio, data, result⟩], result)

/-- The registered radios, with whether they have a `send`. -/
structure RFFabric where
  radios : Dict RadioId Bool
  defaultRadioId : Option RadioId := none
  txSelector : Option (Bytes → Except SendError (Option RadioId)) := none

namespace RFFabric

/-- The property `default_radio_id`: the chosen one as long as it is registered, else the first. -/
def currentDefault (f : RFFabric) : Option RadioId :=
  match f.defaultRadioId with
  | some rid => if rid ≠ [] ∧ f.radios.contains rid then some rid else f.radios.keys.head?
  | none => f.radios.keys.head?

def registeredOr (f : RFFabric) (rid : RadioId) : Except SendError RadioId :=
  if f.radios.contains rid then .ok rid else .error .exception

def resolveTxRadioId (f : RFFabric) (data : Bytes) (radioId : Option RadioId) :
    Except SendError RadioId := do
  match radioId with
  | some rid => f.registeredOr rid
  | none =>
    let selected ← match f.txSelector with
      | some selector => selector data
      | none => pure none
    match selected with
    | some rid => f.registeredOr rid
    | none =>
      match f.currentDefault with
      | some rid => return rid
      | none => Except.error .exception

/-- Metadata names the radio, and `True` becomes metadata. -/
def stamp (rid : RadioId) : SendResult → SendResult
  | .metadata radioId => .metadata (some (radioId.getD rid))
  | .ok => .metadata (some rid)
  | result => result

def send (f : RFFabric) (behaviour : RadioBehaviour) (calls : List SendCall) (data : Bytes)
    (radioId : Option RadioId) : List SendCall × SendResult :=
  match f.resolveTxRadioId data radioId with
  | .error e => (calls, .raised e)
  | .ok rid =>
    if f.radios.get? rid ≠ some true then (calls, .raised .exception)
    else
      let (calls, result) := physicalSend behaviour calls (.registered rid) data
      (calls, stamp rid result)

end RFFabric

/-- What the dispatcher has for a radio: one whose `send` may take a radio id, or a fabric. -/
inductive RadioPort where
  | single (takesRadioId : Bool)
  | fabric (f : RFFabric)

/-- A call of `send`, with the keyword `radio_id` if an id is given. -/
def RadioPort.send (port : RadioPort) (behaviour : RadioBehaviour) (calls : List SendCall)
    (data : Bytes) (radioId : Option RadioId) : List SendCall × SendResult :=
  match port with
  | .single takesRadioId =>
    -- the keyword is refused before anything of the radio runs
    if radioId.isSome ∧ takesRadioId = false then (calls, .raised .typeError)
    else physicalSend behaviour calls .sole data
  | .fabric f => f.send behaviour calls data radioId

/-- What of the dispatcher decides about the bytes of a packet. -/
structure DispatcherConfig where
  scope : FloodScope := {}
  pathHashMode : Option (Fin 3) := none

namespace DispatcherConfig

variable {Seed : Type} (c : Crypto Seed)

def applyDefaultPathHashMode (d : DispatcherConfig) (p : Packet) : Except PacketError Packet :=
  match d.pathHashMode with
  | none => .ok p
  | some mode =>
    if p.getRouteType ≠ routeTypeFlood ∧ p.getRouteType ≠ routeTypeTransportFlood then .ok p
    else if p.getPathHashCount ≠ 0 then .ok p
    else if p.pathHashModeApplied then .ok p
    else p.applyPathHashMode mode

/-- The packet as it is written; none if its scope or its hash width cannot be applied. -/
def outgoing (d : DispatcherConfig) (packet : Packet) : Option Packet :=
  (d.scope.applyFloodScope c packet).bind fun p => (d.applyDefaultPathHashMode p).toOption

/-- The bytes for the radio, if none of the steps before it raises. -/
def wire (d : DispatcherConfig) (packet : Packet) : Option Bytes :=
  (d.outgoing c packet).bind fun p => p.writeTo.toOption

end DispatcherConfig

inductive SendOutcome where
  | returned (sent : Bool)
  | raised
  | cancelled
  deriving DecidableEq

structure SendRun where
  calls : List SendCall := []
  outcome : SendOutcome
  deriving DecidableEq

/-- The calls of `radio.send` in `_transmit_locked`, and what they come to. -/
def transmit (port : RadioPort) (behaviour : RadioBehaviour) (raw : Bytes)
    (radioId : Option RadioId) : List SendCall × SendResult :=
  match radioId with
  | none => port.send behaviour [] raw none
  | some rid =>
    let (calls, result) := port.send behaviour [] raw (some rid)
    if result = .raised .typeError then port.send behaviour calls raw none else (calls, result)

/-- How `_transmit_locked` ends; the callback for sent packets may raise. -/
def SendResult.outcome (callbackRaises : Bool) : SendResult → SendOutcome
  | .raised .cancelled => .cancelled
  | .raised _ => .returned false
  | .nothing => .returned false
  | _ => if callbackRaises then .raised else .returned true

/-- `send_packet` without waiting for an acknowledgement. -/
def sendPacket {Seed : Type} (c : Crypto Seed) (d : DispatcherConfig) (port : RadioPort)
    (behaviour : RadioBehaviour) (packet : Packet) (radioId : Option RadioId)
    (callbackRaises : Bool := false) : SendRun :=
  if packet.isRouteFlood ∧ packet.getPayloadType = payloadTypeTrace then
    { outcome := .returned false }
  else
    match d.wire c packet with
    | none => { outcome := .raised }
    | some raw =>
      let (calls, result) := transmit port behaviour raw radioId
      { calls, outcome := result.outcome callbackRaises }

/-- The radio that a call of `send` reaches, or what it raises before it reaches one. -/
def RadioPort.target (port : RadioPort) (data : Bytes) (radioId : Option RadioId) :
    Except SendError PhysicalRadio :=
  match port with
  | .single takesRadioId =>
    if radioId.isSome ∧ takesRadioId = false then .error .typeError else .ok .sole
  | .fabric f => do
    let rid ← f.resolveTxRadioId data radioId
    if f.radios.get? rid ≠ some true then .error .exception else return .registered rid

variable {port : RadioPort} {behaviour : RadioBehaviour} {calls : List SendCall} {raw : Bytes}
  {radioId : Option RadioId} {radio : PhysicalRadio} {e : SendError}

theorem RFFabric.outcome_stamp (rid : RadioId) (callbackRaises : Bool) (result : SendResult) :
    (stamp rid result).outcome callbackRaises = result.outcome callbackRaises := by
  cases result <;> rfl

theorem RFFabric.stamp_eq_raised (rid : RadioId) (result : SendResult) (e : SendError) :
    stamp rid result = .raised e ↔ result = .raised e := by
  cases result <;> simp [stamp]

/-- The ways in which a call reaches a radio or fails before that. -/
inductive RadioPort.Targets (raw : Bytes) (radioId : Option RadioId) :
    RadioPort → Except SendError PhysicalRadio → Prop where
  | refused (hasked : radioId.isSome) : Targets raw radioId (.single false) (.error .typeError)
  | sole {takesRadioId : Bool} (hkeyword : ¬ (radioId.isSome ∧ takesRadioId = false)) :
      Targets raw radioId (.single takesRadioId) (.ok .sole)
  | unresolved {f : RFFabric} {e : SendError} (hrid : f.resolveTxRadioId raw radioId = .error e) :
      Targets raw radioId (.fabric f) (.error e)
  | unable {f : RFFabric} {rid : RadioId} (hrid : f.resolveTxRadioId raw radioId = .ok rid)
      (hsend : f.radios.get? rid ≠ some true) : Targets raw radioId (.fabric f) (.error .exception)
  | registered {f : RFFabric} {rid : RadioId} (hrid : f.resolveTxRadioId raw radioId = .ok rid)
      (hsend : ¬ f.radios.get? rid ≠ some true) :
      Targets raw radioId (.fabric f) (.ok (.registered rid))

theorem RadioPort.target_cases (port : RadioPort) (raw : Bytes) (radioId : Option RadioId) :
    Targets raw radioId port (port.target raw radioId) := by
  unfold RadioPort.target
  cases port with
  | single takesRadioId =>
    dsimp only
    split
    · rename_i hkeyword
      obtain ⟨hasked, rfl⟩ := hkeyword
      exact .refused hasked
    · rename_i hkeyword
      exact .sole hkeyword
  | fabric f =>
    dsimp only
    cases hrid : f.resolveTxRadioId raw radioId with
    | error e => exact .unresolved hrid
    | ok rid =>
      rw [ok_bind]
      split
      · rename_i hsend
        exact .unable hrid hsend
      · rename_i hsend
        exact .registered hrid hsend

theorem RadioPort.send_of_error (h : port.target raw radioId = .error e) :
    port.send behaviour calls raw radioId = (calls, .raised e) := by
  have htargets := port.target_cases raw radioId
  rw [h] at htargets
  cases htargets with
  | refused hasked => exact if_pos ⟨hasked, rfl⟩
  | unresolved hrid =>
    unfold RadioPort.send RFFabric.send
    simp only [hrid]
  | unable hrid hsend =>
    unfold RadioPort.send RFFabric.send
    simp only [hrid]
    exact if_pos hsend

/-- What the caller of `send` sees is what the radio did, up to the shape of a success. -/
theorem RadioPort.send_of_ok (behaviour : RadioBehaviour) (calls : List SendCall)
    (h : port.target raw radioId = .ok radio) :
    ∃ result, port.send behaviour calls raw radioId =
        (calls ++ [⟨radio, raw, behaviour calls radio raw⟩], result) ∧
      (∀ callbackRaises, result.outcome callbackRaises =
        (behaviour calls radio raw).outcome callbackRaises) ∧
      ∀ e, result = .raised e ↔ behaviour calls radio raw = .raised e := by
  have htargets := port.target_cases raw radioId
  rw [h] at htargets
  cases htargets with
  | sole hkeyword => exact ⟨_, if_neg hkeyword, fun _ => rfl, fun _ => Iff.rfl⟩
  | @registered f rid hrid hsend =>
    refine ⟨RFFabric.stamp rid (behaviour calls (.registered rid) raw), ?_, ?_, ?_⟩
    · unfold RadioPort.send RFFabric.send
      simp only [hrid]
      exact if_neg hsend
    · exact fun callbackRaises => RFFabric.outcome_stamp rid callbackRaises _
    · exact fun e => RFFabric.stamp_eq_raised rid _ e

/-- A fabric resolves an id that it is given to itself, and never refuses it with a `TypeError`. -/
theorem RFFabric.resolveTxRadioId_some (f : RFFabric) (raw : Bytes) (rid : RadioId) :
    f.resolveTxRadioId raw (some rid) = .ok rid ∨
      f.resolveTxRadioId raw (some rid) = .error .exception := by
  dsimp only [RFFabric.resolveTxRadioId, RFFabric.registeredOr]
  split
  · exact .inl rfl
  · exact .inr rfl

theorem RadioPort.target_asked {rid : RadioId} (h : port.target raw (some rid) = .ok radio) :
    radio = .sole ∨ radio = .registered rid := by
  have htargets := port.target_cases raw (some rid)
  rw [h] at htargets
  cases htargets with
  | sole hkeyword => exact .inl rfl
  | @registered f rid' hrid hsend =>
    rcases f.resolveTxRadioId_some raw rid with heq | heq
    · cases heq.symm.trans hrid
      exact .inr rfl
    · cases heq.symm.trans hrid

/-- Only a radio that takes no id refuses one with a `TypeError` of its own. -/
theorem RadioPort.target_typeError {rid : RadioId}
    (h : port.target raw (some rid) = .error .typeError) : port = .single false := by
  have htargets := port.target_cases raw (some rid)
  rw [h] at htargets
  cases htargets with
  | refused hasked => rfl
  | @unresolved f e hrid =>
    rcases f.resolveTxRadioId_some raw rid with heq | heq <;> cases heq.symm.trans hrid

/-- The radio that is sent on first; one that takes no id is sent on without. -/
def RadioPort.reached (port : RadioPort) (data : Bytes) (radioId : Option RadioId) :
    Except SendError PhysicalRadio :=
  match radioId with
  | none => port.target data none
  | some rid =>
    if port.target data (some rid) = .error .typeError then port.target data none
    else port.target data (some rid)

theorem RadioPort.reached_of_target {rid : RadioId}
    (h : port.target raw (some rid) = .ok radio) : port.reached raw (some rid) = .ok radio := by
  unfold RadioPort.reached
  dsimp only
  rw [h, if_neg (by simp)]

/-- What makes a call send twice or report what did not happen. -/
inductive Faulty (port : RadioPort) (behaviour : RadioBehaviour) (raw : Bytes)
    (radioId : Option RadioId) (callbackRaises : Bool) : Prop where
  /-- The radio that was asked for raises a `TypeError`, and there is one to send on without
  an id. -/
  | retried {rid : RadioId} {radio next : PhysicalRadio} (hasked : radioId = some rid)
      (hradio : port.target raw (some rid) = .ok radio)
      (hraised : behaviour [] radio raw = .raised .typeError)
      (hnext : port.target raw none = .ok next)
  /-- The radio returns `False`. -/
  | refused {radio : PhysicalRadio} (hradio : port.reached raw radioId = .ok radio)
      (hrefused : behaviour [] radio raw = .refused) (hcallback : callbackRaises = false)

/-- What a transmission can come to. -/
inductive Transmission (port : RadioPort) (behaviour : RadioBehaviour) (raw : Bytes)
    (radioId : Option RadioId) : List SendCall × SendResult → Prop where
  | unreached {e : SendError} (hreached : port.reached raw radioId = .error e) :
      Transmission port behaviour raw radioId ([], .raised e)
  | once {radio : PhysicalRadio} {result : SendResult}
      (hreached : port.reached raw radioId = .ok radio)
      (houtcome : ∀ callbackRaises, result.outcome callbackRaises =
        (behaviour [] radio raw).outcome callbackRaises)
      (hkept : ∀ rid, radioId = some rid → port.target raw (some rid) = .ok radio →
        behaviour [] radio raw ≠ .raised .typeError) :
      Transmission port behaviour raw radioId ([⟨radio, raw, behaviour [] radio raw⟩], result)
  | stranded {rid : RadioId} {radio : PhysicalRadio} {e : SendError} (hasked : radioId = some rid)
      (hradio : port.target raw (some rid) = .ok radio)
      (hraised : behaviour [] radio raw = .raised .typeError)
      (hnext : port.target raw none = .error e) :
      Transmission port behaviour raw radioId ([⟨radio, raw, behaviour [] radio raw⟩], .raised e)
  | twice {rid : RadioId} {radio next : PhysicalRadio} {second result : SendResult}
      (hasked : radioId = some rid) (hradio : port.target raw (some rid) = .ok radio)
      (hraised : behaviour [] radio raw = .raised .typeError)
      (hnext : port.target raw none = .ok next) :
      Transmission port behaviour raw radioId
        ([⟨radio, raw, behaviour [] radio raw⟩, ⟨next, raw, second⟩], result)

theorem transmit_cases (port : RadioPort) (behaviour : RadioBehaviour) (raw : Bytes)
    (radioId : Option RadioId) :
    Transmission port behaviour raw radioId (transmit port behaviour raw radioId) := by
  cases radioId with
  | none =>
    unfold transmit
    dsimp only
    cases htarget : port.target raw none with
    | error e =>
      rw [RadioPort.send_of_error htarget]
      exact .unreached htarget
    | ok radio =>
      obtain ⟨result, hsend, houtcome, -⟩ := RadioPort.send_of_ok behaviour [] htarget
      rw [hsend]
      exact .once htarget houtcome nofun
  | some rid =>
    unfold transmit
    dsimp only
    cases htarget : port.target raw (some rid) with
    | error e =>
      rw [RadioPort.send_of_error htarget]
      by_cases hkeyword : e = .typeError
      · -- the radio knows no ids, and there is only this one
        subst hkeyword
        obtain rfl := RadioPort.target_typeError htarget
        exact .once rfl (fun _ => rfl) fun rid' _ hok => by cases hok
      · rw [if_neg (by simpa using hkeyword)]
        refine .unreached ?_
        unfold RadioPort.reached
        dsimp only
        rw [htarget, if_neg (by simpa using hkeyword)]
    | ok radio =>
      have hreached := RadioPort.reached_of_target htarget
      obtain ⟨result, hsend, houtcome, hraised⟩ := RadioPort.send_of_ok behaviour [] htarget
      rw [hsend]
      dsimp only
      by_cases htype : behaviour [] radio raw = .raised .typeError
      · rw [if_pos ((hraised _).mpr htype)]
        cases hnext : port.target raw none with
        | error e =>
          rw [RadioPort.send_of_error hnext]
          exact .stranded rfl htarget htype hnext
        | ok next =>
          obtain ⟨result', hsend', -⟩ := RadioPort.send_of_ok behaviour
            ([] ++ [⟨radio, raw, behaviour [] radio raw⟩]) hnext
          rw [hsend']
          exact .twice rfl htarget htype hnext
      · rw [if_neg (mt (hraised _).mp htype)]
        exact .once hreached houtcome fun _ _ _ => htype

theorem Transmission.data_eq {t : List SendCall × SendResult}
    (ht : Transmission port behaviour raw radioId t) : ∀ call ∈ t.1, call.data = raw := by
  cases ht with
  | unreached => exact List.forall_mem_nil _
  | once => simp
  | stranded => simp
  | twice => simp

/-- One send at most, on the radio that was asked for where there are several, and no success
that it did not report. -/
structure SingleAndTruthful (radioId : Option RadioId) (run : SendRun) : Prop where
  once : run.calls.length ≤ 1
  asked : ∀ rid, radioId = some rid → ∀ call ∈ run.calls,
    call.radio = .sole ∨ call.radio = .registered rid
  truthful : run.outcome = .returned true → ∃ call, run.calls = [call] ∧
    call.result ≠ .refused ∧ call.result ≠ .nothing ∧ ∀ e, call.result ≠ .raised e

theorem SingleAndTruthful.of_no_calls {outcome : SendOutcome} (h : outcome ≠ .returned true) :
    SingleAndTruthful radioId { outcome } where
  once := Nat.zero_le 1
  asked := fun _ _ => List.forall_mem_nil _
  truthful := fun htrue => absurd htrue h

theorem SendResult.outcome_raised_ne_true (e : SendError) (callbackRaises : Bool) :
    (SendResult.raised e).outcome callbackRaises ≠ .returned true := by
  cases e <;> simp [SendResult.outcome]

/-- The dispatcher takes everything but an exception and `None` for a success. -/
theorem SendResult.outcome_eq_true {result : SendResult} {callbackRaises : Bool}
    (h : result.outcome callbackRaises = .returned true) :
    callbackRaises = false ∧ result ≠ .nothing ∧ ∀ e, result ≠ .raised e := by
  cases result with
  | raised e => exact absurd h (outcome_raised_ne_true e callbackRaises)
  | nothing => cases h
  | _ => cases callbackRaises <;> simp_all [SendResult.outcome]

theorem RadioPort.reached_asked {rid : RadioId} (h : port.reached raw (some rid) = .ok radio) :
    radio = .sole ∨ radio = .registered rid := by
  unfold RadioPort.reached at h
  dsimp only at h
  split at h
  · rename_i hkeyword
    obtain rfl := RadioPort.target_typeError hkeyword
    cases h
    exact .inl rfl
  · exact RadioPort.target_asked h

theorem Transmission.singleAndTruthful_iff {t : List SendCall × SendResult}
    (ht : Transmission port behaviour raw radioId t) (callbackRaises : Bool) :
    SingleAndTruthful radioId { calls := t.1, outcome := t.2.outcome callbackRaises } ↔
      ¬ Faulty port behaviour raw radioId callbackRaises := by
  cases ht with
  | unreached hreached =>
    refine iff_of_true (.of_no_calls (SendResult.outcome_raised_ne_true _ _)) ?_
    rintro (⟨rfl, hradio, -, -⟩ | ⟨hradio, -, -⟩)
    · cases hreached.symm.trans (RadioPort.reached_of_target hradio)
    · cases hreached.symm.trans hradio
  | once hreached houtcome hkept =>
    rw [houtcome]
    constructor
    · rintro hgood (⟨rfl, hradio, hraised, -⟩ | ⟨hradio, hrefused, hcallback⟩)
      · cases hreached.symm.trans (RadioPort.reached_of_target hradio)
        exact hkept _ rfl hradio hraised
      · cases hreached.symm.trans hradio
        -- `False` is taken for a success
        obtain ⟨call, hcall, hne, -⟩ := hgood.truthful (by rw [hrefused, hcallback]; rfl)
        cases hcall
        exact hne hrefused
    · intro hfine
      refine ⟨le_refl 1, ?_, ?_⟩
      · rintro rid rfl call hcall
        obtain rfl := List.mem_singleton.mp hcall
        exact RadioPort.reached_asked hreached
      · intro htrue
        obtain ⟨hcallback, hnothing, hraised⟩ := SendResult.outcome_eq_true htrue
        refine ⟨_, rfl, fun hrefused => ?_, hnothing, hraised⟩
        exact hfine (.refused hreached hrefused hcallback)
  | stranded hasked hradio hraised hnext =>
    subst hasked
    have hreached := RadioPort.reached_of_target hradio
    refine iff_of_true ⟨le_refl 1, ?_, ?_⟩ ?_
    · rintro rid hrid call hcall
      cases hrid
      obtain rfl := List.mem_singleton.mp hcall
      exact RadioPort.target_asked hradio
    · exact fun htrue => absurd htrue (SendResult.outcome_raised_ne_true _ _)
    · rintro (⟨-, -, -, hnext'⟩ | ⟨hradio', hrefused, -⟩)
      · cases hnext.symm.trans hnext'
      · cases hreached.symm.trans hradio'
        cases hraised.symm.trans hrefused
  | twice hasked hradio hraised hnext =>
    refine iff_of_false (fun hgood => ?_) (not_not.mpr (.retried hasked hradio hraised hnext))
    exact absurd hgood.once (by simp)

/-- A call sends once at most and reports no success that there was not, exactly if no radio returns
`False` and none that it is given raises a `TypeError` while there is another to send on. -/
theorem sendPacket_singleAndTruthful_iff {Seed : Type} (c : Crypto Seed) (d : DispatcherConfig)
    (port : RadioPort) (behaviour : RadioBehaviour) (packet : Packet) (radioId : Option RadioId)
    (callbackRaises : Bool) :
    SingleAndTruthful radioId (sendPacket c d port behaviour packet radioId callbackRaises) ↔
      packet.isRouteFlood = true ∧ packet.getPayloadType = payloadTypeTrace ∨
      ∀ raw, d.wire c packet = some raw → ¬ Faulty port behaviour raw radioId callbackRaises := by
  unfold sendPacket
  split
  · rename_i hdropped
    exact iff_of_true (.of_no_calls (by decide)) (.inl hdropped)
  rename_i hsent
  rw [or_iff_right hsent]
  cases hwire : d.wire c packet with
  | none => exact iff_of_true (.of_no_calls (by decide)) nofun
  | some raw =>
    simp only [Option.some.injEq, forall_eq']
    exact (transmit_cases port behaviour raw radioId).singleAndTruthful_iff callbackRaises

/-- Two radios, the second of which has a fault behind its `send`. -/
def twoRadios : RFFabric where
  radios := (Dict.empty.set "a".toList true).set "b".toList true
  defaultRadioId := some "a".toList

/-- The radio `b` keys its transmitter and then raises a `TypeError`. -/
def faultyRadio : RadioBehaviour := fun _ radio _ =>
  if radio = .registered "b".toList then .raised .typeError else .ok

/-- The fault of `b` leads to a send on `a`, and `False` is reported as a success. -/
theorem not_singleAndTruthful_faults :
    ¬ SingleAndTruthful (some "b".toList) (sendPacket xorCrypto {} (.fabric twoRadios) faultyRadio
      { payload := [1], payloadLen := 1 } (some "b".toList)) ∧
    ¬ SingleAndTruthful none (sendPacket xorCrypto {} (.single false) (fun _ _ _ => .refused)
      { payload := [1], payloadLen := 1 } none) := by
  have htwice : sendPacket xorCrypto {} (.fabric twoRadios) faultyRadio
      { payload := [1], payloadLen := 1 } (some "b".toList) =
      { calls := [⟨.registered "b".toList, [0, 0, 0, 0, 0, 0, 1], .raised .typeError⟩,
          ⟨.registered "a".toList, [0, 0, 0, 0, 0, 0, 1], .ok⟩]
        outcome := .returned true } := by decide +kernel
  have hfalse : sendPacket xorCrypto {} (.single false) (fun _ _ _ => .refused)
      { payload := [1], payloadLen := 1 } none =
      { calls := [⟨.sole, [0, 0, 0, 0, 0, 0, 1], .refused⟩], outcome := .returned true } := by
    decide +kernel
  rw [htwice, hfalse]
  refine ⟨fun hgood => absurd hgood.once (by decide), fun hgood => ?_⟩
  obtain ⟨call, hcall, hne, -⟩ := hgood.truthful rfl
  cases hcall
  exact hne rfl

end OpenHop
