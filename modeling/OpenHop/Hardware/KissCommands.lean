import OpenHop.Hardware.KissModem
import OpenHop.Machine.Exchange
import OpenHop.Machine.Runs

/-! # Commands to the KISS modem

SetHardware commands are made one at a time under the command lock. A response carries no
request id: the receive thread hands it to the command that waits if its code is one of the
expected ones, and queues it otherwise.
-/

namespace OpenHop.Kiss.KissModemWrapper

open Machine

def hwCmdSetRadio : UInt8 := 0x09
def hwCmdSetTxPower : UInt8 := 0x0A
def hwCmdReboot : UInt8 := 0x18
def hwCmdSetSignalReport : UInt8 := 0x19
def hwRespOk : UInt8 := 0xF0
def hwRespSignalReport : UInt8 := 0x9A

def setHwAllowOkFor : List UInt8 :=
  [hwCmdSetRadio, hwCmdSetTxPower, hwCmdSetSignalReport, hwCmdReboot]

def setHwExtraAcceptResp (subCmd : UInt8) : Option UInt8 :=
  if subCmd = hwCmdSetSignalReport then some hwRespSignalReport else none

def acceptable (subCmd : UInt8) : List UInt8 :=
  [subCmd ||| 0x80, hwRespError] ++
    (if subCmd ∈ setHwAllowOkFor then [hwRespOk] else []) ++ (setHwExtraAcceptResp subCmd).toList

/-- The first queued response with one of the codes, and the queue without it. -/
def takeQueued (codes : List UInt8) (queue : List (UInt8 × Bytes)) :
    Option (UInt8 × Bytes) × List (UInt8 × Bytes) :=
  queue.foldl
    (fun (matched, kept) response =>
      if matched = none ∧ response.1 ∈ codes then (some response, kept)
      else (matched, kept ++ [response]))
    (none, [])

/-- What a call reads of the serial link before it takes its lock. -/
structure Link where
  shuttingDown : Bool := false
  reconnecting : Bool := false
  degraded : Bool := false

def Link.refuses (link : Link) (inReconnectThread : Bool) : Bool :=
  link.shuttingDown || ((link.reconnecting || link.degraded) && !inReconnectThread)

/-- Where the holder of the command lock is in `_send_command`. -/
inductive CommandPhase
  | free
  | armed (call : ℕ) (subCmd : UInt8) (data : Bytes)
  | waiting (call : ℕ)
  | leaving

/-- The wrapper with its modem. Calls are numbered as they are made; `asked` are their commands,
`received` those whose commands the modem has received, `answered` its responses and `returned`
what the calls return. -/
structure Commands where
  rx : RxSide := {}
  calls : ℕ := 0
  asked : List (ℕ × UInt8) := []
  phase : CommandPhase := .free
  wire : List (ℕ × Bytes) := []
  inbox : List ℕ := []
  received : List ℕ := []
  answered : List (ℕ × UInt8 × Bytes) := []
  returned : List (ℕ × Option (UInt8 × Bytes)) := []

inductive CommandAction
  | refuse (link : Link) (inReconnectThread : Bool)
  | sendCommand (link : Link) (inReconnectThread : Bool) (subCmd : UInt8) (data : Bytes)
  | write
  /-- A failed write may still have put the frame on the wire. -/
  | writeFails (written : Bool)
  | lose
  | reach
  | respond (subCmd : UInt8) (payload : Bytes)
  | otherFrame (buffer : Bytes)
  | cleanup
  | take
  /-- The deadline has passed, or the wrapper shuts down. -/
  | giveUp
  | leave

/-- The frames that `_process_received_frame` treats as a response to a command. -/
def isResponse : Bytes → Bool
  | typeByte :: subCmd :: payload =>
    (typeByte.toNat >>> 4) &&& 0x0F = 0 ∧ typeByte.toNat &&& 0x0F = kissCmdSetHardware ∧
      subCmd ≠ hwRespRxMeta ∧ subCmd ≠ hwRespTxDone ∧
      ¬(subCmd = hwRespError ∧ payload.head? = some hwErrTxBusy)
  | _ => false

namespace Commands

/-- `_send_command` up to the write. -/
def sendCommand (s : Commands) (subCmd : UInt8) (data : Bytes) : Commands :=
  let taken := takeQueued (acceptable subCmd) s.rx.responseQueue
  let rx := { s.rx with responseQueue := taken.2 }
  match taken.1 with
  | some response =>
    { s with
      rx
      calls := s.calls + 1
      asked := s.asked ++ [(s.calls, subCmd)]
      returned := s.returned ++ [(s.calls, some response)] }
  | none =>
    { s with
      rx := { rx with
        responseEvent := false
        pendingResponse := none
        expectedResponseSubcmds := some (acceptable subCmd) }
      calls := s.calls + 1
      asked := s.asked ++ [(s.calls, subCmd)]
      phase := .armed s.calls subCmd data }

def commandFrame (subCmd : UInt8) (data : Bytes) : Bytes :=
  encodeKissFrame (UInt8.ofNat kissCmdSetHardware) (subCmd :: data)

/-- The value of the call is fixed; its `finally` block is still to run. -/
def finish (s : Commands) (call : ℕ) (response : Option (UInt8 × Bytes)) : Commands :=
  { s with phase := .leaving, returned := s.returned ++ [(call, response)] }

/-- One step of one of the threads, of the wire or of the modem, which answers the commands it has
received in order. -/
def step (clock : ℕ → ℚ) (s : Commands) : CommandAction → Option Commands
  | .refuse link inReconnectThread =>
    if link.refuses inReconnectThread then
      some { s with calls := s.calls + 1, returned := s.returned ++ [(s.calls, none)] }
    else none
  | .sendCommand link inReconnectThread subCmd data =>
    match s.phase with
    | .free => if link.refuses inReconnectThread then none else some (s.sendCommand subCmd data)
    | _ => none
  | .write =>
    match s.phase with
    | .armed call subCmd data =>
      some { s with phase := .waiting call, wire := s.wire ++ [(call, commandFrame subCmd data)] }
    | _ => none
  | .writeFails written =>
    match s.phase with
    | .armed call subCmd data =>
      let sent := if written then [(call, commandFrame subCmd data)] else []
      some ({ s with wire := s.wire ++ sent }.finish call none)
    | _ => none
  | .lose => some { s with wire := s.wire.tail }
  | .reach =>
    match s.wire with
    | (call, _) :: wire =>
      some { s with wire, inbox := s.inbox ++ [call], received := s.received ++ [call] }
    | [] => none
  | .respond subCmd payload =>
    match s.inbox with
    | call :: inbox =>
      let buffer := UInt8.ofNat kissCmdSetHardware :: subCmd :: payload
      some { s with
        rx := processReceivedFrame clock s.rx buffer
        inbox
        answered := s.answered ++ [(call, subCmd, payload)] }
    | [] => none
  | .otherFrame buffer =>
    if isResponse buffer then none
    else some { s with rx := processReceivedFrame clock s.rx buffer }
  | .cleanup => some { s with rx := { s.rx with responseEvent := true } }
  | .take =>
    match s.phase with
    | .waiting call =>
      if s.rx.responseEvent then some (s.finish call s.rx.pendingResponse) else none
    | _ => none
  | .giveUp =>
    match s.phase with
    | .waiting call => some (s.finish call none)
    | _ => none
  | .leave =>
    match s.phase with
    | .leaving =>
      some { s with rx := { s.rx with expectedResponseSubcmds := none }, phase := .free }
    | _ => none

end Commands

def countFrame (m : RxSide) (body : Bytes) : RxSide :=
  { m with
    framesReceived := m.framesReceived + 1
    bytesReceived := m.bytesReceived + body.length }

theorem processReceivedFrame_induction {motive : RxSide → Prop} (clock : ℕ → ℚ) (m : RxSide)
    (buffer : Bytes) (ignored : motive m) (counted : ∀ body, motive (countFrame m body))
    (data : ∀ body, motive (processData clock (countFrame m body) body))
    (setHardware : ∀ typeByte subCmd payload, buffer = typeByte :: subCmd :: payload →
      (typeByte.toNat >>> 4) &&& 0x0F = 0 → typeByte.toNat &&& 0x0F = kissCmdSetHardware →
      motive (processSetHardware (countFrame m (subCmd :: payload)) (subCmd :: payload))) :
    motive (processReceivedFrame clock m buffer) := by
  rcases buffer with _ | ⟨typeByte, body⟩
  · exact ignored
  · unfold processReceivedFrame
    dsimp only
    split
    · exact ignored
    · rename_i hport
      split
      · exact data body
      · split
        · rename_i hcmd
          rcases body with _ | ⟨subCmd, payload⟩
          · exact counted []
          · exact setHardware typeByte subCmd payload rfl (not_not.mp hport) hcmd
        · exact counted body

def SameResponses (m m' : RxSide) : Prop :=
  m'.responseQueue = m.responseQueue ∧ m'.pendingResponse = m.pendingResponse ∧
    m'.expectedResponseSubcmds = m.expectedResponseSubcmds

/-- An expected response is handed over, another one may be queued. -/
structure Routed (response : UInt8 × Bytes) (m m' : RxSide) : Prop where
  expected : m'.expectedResponseSubcmds = m.expectedResponseSubcmds
  routed :
    (m'.responseQueue = m.responseQueue ∧ m'.pendingResponse = some response ∧
      m.expectedResponseSubcmds.any (response.1 ∈ ·)) ∨
    m'.pendingResponse = m.pendingResponse ∧ m'.responseQueue ⊆ m.responseQueue ++ [response]

theorem SameResponses.routed {m m' : RxSide} (h : SameResponses m m') (response : UInt8 × Bytes) :
    Routed response m m' := by
  obtain ⟨hqueue, hpending, hexpected⟩ := h
  refine ⟨hexpected, Or.inr ⟨hpending, ?_⟩⟩
  rw [hqueue]
  exact List.subset_append_left _ _

theorem processResponse_routed (m : RxSide) (subCmd : UInt8) (payload : Bytes) :
    Routed (subCmd, payload) m (processResponse m subCmd payload) := by
  unfold processResponse
  split
  · rename_i hexpected
    exact ⟨rfl, Or.inl ⟨rfl, rfl, hexpected⟩⟩
  · exact ⟨rfl, Or.inr ⟨rfl, List.drop_subset _ _⟩⟩

theorem processRxMeta_same (m : RxSide) (payload : Bytes) :
    SameResponses m (processRxMeta m payload) := by
  rcases payload with _ | ⟨a, _ | ⟨b, payload⟩⟩ <;> unfold processRxMeta <;> dsimp only <;>
    split <;> exact ⟨rfl, rfl, rfl⟩

theorem processTxDone_same (m : RxSide) (payload : Bytes) :
    SameResponses m (processTxDone m payload) := by
  cases payload <;> exact ⟨rfl, rfl, rfl⟩

theorem processError_same {m : RxSide} {payload : Bytes} (h : payload.head? = some hwErrTxBusy) :
    SameResponses m (processError m payload) := by
  unfold processError
  rw [if_pos h]
  split <;> exact ⟨rfl, rfl, rfl⟩

theorem processError_routed {m : RxSide} {payload : Bytes}
    (h : payload.head? ≠ some hwErrTxBusy) :
    Routed (hwRespError, payload) m (processError m payload) := by
  unfold processError
  rw [if_neg h]
  split
  · exact processResponse_routed m hwRespError payload
  · have hrouted := processResponse_routed { m with errors := m.errors + 1 } hwRespError payload
    exact ⟨hrouted.expected, hrouted.routed⟩

theorem processSetHardware_same {m : RxSide} {subCmd : UInt8} {payload : Bytes}
    (h : subCmd = hwRespRxMeta ∨ subCmd = hwRespTxDone ∨
      subCmd = hwRespError ∧ payload.head? = some hwErrTxBusy) :
    SameResponses m (processSetHardware m (subCmd :: payload)) := by
  rcases h with rfl | rfl | ⟨rfl, h⟩
  · exact processRxMeta_same m payload
  · exact processTxDone_same m payload
  · exact processError_same h

theorem processSetHardware_routed (m : RxSide) (subCmd : UInt8) (payload : Bytes) :
    Routed (subCmd, payload) m (processSetHardware m (subCmd :: payload)) := by
  simp only [processSetHardware]
  split
  · exact (processRxMeta_same m payload).routed _
  · split
    · exact (processTxDone_same m payload).routed _
    · split
      · rename_i hsub
        subst hsub
        by_cases hbusy : payload.head? = some hwErrTxBusy
        · exact (processError_same hbusy).routed _
        · exact processError_routed hbusy
      · exact processResponse_routed m subCmd payload

theorem processReceivedFrame_routed (clock : ℕ → ℚ) (m : RxSide) (subCmd : UInt8)
    (payload : Bytes) :
    Routed (subCmd, payload) m (processReceivedFrame clock m
      (UInt8.ofNat kissCmdSetHardware :: subCmd :: payload)) := by
  have hrouted := processSetHardware_routed (countFrame m (subCmd :: payload)) subCmd payload
  exact ⟨hrouted.expected, hrouted.routed⟩

theorem processReceivedFrame_same (clock : ℕ → ℚ) (m : RxSide) {buffer : Bytes}
    (h : ¬isResponse buffer) : SameResponses m (processReceivedFrame clock m buffer) := by
  apply processReceivedFrame_induction clock m buffer
  case ignored => exact ⟨rfl, rfl, rfl⟩
  case counted => exact fun body => ⟨rfl, rfl, rfl⟩
  case data =>
    intro body
    unfold processData
    split <;> exact ⟨rfl, rfl, rfl⟩
  case setHardware =>
    rintro typeByte subCmd payload rfl hport hcmd
    refine processSetHardware_same (m := countFrame m (subCmd :: payload)) ?_
    simp only [isResponse, hport, hcmd, true_and, decide_eq_true_eq] at h
    tauto

theorem foldl_takeQueued (codes : List UInt8) (matched : Option (UInt8 × Bytes))
    (kept queue : List (UInt8 × Bytes)) :
    let taken := queue.foldl
      (fun (matched, kept) response =>
        if matched = none ∧ response.1 ∈ codes then (some response, kept)
        else (matched, kept ++ [response]))
      (matched, kept)
    (∀ response, taken.1 = some response →
      matched = some response ∨ response ∈ queue ∧ response.1 ∈ codes) ∧
      taken.2 ⊆ kept ++ queue := by
  induction queue generalizing matched kept with
  | nil => exact ⟨fun response h => Or.inl h, List.subset_append_left _ _⟩
  | cons next queue ih =>
    rw [List.foldl_cons]
    dsimp only
    split
    · rename_i hnext
      obtain ⟨hfound, hkept⟩ := ih (some next) kept
      refine ⟨fun response h => ?_, fun response h => ?_⟩
      · rcases hfound response h with heq | ⟨hmem, hcode⟩
        · cases heq
          exact Or.inr ⟨List.mem_cons_self, hnext.2⟩
        · exact Or.inr ⟨List.mem_cons_of_mem _ hmem, hcode⟩
      · rcases List.mem_append.mp (hkept h) with hmem | hmem
        · exact List.mem_append_left _ hmem
        · exact List.mem_append_right _ (List.mem_cons_of_mem _ hmem)
    · obtain ⟨hfound, hkept⟩ := ih matched (kept ++ [next])
      refine ⟨fun response h => ?_, ?_⟩
      · exact (hfound response h).imp_right fun ⟨hmem, hcode⟩ =>
          ⟨List.mem_cons_of_mem _ hmem, hcode⟩
      · rwa [List.append_assoc, List.singleton_append] at hkept

theorem mem_of_takeQueued {codes : List UInt8} {queue : List (UInt8 × Bytes)}
    {response : UInt8 × Bytes} (h : (takeQueued codes queue).1 = some response) :
    response ∈ queue ∧ response.1 ∈ codes :=
  ((foldl_takeQueued codes none [] queue).1 response h).resolve_left nofun

theorem takeQueued_subset (codes : List UInt8) (queue : List (UInt8 × Bytes)) :
    (takeQueued codes queue).2 ⊆ queue :=
  (foldl_takeQueued codes none [] queue).2

def CommandPhase.holder : CommandPhase → Option ℕ
  | .armed call _ _ | .waiting call => some call
  | .free | .leaving => none

def CommandPhase.unwritten : CommandPhase → List ℕ
  | .armed call _ _ => [call]
  | _ => []

namespace Commands

variable {clock : ℕ → ℚ} {s t : Commands} {a : CommandAction}

def exchange (s : Commands) : Exchange (UInt8 × Bytes) where
  calls := s.calls
  holder := s.phase.holder
  onWay := s.wire.map Prod.fst ++ s.phase.unwritten
  outstanding := s.inbox
  slot := s.rx.pendingResponse
  received := s.received
  answered := s.answered
  returned := s.returned

/-- The call made a command that the response is accepted for. -/
def Accepts (s : Commands) (call : ℕ) (response : UInt8 × Bytes) : Prop :=
  ∃ subCmd, (call, subCmd) ∈ s.asked ∧ response.1 ∈ acceptable subCmd

/-- While a call holds the lock, its codes are the expected ones. -/
def Expecting (s : Commands) : Prop :=
  ∀ call, s.phase.holder = some call →
    ∃ subCmd, (call, subCmd) ∈ s.asked ∧ s.rx.expectedResponseSubcmds = some (acceptable subCmd)

theorem Expecting.of_same (hs : s.Expecting) (hphase : t.phase.holder = s.phase.holder)
    (hasked : t.asked = s.asked)
    (hexpected : t.rx.expectedResponseSubcmds = s.rx.expectedResponseSubcmds) : t.Expecting := by
  intro call hcall
  rw [hasked, hexpected]
  exact hs call (hphase ▸ hcall)

theorem Expecting.of_free (hphase : t.phase.holder = none) : t.Expecting := by
  intro call hcall
  rw [hphase] at hcall
  cases hcall

theorem Expecting.sendCommand (hphase : s.phase = .free) (subCmd : UInt8) (data : Bytes) :
    (s.sendCommand subCmd data).Expecting := by
  unfold Commands.sendCommand
  dsimp only
  split
  · exact .of_free (by rw [hphase]; rfl)
  · intro call hcall
    cases hcall
    exact ⟨subCmd, List.mem_append_right _ (List.mem_singleton_self _), rfl⟩

theorem Expecting.step (hs : s.Expecting) (h : step clock s a = some t) : t.Expecting := by
  cases a with
  | refuse link inReconnectThread =>
    simp only [Commands.step, Option.ite_none_right_eq_some, Option.some.injEq] at h
    obtain ⟨-, rfl⟩ := h
    exact hs.of_same rfl rfl rfl
  | sendCommand link inReconnectThread subCmd data =>
    simp only [Commands.step] at h
    split at h
    · rename_i hphase
      simp only [Option.ite_none_left_eq_some, Option.some.injEq] at h
      obtain ⟨-, rfl⟩ := h
      exact .sendCommand hphase subCmd data
    · cases h
  | write =>
    simp only [Commands.step] at h
    split at h
    · rename_i call subCmd data hphase
      cases h
      exact hs.of_same (by rw [hphase]; rfl) rfl rfl
    · cases h
  | writeFails written | take | giveUp | leave =>
    simp only [Commands.step] at h
    repeat' split at h
    all_goals first | cases h; exact .of_free rfl | cases h
  | lose | cleanup =>
    cases h
    exact hs.of_same rfl rfl rfl
  | reach =>
    simp only [Commands.step] at h
    split at h
    · cases h
      exact hs.of_same rfl rfl rfl
    · cases h
  | respond subCmd payload =>
    simp only [Commands.step] at h
    split at h
    · cases h
      exact hs.of_same rfl rfl (processReceivedFrame_routed clock s.rx subCmd payload).expected
    · cases h
  | otherFrame buffer =>
    simp only [Commands.step, Option.ite_none_left_eq_some, Option.some.injEq] at h
    obtain ⟨hother, rfl⟩ := h
    exact hs.of_same rfl rfl (processReceivedFrame_same clock s.rx hother).2.2

/-- What a step is to the exchange. The first case is the only one that is none of its steps. -/
inductive Effect (fits : ℕ → UInt8 × Bytes → Prop) (s t : Commands) : Prop
  | queued {response : UInt8 × Bytes} (hfree : s.phase.holder = none)
      (hqueue : response ∈ s.rx.responseQueue) (hfits : fits s.calls response)
      (hanswered : s.answered ⊆ t.answered) (hreturned : s.returned ⊆ t.returned)
  | lost {call : ℕ} {inbox : List ℕ} {response : UInt8 × Bytes} (hinbox : s.inbox = call :: inbox)
      (hqueue : t.rx.responseQueue ⊆ s.rx.responseQueue ++ [response])
      (h : t.exchange = { s.exchange with
        outstanding := inbox, answered := s.answered ++ [(call, response)] })
  | steps (hqueue : t.rx.responseQueue ⊆ s.rx.responseQueue)
      (h : Relation.ReflTransGen (Exchange.Step fits) s.exchange t.exchange)

variable {fits : ℕ → UInt8 × Bytes → Prop}

theorem effect_sendCommand (hphase : s.phase = .free) (subCmd : UInt8) (data : Bytes)
    (hfits : ∀ call response, (s.sendCommand subCmd data).Accepts call response →
      fits call response) :
    Effect fits s (s.sendCommand subCmd data) := by
  have hqueue := takeQueued_subset (acceptable subCmd) s.rx.responseQueue
  unfold sendCommand at hfits ⊢
  dsimp only at hfits ⊢
  split at hfits
  · rename_i response htaken
    obtain ⟨hmem, hcode⟩ := mem_of_takeQueued htaken
    refine Effect.queued (by rw [hphase]; rfl) hmem (hfits s.calls response ?_)
      (List.Subset.refl _) (List.subset_append_left _ _)
    exact ⟨subCmd, List.mem_append_right _ (List.mem_singleton_self _), hcode⟩
  · refine Effect.steps hqueue (Relation.ReflTransGen.single ?_)
    have hstart : Exchange.Step fits s.exchange _ :=
      .start (by simp [exchange, hphase, CommandPhase.holder])
    simpa [exchange, hphase, CommandPhase.unwritten, CommandPhase.holder] using hstart

/-- The step of a call that holds the lock and returns `response`. -/
theorem exchange_finish {call : ℕ} {response : Option (UInt8 × Bytes)}
    (hphase : s.phase = .waiting call) (h : response = none ∨ response = s.rx.pendingResponse) :
    Exchange.Step fits s.exchange (s.finish call response).exchange := by
  have hfinish : Exchange.Step fits s.exchange _ :=
    .finish (i := call) (v := response) (by simp [exchange, hphase, CommandPhase.holder]) h
  simpa [exchange, finish, hphase, CommandPhase.holder, CommandPhase.unwritten] using hfinish

theorem exchange_writeFails {call : ℕ} {subCmd : UInt8} {data : Bytes}
    (hphase : s.phase = .armed call subCmd data) (written : Bool) :
    Relation.ReflTransGen (Exchange.Step fits) s.exchange
      ({ s with
          wire := s.wire ++ if written then [(call, commandFrame subCmd data)] else [] }.finish
        call none).exchange := by
  have hleft : (s.wire.map Prod.fst ++ if written then [call] else []).Sublist
      s.exchange.onWay := by
    simp only [exchange, hphase, CommandPhase.unwritten]
    cases written
    · exact (List.nil_sublist _).append_left _
    · exact List.Sublist.refl _
  have hgiveUp : Relation.ReflTransGen (Exchange.Step fits) s.exchange _ :=
    Exchange.steps_giveUp (i := call) _ (by simp [exchange, hphase, CommandPhase.holder]) hleft
  cases written <;>
    simpa [exchange, finish, CommandPhase.holder, CommandPhase.unwritten] using hgiveUp

/-- The codes that the receive thread expects are those of the call that holds the lock. -/
theorem Expecting.accepts (hs : s.Expecting) {response : UInt8 × Bytes}
    (hexpected : s.rx.expectedResponseSubcmds.any (response.1 ∈ ·)) (call : ℕ)
    (hcall : s.phase.holder = some call) : s.Accepts call response := by
  obtain ⟨subCmd, hasked, hcodes⟩ := hs call hcall
  rw [hcodes] at hexpected
  exact ⟨subCmd, hasked, by simpa using hexpected⟩

theorem effect_respond (hs : s.Expecting)
    (hfits : ∀ call response, s.Accepts call response → fits call response) {call : ℕ}
    {inbox : List ℕ} (hinbox : s.inbox = call :: inbox) (subCmd : UInt8) (payload : Bytes) :
    Effect fits s { s with
      rx := processReceivedFrame clock s.rx
        (UInt8.ofNat kissCmdSetHardware :: subCmd :: payload)
      inbox
      answered := s.answered ++ [(call, subCmd, payload)] } := by
  rcases (processReceivedFrame_routed clock s.rx subCmd payload).routed with
    ⟨hqueue, hpending, hexpected⟩ | ⟨hpending, hqueue⟩
  · refine .steps (by rw [hqueue]; exact List.Subset.refl _) (.single ?_)
    exact .answer hinbox (Or.inr ⟨hpending, fun holder hholder =>
      hfits holder _ (hs.accepts hexpected holder hholder)⟩)
  · refine @Effect.lost fits s _ call inbox (subCmd, payload) hinbox hqueue ?_
    simp only [exchange, hpending]

theorem effect_step (hs : s.Expecting) (h : step clock s a = some t)
    (hfits : ∀ call response, t.Accepts call response → fits call response) : Effect fits s t := by
  cases a with
  | refuse link inReconnectThread =>
    simp only [step, Option.ite_none_right_eq_some, Option.some.injEq] at h
    obtain ⟨-, rfl⟩ := h
    exact .steps (List.Subset.refl _) (.single .refuse)
  | sendCommand link inReconnectThread subCmd data =>
    simp only [step] at h
    split at h
    · rename_i hphase
      simp only [Option.ite_none_left_eq_some, Option.some.injEq] at h
      obtain ⟨-, rfl⟩ := h
      exact effect_sendCommand hphase subCmd data hfits
    · cases h
  | write =>
    simp only [step] at h
    split at h
    · rename_i call subCmd data hphase
      cases h
      refine .steps (List.Subset.refl _) ?_
      simp only [exchange, hphase, CommandPhase.holder, CommandPhase.unwritten, List.map_append,
        List.map_cons, List.map_nil, List.append_nil]
      exact .refl
    · cases h
  | writeFails written =>
    simp only [step] at h
    split at h
    · rename_i call subCmd data hphase
      cases h
      exact .steps (List.Subset.refl _) (exchange_writeFails hphase written)
    · cases h
  | lose =>
    cases h
    refine .steps (List.Subset.refl _) (.single ?_)
    exact .lose (((List.tail_sublist s.wire).map Prod.fst).append_right s.phase.unwritten)
  | reach =>
    simp only [step] at h
    split at h
    · rename_i call frame wire hwire
      cases h
      refine .steps (List.Subset.refl _) (.single ?_)
      exact .receive (by simp [exchange, hwire])
    · cases h
  | respond subCmd payload =>
    simp only [step] at h
    split at h
    · rename_i call inbox hinbox
      cases h
      exact effect_respond hs hfits hinbox subCmd payload
    · cases h
  | otherFrame buffer =>
    simp only [step, Option.ite_none_left_eq_some, Option.some.injEq] at h
    obtain ⟨hother, rfl⟩ := h
    obtain ⟨hqueue, hpending, -⟩ := processReceivedFrame_same clock s.rx hother
    refine .steps (by rw [hqueue]; exact List.Subset.refl _) ?_
    simp only [exchange, hpending]
    exact .refl
  | cleanup =>
    cases h
    exact .steps (List.Subset.refl _) .refl
  | take =>
    simp only [step] at h
    split at h
    · rename_i call hphase
      simp only [Option.ite_none_right_eq_some, Option.some.injEq] at h
      obtain ⟨-, rfl⟩ := h
      exact .steps (List.Subset.refl _) (.single (exchange_finish hphase (Or.inr rfl)))
    · cases h
  | giveUp =>
    simp only [step] at h
    split at h
    · rename_i call hphase
      cases h
      exact .steps (List.Subset.refl _) (.single (exchange_finish hphase (Or.inl rfl)))
    · cases h
  | leave =>
    simp only [step] at h
    split at h
    · rename_i hphase
      cases h
      refine .steps (List.Subset.refl _) ?_
      simp only [exchange, hphase]
      exact .refl
    · cases h

theorem asked_step (h : step clock s a = some t) : s.asked ⊆ t.asked := by
  cases a with
  | sendCommand link inReconnectThread subCmd data =>
    simp only [step, sendCommand] at h
    repeat' split at h
    all_goals first | cases h; exact List.subset_append_left _ _ | cases h
  | _ =>
    simp only [step] at h
    repeat' split at h
    all_goals first | cases h; exact List.Subset.refl _ | cases h

/-- As long as no answer to a call that returned without a response fits another call, the wrapper
is an exchange, and what it queues are answers that did not reach their call. -/
def Follows (fits : ℕ → UInt8 × Bytes → Prop) (s : Commands) : Prop :=
  (∀ call response, s.Accepts call response → fits call response) → s.exchange.Kept fits →
    s.exchange.Reachable fits ∧ ∀ response ∈ s.rx.responseQueue, s.exchange.Lost response

theorem Follows.step (hs : s.Follows fits) (hexpecting : s.Expecting)
    (h : step clock s a = some t) : t.Follows fits := by
  intro hfits hk
  have hbefore : ∀ call response, s.Accepts call response → fits call response :=
    fun call response ⟨subCmd, hasked, hcode⟩ =>
      hfits call response ⟨subCmd, asked_step h hasked, hcode⟩
  cases effect_step hexpecting h hfits with
  | @queued response hfree hqueue hnew hanswered hreturned =>
    -- the queued response is an answer to an earlier call that has given up
    have hkept : s.exchange.Kept fits := hk.anti hanswered hreturned
    obtain ⟨hreach, hlost⟩ := hs hbefore hkept
    obtain ⟨call, hcall, ⟨hholder, -⟩ | hgone⟩ := hlost response hqueue
    · rw [exchange, hfree] at hholder
      cases hholder
    · have hsound := hreach.sound hkept
      have hlt := hsound.fresh call (List.mem_append_left _ (hsound.known call response hcall))
      exact absurd hnew (hkept call response hgone hcall s.calls hlt.ne')
  | @lost call inbox response hinbox hqueue heq =>
    have hanswer : Exchange.Step fits s.exchange t.exchange := by
      rw [heq]
      exact .answer hinbox (Or.inl rfl)
    obtain ⟨hreach, hlost⟩ := hs hbefore (hk.of_step hanswer)
    have hsound := hreach.sound (hk.of_step hanswer)
    refine ⟨hreach.tail hanswer, fun queued hmem => ?_⟩
    rcases List.mem_append.mp (hqueue hmem) with hmem | hmem
    · exact (hlost queued hmem).step hsound hanswer hk
    · cases List.mem_singleton.mp hmem
      rw [heq]
      exact hsound.lost_of_answer hinbox
  | steps hqueue hsteps =>
    obtain ⟨hreach, hlost⟩ := hs hbefore (hk.of_steps hsteps)
    exact ⟨hreach.trans hsteps, fun response hmem =>
      (hlost response (hqueue hmem)).steps hreach hsteps hk⟩

end Commands

end OpenHop.Kiss.KissModemWrapper
