import OpenHop.Machine.Runs
import OpenHop.Node.ProtocolResponse

/-! # Login sessions of the frame server

Login commands for one public key share a session: the first command opens it and registers
its callback for the reply, and later ones join it. Each command waits in its own send.
-/

namespace OpenHop

open Machine

def frameLoginPendingTtl : ℚ := 120

structure LoginReply where
  timestamp : ℕ
  responseCode : UInt8
  keepAliveInterval : UInt8
  adminCode : UInt8
  permissions : UInt8
  randomBlob : Bytes
  firmwareVerLevel : Option UInt8
  deriving DecidableEq

namespace LoginReply

def respServerLoginOk : UInt8 := 0x80
def respServerLoginSuccessAlt : UInt8 := 0x00
def loginAdminCodeAdmin : UInt8 := 1

def success (data : LoginReply) : Bool :=
  data.responseCode = respServerLoginOk ∨ data.responseCode = respServerLoginSuccessAlt

/-- The fields of a reply that is long enough. -/
def ofBytes (plaintext : Bytes) : LoginReply where
  timestamp := Bytes.toNatLE (plaintext.take 4)
  responseCode := plaintext.getD 4 0
  keepAliveInterval := plaintext.getD 5 0
  adminCode := plaintext.getD 6 0
  permissions := plaintext.getD 7 0
  randomBlob := (plaintext.drop 8).take 4
  firmwareVerLevel := plaintext[12]?

/-- The response in the envelope of a path return. -/
def unwrapPath (plaintext : Bytes) : Option (Option Bytes) :=
  match plaintext with
  | [] => none
  | pathLenByte :: _ =>
    if ¬ PathUtils.isValidPathLen pathLenByte.toNat then none
    else
      let pathByteLen := PathUtils.getPathByteLen pathLenByte.toNat
      let innerOffset := 1 + pathByteLen + 1
      if plaintext.length < innerOffset then none
      else
        let extraType := (plaintext.getD (1 + pathByteLen) 0).toNat &&& 0x0F
        if extraType ≠ payloadTypeResponse ∨ plaintext.length ≤ innerOffset then some none
        else some (some (plaintext.drop innerOffset))

/-- The reply in a plaintext that passed the MAC of a contact: none if the packet is not taken as
authenticated after all, `some none` if it is but has no login reply in it. -/
def decryptResponse (pktType : ℕ) (plaintext : Bytes) : Option (Option LoginReply) :=
  if plaintext.isEmpty then none
  else
    let inner := if pktType = payloadTypePath then unwrapPath plaintext else some (some plaintext)
    inner.map fun response => response.bind fun plaintext =>
      if plaintext.length < 12 then none else some (ofBytes plaintext)

theorem unwrapPath_eq (plaintext : Bytes) :
    unwrapPath plaintext = ProtocolResponses.responsePayload payloadTypePath plaintext := by
  unfold unwrapPath ProtocolResponses.responsePayload
  rw [if_pos rfl]
  cases plaintext with
  | nil => rfl
  | cons b rest =>
    dsimp only
    rw [Nat.add_sub_cancel]
    simp only [← not_lt, ← not_and_or, ne_eq, ite_not]

end LoginReply

/-- What the login task returns for a reply. -/
structure LoginResult where
  success : Bool
  repeater : List Char
  isAdmin : Bool
  adminCode : UInt8
  keepAliveInterval : UInt8
  tag : ℕ
  aclPermissions : UInt8
  firmwareVerLevel : Option UInt8
  reason : List Char
  deriving DecidableEq

def buildLoginResult (contactName : List Char) (success : Bool) (data : LoginReply) :
    LoginResult where
  success := success
  repeater := contactName
  isAdmin := data.adminCode == LoginReply.loginAdminCodeAdmin
  adminCode := data.adminCode
  keepAliveInterval := data.keepAliveInterval
  tag := data.timestamp
  aclPermissions := data.permissions
  firmwareVerLevel := data.firmwareVerLevel
  reason := (if success then "Login successful" else "Login failed").toList

inductive LoginTask
  | waiting
  | timedOut
  | replied (result : LoginResult)
  deriving DecidableEq

/-- A `_PendingFrameLogin`. `heard` is what its callback stored: the event is set when it is not
none. -/
structure FrameSession where
  contactName : List Char
  heard : Option (Bool × LoginReply) := none
  expiresAt : ℚ
  task : Option LoginTask := none

def FrameSession.finished (session : FrameSession) : Bool :=
  session.heard.isSome ||
    match session.task with
    | none | some .waiting => false
    | some _ => true

/-- A call that is waiting in its send. -/
structure LoginCall where
  call : ℕ
  session : ℕ
  sessionOwner : Bool

inductive LoginStart
  | notFound
  | badState
  | sendFailed
  | started (session : ℕ) (sessionOwner : Bool)
  deriving DecidableEq

/-- The login sessions of one public key. `heap` has all sessions in the order of their creation,
`pending` is the entry of `_pending_frame_logins` and `callback` the session whose callback is
in `_pending_logins`. -/
structure FrameLogins where
  now : ℚ := 0
  heap : List FrameSession := []
  pending : Option ℕ := none
  callback : Option ℕ := none
  password : Option (List Char) := none
  calls : ℕ := 0
  sending : List LoginCall := []
  returned : List (ℕ × LoginStart) := []

inductive LoginAction
  | request (contact : Option (List Char)) (hasHandler : Bool) (password : List Char)
  | sendFails (call : ℕ)
  | sendSucceeds (call : ℕ)
  /-- The packet cannot be built, or the send raises. -/
  | sendRaises (call : ℕ)
  /-- The task of a session runs. -/
  | poll (session : ℕ)
  /-- A packet whose MAC is that of the key; `foreign` if its tag is that of another request. -/
  | reply (pktType : ℕ) (plaintext : Bytes) (foreign : Bool)
  | wait (seconds : ℚ)

namespace FrameLogins

variable {s t : FrameLogins} {k : ℕ}

def removeLoginCallback (s : FrameLogins) (k : ℕ) : FrameLogins :=
  if s.callback = some k then { s with callback := none } else s

/-- Take session `k` out of the table, with its callback. -/
def detach (s : FrameLogins) (k : ℕ) : FrameLogins :=
  { s with pending := none }.removeLoginCallback k

/-- Detach session `k` if it is still the pending one, and forget the password. -/
def close (s : FrameLogins) (k : ℕ) : FrameLogins :=
  if s.pending = some k then { s.detach k with password := none } else s

def dropFinished (s : FrameLogins) : FrameLogins :=
  match s.pending with
  | none => s
  | some k => if (s.heap[k]?).any FrameSession.finished then s.detach k else s

def setSession (s : FrameLogins) (k : ℕ) (f : FrameSession → FrameSession) : FrameLogins :=
  { s with heap := s.heap.modify k f }

def openSession (s : FrameLogins) (contactName : List Char) : FrameLogins × LoginCall :=
  match s.pending with
  | some k => (s, ⟨s.calls, k, false⟩)
  | none =>
    let k := s.heap.length
    ({ s with
        heap := s.heap ++ [{ contactName, expiresAt := s.now + frameLoginPendingTtl }]
        pending := some k
        callback := some k },
      ⟨s.calls, k, true⟩)

/-- `_start_frame_login_request` up to its send. -/
def request (s : FrameLogins) (contact : Option (List Char)) (hasHandler : Bool)
    (password : List Char) : FrameLogins :=
  match contact, hasHandler with
  | none, _ => { s with calls := s.calls + 1, returned := s.returned ++ [(s.calls, .notFound)] }
  | some _, false =>
    { s with calls := s.calls + 1, returned := s.returned ++ [(s.calls, .badState)] }
  | some contactName, true =>
    let opened := s.dropFinished.openSession contactName
    { opened.1 with
      password := some password
      calls := s.calls + 1
      sending := opened.1.sending ++ [opened.2] }

/-- The call leaves its send. -/
def leave (s : FrameLogins) (call : ℕ) : FrameLogins :=
  { s with sending := s.sending.filter (·.call ≠ call) }

def sendFails (s : FrameLogins) (c : LoginCall) : FrameLogins :=
  let left := s.leave c.call
  let closed := if c.sessionOwner then left.close c.session else left
  { closed with returned := closed.returned ++ [(c.call, .sendFailed)] }

def refresh (now : ℚ) (session : FrameSession) : FrameSession :=
  { session with
    expiresAt := now + frameLoginPendingTtl, task := session.task.or (some .waiting) }

def sendSucceeds (s : FrameLogins) (c : LoginCall) : FrameLogins :=
  let left := (s.leave c.call).setSession c.session (refresh s.now)
  { left with returned := left.returned ++ [(c.call, .started c.session c.sessionOwner)] }

/-- `_wait_for_frame_login` when it is resumed: none if it goes on waiting. -/
def wake (now : ℚ) (session : FrameSession) : Option LoginTask :=
  match session.heard with
  | some (success, data) => some (.replied (buildLoginResult session.contactName success data))
  | none => if session.expiresAt - now ≤ 0 then some .timedOut else none

/-- `_login_cb`: only the first reply counts. -/
def hear (outcome : Bool × LoginReply) (session : FrameSession) : FrameSession :=
  { session with heard := session.heard.or (some outcome) }

/-- `LoginResponseHandler.__call__` for a packet of the contact with the key. -/
def reply (s : FrameLogins) (pktType : ℕ) (plaintext : Bytes) (foreign : Bool) : FrameLogins :=
  if s.password.isNone ∧ s.callback.isNone then s
  else
    match LoginReply.decryptResponse pktType plaintext with
    | none => s
    | some response =>
      if foreign ∧ response.isSome then s
      else
        match s.callback, response with
        | some k, some data =>
          { s.setSession k (hear (data.success, data)) with password := none }
        | _, _ => s

def step (s : FrameLogins) : LoginAction → Option FrameLogins
  | .request contact hasHandler password => some (s.request contact hasHandler password)
  | .sendFails call => (s.sending.find? (·.call = call)).map s.sendFails
  | .sendSucceeds call => (s.sending.find? (·.call = call)).map s.sendSucceeds
  | .sendRaises call => some (s.leave call)
  | .poll k => do
    let session ← s.heap[k]?
    if session.task = some .waiting then
      let task ← wake s.now session
      return (s.setSession k fun session => { session with task := some task }).close k
    else none
  | .reply pktType plaintext foreign => some (s.reply pktType plaintext foreign)
  | .wait seconds => if 0 ≤ seconds then some { s with now := s.now + seconds } else none

def startedOn (k : ℕ) : LoginStart → Bool
  | .started j _ => j = k
  | _ => false

/-- Whether another call is on session `k`: it is in its send, or has returned success. -/
def shared (s : FrameLogins) (k call : ℕ) : Bool :=
  s.sending.any (fun c => c.call ≠ call && c.session = k) ||
    s.returned.any fun r => startedOn k r.2

/-- The steps that can cut session `k` off from its reply: the send of its owner fails while
another call is on the session, or its task times out while a call on it is in its send. -/
def disturbs (k : ℕ) (s : FrameLogins) : LoginAction → Bool
  | .sendFails call =>
    s.pending = some k && (s.heap[k]?).any (·.heard.isNone) &&
      s.sending.any (fun c => c.call = call && c.session = k && c.sessionOwner) &&
      s.shared k call
  | .poll j =>
    j = k && (s.heap[k]?).any (·.heard.isNone) && s.sending.any fun c => c.session = k
  | _ => false

def Sends (s : FrameLogins) (k : ℕ) : Prop := ∃ c ∈ s.sending, c.session = k

def Started (s : FrameLogins) (k : ℕ) : Prop :=
  ∃ call sessionOwner, (call, .started k sessionOwner) ∈ s.returned

/-- The callback that is registered is that of the pending session. -/
structure Agrees (s : FrameLogins) : Prop where
  callback : s.callback = s.pending
  bound : ∀ k, s.pending = some k → k < s.heap.length

theorem Agrees.detach (hs : s.Agrees) (h : s.pending = some k) : (s.detach k).Agrees := by
  have hcallback : s.callback = some k := hs.callback.trans h
  constructor
  · simp [FrameLogins.detach, removeLoginCallback, hcallback]
  · simp [FrameLogins.detach, removeLoginCallback, hcallback]

theorem Agrees.close (hs : s.Agrees) (k : ℕ) : (s.close k).Agrees := by
  unfold FrameLogins.close
  split
  · rename_i h
    exact ⟨(hs.detach h).callback, (hs.detach h).bound⟩
  · exact hs

theorem Agrees.dropFinished (hs : s.Agrees) : s.dropFinished.Agrees := by
  unfold FrameLogins.dropFinished
  split
  · exact hs
  · rename_i k h
    split
    · exact hs.detach h
    · exact hs

theorem Agrees.openSession (hs : s.Agrees) (contactName : List Char) :
    (s.openSession contactName).1.Agrees := by
  unfold FrameLogins.openSession
  split
  · exact hs
  · exact ⟨rfl, by rintro k ⟨⟩; simp⟩

theorem Agrees.setSession (hs : s.Agrees) (k : ℕ) (f : FrameSession → FrameSession) :
    (s.setSession k f).Agrees :=
  ⟨hs.callback, fun j hj => by
    simpa [FrameLogins.setSession] using hs.bound j hj⟩

theorem step_poll_eq_some {j : ℕ} :
    s.step (.poll j) = some t ↔ ∃ session task, s.heap[j]? = some session ∧
      session.task = some .waiting ∧ wake s.now session = some task ∧
      t = (s.setSession j fun session => { session with task := some task }).close j := by
  simp only [step, Option.bind_eq_bind, Option.bind_eq_some_iff, Option.ite_none_right_eq_some,
    Option.pure_def, Option.some.injEq]
  constructor
  · rintro ⟨session, hsession, hwaiting, task, htask, rfl⟩
    exact ⟨session, task, hsession, hwaiting, htask, rfl⟩
  · rintro ⟨session, task, hsession, hwaiting, htask, rfl⟩
    exact ⟨session, hsession, hwaiting, task, htask, rfl⟩

theorem reply_cases (s : FrameLogins) (pktType : ℕ) (plaintext : Bytes) (foreign : Bool) :
    s.reply pktType plaintext foreign = s ∨
    ∃ k data, s.callback = some k ∧ s.reply pktType plaintext foreign =
      { s.setSession k (hear (data.success, data)) with password := none } := by
  unfold reply
  split
  · exact Or.inl rfl
  · split
    · exact Or.inl rfl
    · split
      · exact Or.inl rfl
      · split
        · rename_i k data hcallback _ _
          exact Or.inr ⟨k, data, hcallback, rfl⟩
        · exact Or.inl rfl

theorem Agrees.step {a : LoginAction} (hs : s.Agrees) (h : s.step a = some t) : t.Agrees := by
  cases a with
  | request contact hasHandler password =>
    cases h
    unfold FrameLogins.request
    split
    · exact ⟨hs.callback, hs.bound⟩
    · exact ⟨hs.callback, hs.bound⟩
    · rename_i contactName
      have hopen := hs.dropFinished.openSession contactName
      exact ⟨hopen.callback, hopen.bound⟩
  | sendFails call =>
    obtain ⟨c, -, rfl⟩ := Option.map_eq_some_iff.mp h
    have hleave : (s.leave c.call).Agrees := ⟨hs.callback, hs.bound⟩
    unfold FrameLogins.sendFails
    cases c.sessionOwner
    · exact ⟨hleave.callback, hleave.bound⟩
    · exact ⟨(hleave.close c.session).callback, (hleave.close c.session).bound⟩
  | sendSucceeds call =>
    obtain ⟨c, -, rfl⟩ := Option.map_eq_some_iff.mp h
    have hleave : (s.leave c.call).Agrees := ⟨hs.callback, hs.bound⟩
    have hset := hleave.setSession c.session (refresh s.now)
    exact ⟨hset.callback, hset.bound⟩
  | sendRaises call =>
    cases h
    exact ⟨hs.callback, hs.bound⟩
  | poll j =>
    obtain ⟨session, task, -, -, -, rfl⟩ := step_poll_eq_some.mp h
    exact (hs.setSession j _).close j
  | reply pktType plaintext foreign =>
    cases h
    rcases reply_cases s pktType plaintext foreign with heq | ⟨k, data, -, heq⟩
    · rwa [heq]
    · have hset := hs.setSession k (hear (data.success, data))
      rw [heq]
      exact ⟨hset.callback, hset.bound⟩
  | wait seconds =>
    simp only [FrameLogins.step, Option.ite_none_right_eq_some, Option.some.injEq] at h
    obtain ⟨-, rfl⟩ := h
    exact ⟨hs.callback, hs.bound⟩

theorem detach_eq (s : FrameLogins) (k : ℕ) :
    s.detach k = { s with
      pending := none, callback := if s.callback = some k then none else s.callback } := by
  unfold detach removeLoginCallback
  split_ifs with h
  · rfl
  · rfl

theorem close_eq (s : FrameLogins) (k : ℕ) :
    ∃ callback password, s.close k = { s with
      pending := if s.pending = some k then none else s.pending, callback, password } := by
  unfold close
  split_ifs with h
  · rw [detach_eq]
    exact ⟨_, _, rfl⟩
  · exact ⟨s.callback, s.password, rfl⟩

theorem close_heap (s : FrameLogins) (k : ℕ) : (s.close k).heap = s.heap := by
  obtain ⟨callback, password, hclose⟩ := close_eq s k
  rw [hclose]

theorem dropFinished_eq (s : FrameLogins) :
    s.dropFinished = s ∨ ∃ j old callback, s.pending = some j ∧ s.heap[j]? = some old ∧
      old.finished ∧ s.dropFinished = { s with pending := none, callback } := by
  unfold dropFinished
  split
  · exact Or.inl rfl
  · rename_i j hpending
    split_ifs with hfinished
    · obtain ⟨old, hold, hdone⟩ := (Option.any_eq_true _ _).mp hfinished
      exact Or.inr ⟨j, old, _, hpending, hold, hdone, detach_eq s j⟩
    · exact Or.inl rfl

/-- What a step can do to session `k`. -/
inductive Change (k : ℕ) (s : FrameLogins) (a : LoginAction) (t : FrameLogins) : Prop
  | other (hheap : t.heap[k]? = s.heap[k]?) (hpending : t.pending = some k ↔ s.pending = some k)
      (hsends : t.Sends k → s.Sends k) (hstarted : t.Started k → s.Started k)
      (hnow : s.now ≤ t.now)
  | opened {session : FrameSession} (hnew : s.heap[k]? = none) (hheap : t.heap[k]? = some session)
      (hheard : session.heard = none) (htask : session.task = none) (hpending : t.pending = some k)
      (hstarted : t.Started k → s.Started k)
  | joined (hheap : t.heap[k]? = s.heap[k]?) (hold : s.pending = some k)
      (hpending : t.pending = some k) (hstarted : t.Started k → s.Started k)
  | replaced {session : FrameSession} (hsession : s.heap[k]? = some session)
      (hfinished : session.finished) (hheap : t.heap[k]? = s.heap[k]?)
      (hold : s.pending = some k) (hstarted : t.Started k → s.Started k)
  /-- The send of the owner fails. -/
  | failed (hheap : t.heap[k]? = s.heap[k]?) (hold : s.pending = some k)
      (hpending : t.pending ≠ some k) (hstarted : t.Started k → s.Started k)
      (hcalm : ∀ session, s.heap[k]? = some session → session.heard = none →
        s.disturbs k a = false → ¬t.Sends k ∧ ¬t.Started k)
  | succeeded (hsends : s.Sends k) (hheap : t.heap[k]? = (s.heap[k]?).map (refresh s.now))
      (hpending : t.pending = some k ↔ s.pending = some k)
  | polled {session : FrameSession} {task : LoginTask} (hsession : s.heap[k]? = some session)
      (hwaiting : session.task = some .waiting) (hwake : wake s.now session = some task)
      (hheap : t.heap[k]? = some { session with task := some task }) (hpending : t.pending ≠ some k)
      (hsends : t.Sends k → s.Sends k) (hstarted : t.Started k → s.Started k)
      (hnow : t.now = s.now)
      (hcalm : session.heard = none → s.disturbs k a = false → ¬t.Sends k)
  | answered {outcome : Bool × LoginReply} (hcallback : s.callback = some k)
      (hheap : t.heap[k]? = (s.heap[k]?).map (hear outcome))
      (hpending : t.pending = some k ↔ s.pending = some k) (hstarted : t.Started k → s.Started k)

theorem sends_append {c : LoginCall} (hne : c.session ≠ k)
    (hsending : t.sending = s.sending ++ [c]) : t.Sends k → s.Sends k := by
  rintro ⟨d, hd, hdk⟩
  rw [hsending, List.mem_append, List.mem_singleton] at hd
  rcases hd with hd | rfl
  · exact ⟨d, hd, hdk⟩
  · exact absurd hdk hne

theorem sends_leave {call : ℕ} (hsending : t.sending = (s.leave call).sending) :
    t.Sends k → s.Sends k := by
  rintro ⟨d, hd, hdk⟩
  rw [hsending] at hd
  exact ⟨d, List.mem_of_mem_filter hd, hdk⟩

theorem started_append {call : ℕ} {start : LoginStart} (hne : startedOn k start = false)
    (hreturned : t.returned = s.returned ++ [(call, start)]) : t.Started k → s.Started k := by
  rintro ⟨i, sessionOwner, hmem⟩
  rw [hreturned, List.mem_append, List.mem_singleton] at hmem
  rcases hmem with hmem | hmem
  · exact ⟨i, sessionOwner, hmem⟩
  · cases hmem
    simp [startedOn] at hne

theorem started_congr (hreturned : t.returned = s.returned) : t.Started k → s.Started k := by
  unfold Started
  rw [hreturned]
  exact id

/-- A login command when session `k` is not pending and no other one is joined. -/
theorem change_open {a : LoginAction} {session : FrameSession} {c : LoginCall}
    (hk : s.pending ≠ some k) (hpending : t.pending = some s.heap.length)
    (hheap : t.heap = s.heap ++ [session]) (hheard : session.heard = none)
    (htask : session.task = none) (hc : c.session = s.heap.length)
    (hsending : t.sending = s.sending ++ [c]) (hreturned : t.returned = s.returned)
    (hnow : t.now = s.now) : Change k s a t := by
  have hstarted : t.Started k → s.Started k := started_congr hreturned
  by_cases hlen : s.heap.length = k
  · subst hlen
    refine .opened (List.getElem?_eq_none le_rfl) ?_ hheard htask hpending hstarted
    rw [hheap, List.getElem?_concat_length]
  · refine .other ?_ ?_ (sends_append (hc ▸ hlen) hsending) hstarted hnow.ge
    · rw [hheap]
      rcases Nat.lt_or_ge k s.heap.length with hlt | hge
      · exact List.getElem?_append_left hlt
      · have hlt : s.heap.length < k := Nat.lt_of_le_of_ne hge hlen
        rw [List.getElem?_eq_none hge, List.getElem?_eq_none]
        simpa using Nat.succ_le_of_lt hlt
    · rw [hpending, Option.some.injEq]
      exact iff_of_false hlen hk

theorem change_request (s : FrameLogins) (k : ℕ) (contactName password : List Char)
    (a : LoginAction) : Change k s a (s.request (some contactName) true password) := by
  simp only [request]
  rcases dropFinished_eq s with heq | ⟨j, old, callback, hpending, hold, hfinished, heq⟩
  · rw [heq]
    rcases hpending : s.pending with _ | j
    · simp only [openSession, hpending]
      exact change_open (by simp [hpending]) rfl rfl rfl rfl rfl rfl rfl rfl
    · simp only [openSession, hpending]
      by_cases hjk : j = k
      · subst hjk
        exact .joined rfl hpending rfl id
      · refine .other rfl ?_ (sends_append hjk rfl) id le_rfl
        rw [hpending]
  · rw [heq]
    simp only [openSession]
    by_cases hjk : j = k
    · subst hjk
      refine .replaced hold hfinished ?_ hpending id
      exact List.getElem?_append_left (List.getElem?_eq_some_iff.mp hold).1
    · refine change_open ?_ rfl rfl rfl rfl rfl rfl rfl rfl
      rw [hpending, Ne, Option.some.injEq]
      exact hjk

theorem closed_ne {p : Option ℕ} : (if p = some k then none else p) ≠ some k := by
  split_ifs with h
  · simp
  · exact h

theorem closed_iff {p : Option ℕ} {j : ℕ} (hjk : j ≠ k) :
    (if p = some j then none else p) = some k ↔ p = some k := by
  split_ifs with h
  · simp [h, hjk]
  · rfl

theorem not_sends_of_shared {call : ℕ} (h : s.shared k call = false) :
    ¬(s.leave call).Sends k := by
  rintro ⟨c, hc, hck⟩
  obtain ⟨hmem, hne⟩ := List.mem_filter.mp hc
  simp only [shared, Bool.or_eq_false_iff] at h
  exact Bool.eq_false_iff.mp h.1 (List.any_eq_true.mpr ⟨c, hmem, by simpa [hck] using hne⟩)

theorem not_started_of_shared {call : ℕ} (h : s.shared k call = false) : ¬s.Started k := by
  rintro ⟨i, sessionOwner, hmem⟩
  simp only [shared, Bool.or_eq_false_iff] at h
  exact Bool.eq_false_iff.mp h.2 (List.any_eq_true.mpr ⟨_, hmem, by simp [startedOn]⟩)

theorem change_sendFails {call : ℕ} {c : LoginCall} (hc : c ∈ s.sending) (hcall : c.call = call) :
    Change k s (.sendFails call) (s.sendFails c) := by
  obtain ⟨callback, password, hclose⟩ := close_eq (s.leave c.call) c.session
  simp only [sendFails]
  split
  · rename_i howner
    rw [hclose]
    by_cases hck : c.session = k ∧ s.pending = some k
    · obtain ⟨rfl, hpending⟩ := hck
      refine .failed rfl hpending closed_ne (started_append rfl rfl) ?_
      intro session hsession hheard hcalm
      have hshared : s.shared c.session call = false := by
        have howns : s.sending.any (fun d => d.call = call && d.session = c.session &&
            d.sessionOwner) = true :=
          List.any_eq_true.mpr ⟨c, hc, by simp [hcall, howner]⟩
        simpa [disturbs, hpending, hsession, hheard, howns] using hcalm
      subst hcall
      refine ⟨not_sends_of_shared hshared, ?_⟩
      exact fun hstarted => not_started_of_shared hshared (started_append rfl rfl hstarted)
    · refine .other rfl ?_ (sends_leave rfl) (started_append rfl rfl) le_rfl
      by_cases hck' : c.session = k
      · subst hck'
        have hpending : s.pending ≠ some c.session := fun h => hck ⟨rfl, h⟩
        exact iff_of_false closed_ne hpending
      · exact closed_iff hck'
  · exact .other rfl Iff.rfl (sends_leave rfl) (started_append rfl rfl) le_rfl

theorem change_sendSucceeds {call : ℕ} {c : LoginCall} (hc : c ∈ s.sending) :
    Change k s (.sendSucceeds call) (s.sendSucceeds c) := by
  by_cases hck : c.session = k
  · subst hck
    refine .succeeded ⟨c, hc, rfl⟩ ?_ Iff.rfl
    simp [sendSucceeds, setSession, leave]
  · refine .other ?_ Iff.rfl (sends_leave rfl) (started_append ?_ rfl) le_rfl
    · simp [sendSucceeds, setSession, leave, hck]
    · simp [startedOn, hck]

theorem change_poll {j : ℕ} (h : s.step (.poll j) = some t) : Change k s (.poll j) t := by
  obtain ⟨session, task, hsession, hwaiting, hwake, rfl⟩ := step_poll_eq_some.mp h
  obtain ⟨callback, password, hclose⟩ := close_eq
    (s.setSession j fun session => { session with task := some task }) j
  rw [hclose]
  by_cases hjk : j = k
  · subst hjk
    refine .polled hsession hwaiting hwake ?_ ?_ id id rfl ?_
    · simp [setSession, hsession]
    · exact closed_ne
    · rintro hheard hcalm ⟨c, hc, hck⟩
      have hsends : s.sending.any (fun c => c.session = j) = true :=
        List.any_eq_true.mpr ⟨c, hc, decide_eq_true hck⟩
      simp [disturbs, hsession, hheard, hsends] at hcalm
  · refine .other ?_ ?_ id id le_rfl
    · simp [setSession, hjk]
    · exact closed_iff hjk

theorem change_reply (s : FrameLogins) (k pktType : ℕ) (plaintext : Bytes) (foreign : Bool) :
    Change k s (.reply pktType plaintext foreign) (s.reply pktType plaintext foreign) := by
  rcases reply_cases s pktType plaintext foreign with heq | ⟨j, data, hcallback, heq⟩
  · rw [heq]
    exact .other rfl Iff.rfl id id le_rfl
  · rw [heq]
    by_cases hjk : j = k
    · subst hjk
      have hheap : (s.setSession j (hear (data.success, data))).heap[j]? =
          (s.heap[j]?).map (hear (data.success, data)) := by
        simp [setSession]
      exact .answered hcallback hheap Iff.rfl id
    · exact .other (by simp [setSession, hjk]) Iff.rfl id id le_rfl

theorem change_step {a : LoginAction} (h : s.step a = some t) : Change k s a t := by
  cases a with
  | request contact hasHandler password =>
    cases h
    rcases contact with _ | contactName
    · exact .other rfl Iff.rfl id (started_append rfl rfl) le_rfl
    · cases hasHandler
      · exact .other rfl Iff.rfl id (started_append rfl rfl) le_rfl
      · exact change_request s k contactName password _
  | sendFails call =>
    obtain ⟨c, hfind, rfl⟩ := Option.map_eq_some_iff.mp h
    have hcall : c.call = call := by simpa using List.find?_some hfind
    exact change_sendFails (List.mem_of_find?_eq_some hfind) hcall
  | sendSucceeds call =>
    obtain ⟨c, hfind, rfl⟩ := Option.map_eq_some_iff.mp h
    exact change_sendSucceeds (List.mem_of_find?_eq_some hfind)
  | sendRaises call =>
    cases h
    exact .other rfl Iff.rfl (sends_leave rfl) id le_rfl
  | poll j => exact change_poll h
  | reply pktType plaintext foreign =>
    cases h
    exact change_reply s k pktType plaintext foreign
  | wait seconds =>
    simp only [step, Option.ite_none_right_eq_some, Option.some.injEq] at h
    obtain ⟨hseconds, rfl⟩ := h
    exact .other rfl Iff.rfl id id (le_add_of_nonneg_right hseconds)

/-- Session `k` is not there yet. -/
def Fresh (k : ℕ) (s : FrameLogins) : Prop := s.heap[k]? = none ∧ ¬s.Sends k ∧ ¬s.Started k

/-- Session `k` waits for its reply, with its callback registered. -/
def Open (k : ℕ) (s : FrameLogins) : Prop :=
  ∃ session, s.heap[k]? = some session ∧ session.heard = none ∧ s.pending = some k ∧
    (session.task = none ∧ ¬s.Started k ∨ session.task = some .waiting)

/-- Session `k` has its reply. -/
def Heard (k : ℕ) (contactName : List Char) (outcome : Bool × LoginReply) (s : FrameLogins) :
    Prop :=
  ∃ session, s.heap[k]? = some session ∧ session.contactName = contactName ∧
    session.heard = some outcome ∧
    (session.task = none ∧ ¬s.Started k ∨ session.task = some .waiting ∨
      session.task = some (.replied (buildLoginResult contactName outcome.1 outcome.2)))

/-- Session `k` is given up, and no call has returned its task or will do so. -/
def Gone (k : ℕ) (s : FrameLogins) : Prop :=
  (∃ session, s.heap[k]? = some session) ∧ s.pending ≠ some k ∧ ¬s.Sends k ∧ ¬s.Started k

/-- The deadline of session `k` has passed and is not put off any more. -/
def Expired (k : ℕ) (deadline : ℚ) (s : FrameLogins) : Prop :=
  ∃ session, s.heap[k]? = some session ∧ session.heard = none ∧ s.pending ≠ some k ∧
    ¬s.Sends k ∧ session.expiresAt = deadline ∧ deadline ≤ s.now

section Life

variable {a : LoginAction} {contactName : List Char} {outcome : Bool × LoginReply}

theorem Fresh.step (hf : s.Fresh k) (hs : s.Agrees) (h : Change k s a t) :
    t.Fresh k ∨ t.Open k := by
  obtain ⟨hnone, hsends, hstarted⟩ := hf
  have hpending : s.pending ≠ some k := fun hp =>
    absurd (List.getElem?_eq_none_iff.mp hnone) (not_le.mpr (hs.bound k hp))
  cases h with
  | other hheap _ hsends' hstarted' _ =>
    exact Or.inl ⟨hheap.trans hnone, hsends ∘ hsends', hstarted ∘ hstarted'⟩
  | opened _ hheap hheard htask hpending' hstarted' =>
    exact Or.inr ⟨_, hheap, hheard, hpending', Or.inl ⟨htask, hstarted ∘ hstarted'⟩⟩
  | joined _ hold => exact absurd hold hpending
  | replaced _ _ _ hold => exact absurd hold hpending
  | failed _ hold => exact absurd hold hpending
  | succeeded hsends' => exact absurd hsends' hsends
  | polled hsession =>
    rw [hnone] at hsession
    cases hsession
  | answered hcallback => exact absurd (hs.callback ▸ hcallback) hpending

theorem Gone.step (hg : s.Gone k) (hs : s.Agrees) (h : Change k s a t) : t.Gone k := by
  obtain ⟨⟨session, hsession⟩, hpending, hsends, hstarted⟩ := hg
  cases h with
  | other hheap hpending' hsends' hstarted' _ =>
    exact ⟨⟨session, hheap.trans hsession⟩, hpending ∘ hpending'.mp, hsends ∘ hsends',
      hstarted ∘ hstarted'⟩
  | opened hnew =>
    rw [hsession] at hnew
    cases hnew
  | joined _ hold => exact absurd hold hpending
  | replaced _ _ _ hold => exact absurd hold hpending
  | failed _ hold => exact absurd hold hpending
  | succeeded hsends' => exact absurd hsends' hsends
  | polled _ _ _ hheap hpending' hsends' hstarted' =>
    exact ⟨⟨_, hheap⟩, hpending', hsends ∘ hsends', hstarted ∘ hstarted'⟩
  | answered hcallback => exact absurd (hs.callback ▸ hcallback) hpending

theorem Expired.step {deadline : ℚ} (he : s.Expired k deadline) (hs : s.Agrees)
    (h : Change k s a t) : t.Expired k deadline := by
  obtain ⟨session, hsession, hheard, hpending, hsends, hdeadline, hexpired⟩ := he
  cases h with
  | other hheap hpending' hsends' _ hnow =>
    exact ⟨session, hheap.trans hsession, hheard, hpending ∘ hpending'.mp, hsends ∘ hsends',
      hdeadline, hexpired.trans hnow⟩
  | opened hnew =>
    rw [hsession] at hnew
    cases hnew
  | joined _ hold => exact absurd hold hpending
  | replaced _ _ _ hold => exact absurd hold hpending
  | failed _ hold => exact absurd hold hpending
  | succeeded hsends' => exact absurd hsends' hsends
  | polled hsession' _ _ hheap hpending' hsends' _ hnow =>
    obtain rfl := Option.some.inj (hsession.symm.trans hsession')
    exact ⟨_, hheap, hheard, hpending', hsends ∘ hsends', hdeadline,
      hexpired.trans_eq hnow.symm⟩
  | answered hcallback => exact absurd (hs.callback ▸ hcallback) hpending

theorem Heard.step (hh : s.Heard k contactName outcome) (h : Change k s a t) :
    t.Heard k contactName outcome := by
  obtain ⟨session, hsession, rfl, hheard, htask⟩ := hh
  have hkeep : ∀ hheap : t.heap[k]? = s.heap[k]?, (t.Started k → s.Started k) →
      t.Heard k session.contactName outcome := fun hheap hstarted =>
    ⟨session, hheap.trans hsession, rfl, hheard, htask.imp_left (And.imp_right (· ∘ hstarted))⟩
  cases h with
  | other hheap _ _ hstarted _ => exact hkeep hheap hstarted
  | opened hnew =>
    rw [hsession] at hnew
    cases hnew
  | joined hheap _ _ hstarted => exact hkeep hheap hstarted
  | replaced _ _ hheap _ hstarted => exact hkeep hheap hstarted
  | failed hheap _ _ hstarted => exact hkeep hheap hstarted
  | succeeded _ hheap =>
    refine ⟨refresh s.now session, by rw [hheap, hsession]; rfl, rfl, hheard, Or.inr ?_⟩
    rcases htask with ⟨htask, -⟩ | htask | htask
    · exact Or.inl (by simp [refresh, htask])
    · exact Or.inl (by simp [refresh, htask])
    · exact Or.inr (by simp [refresh, htask])
  | polled hsession' _ hwake hheap =>
    obtain rfl := Option.some.inj (hsession.symm.trans hsession')
    simp only [wake, hheard, Option.some.injEq] at hwake
    exact ⟨_, hheap, rfl, hheard, Or.inr (Or.inr (congrArg some hwake.symm))⟩
  | answered _ hheap _ hstarted =>
    refine ⟨hear _ session, by rw [hheap, hsession]; rfl, rfl, ?_,
      htask.imp_left (And.imp_right (· ∘ hstarted))⟩
    simp [hear, hheard]

theorem heard_of_answered {session : FrameSession} (hsession : s.heap[k]? = some session)
    (hheard : session.heard = none)
    (htask : session.task = none ∧ ¬s.Started k ∨ session.task = some .waiting)
    (hheap : t.heap[k]? = (s.heap[k]?).map (hear outcome)) (hstarted : t.Started k → s.Started k) :
    t.Heard k session.contactName outcome := by
  refine ⟨hear outcome session, by rw [hheap, hsession]; rfl, rfl, ?_, ?_⟩
  · simp [hear, hheard]
  · exact htask.imp (And.imp_right (· ∘ hstarted)) Or.inl

theorem Open.step (ho : s.Open k) (h : Change k s a t) (hcalm : s.disturbs k a = false) :
    t.Open k ∨ (∃ contactName outcome, t.Heard k contactName outcome) ∨ t.Gone k ∨
      ∃ deadline, t.Expired k deadline := by
  obtain ⟨session, hsession, hheard, hpending, htask⟩ := ho
  cases h with
  | other hheap hpending' _ hstarted _ =>
    exact Or.inl ⟨session, hheap.trans hsession, hheard, hpending'.mpr hpending,
      htask.imp_left (And.imp_right (· ∘ hstarted))⟩
  | opened hnew =>
    rw [hsession] at hnew
    cases hnew
  | joined hheap _ hpending' hstarted =>
    exact Or.inl ⟨session, hheap.trans hsession, hheard, hpending',
      htask.imp_left (And.imp_right (· ∘ hstarted))⟩
  | replaced hsession' hfinished =>
    obtain rfl := Option.some.inj (hsession.symm.trans hsession')
    rcases htask with ⟨htask, -⟩ | htask <;>
      simp [FrameSession.finished, hheard, htask] at hfinished
  | failed hheap _ hpending' _ hcalm' =>
    obtain ⟨hsends, hstarted⟩ := hcalm' session hsession hheard hcalm
    exact Or.inr (Or.inr (Or.inl ⟨⟨session, hheap.trans hsession⟩, hpending', hsends, hstarted⟩))
  | succeeded _ hheap hpending' =>
    refine Or.inl ⟨refresh s.now session, by rw [hheap, hsession]; rfl, hheard,
      hpending'.mpr hpending, Or.inr ?_⟩
    rcases htask with ⟨htask, -⟩ | htask <;> simp [refresh, htask]
  | polled hsession' _ hwake hheap hpending' _ _ hnow hcalm' =>
    obtain rfl := Option.some.inj (hsession.symm.trans hsession')
    simp only [wake, hheard, Option.ite_none_right_eq_some] at hwake
    refine Or.inr (Or.inr (Or.inr ⟨session.expiresAt, _, hheap, hheard, hpending',
      hcalm' hheard hcalm, rfl, ?_⟩))
    rw [hnow]
    exact sub_nonpos.mp hwake.1
  | answered _ hheap _ hstarted =>
    exact Or.inr (Or.inl ⟨_, _, heard_of_answered hsession hheard htask hheap hstarted⟩)

end Life

/-- The steps that do not disturb session `k`. -/
def calmStep (k : ℕ) (s : FrameLogins) (a : LoginAction) : Option FrameLogins :=
  if s.disturbs k a then none else s.step a

theorem calmStep_eq_some {a : LoginAction} :
    calmStep k s a = some t ↔ s.disturbs k a = false ∧ s.step a = some t := by
  rw [calmStep, Option.ite_none_left_eq_some, Bool.not_eq_true]

/-- What session `k` can be in a run that does not disturb it. -/
def Lives (k : ℕ) (s : FrameLogins) : Prop :=
  s.Fresh k ∨ s.Open k ∨ (∃ contactName outcome, s.Heard k contactName outcome) ∨ s.Gone k ∨
    ∃ deadline, s.Expired k deadline

theorem Lives.step {a : LoginAction} (hl : s.Lives k) (hs : s.Agrees)
    (h : calmStep k s a = some t) : t.Lives k := by
  obtain ⟨hcalm, hstep⟩ := calmStep_eq_some.mp h
  have hchange : Change k s a t := change_step hstep
  rcases hl with hl | hl | ⟨contactName, outcome, hl⟩ | hl | ⟨deadline, hl⟩
  · rcases hl.step hs hchange with hl | hl
    · exact Or.inl hl
    · exact Or.inr (Or.inl hl)
  · exact Or.inr (hl.step hchange hcalm)
  · exact Or.inr (Or.inr (Or.inl ⟨contactName, outcome, hl.step hchange⟩))
  · exact Or.inr (Or.inr (Or.inr (Or.inl (hl.step hs hchange))))
  · exact Or.inr (Or.inr (Or.inr (Or.inr ⟨deadline, hl.step hs hchange⟩)))

theorem lives_run {actions : List LoginAction} (h : run (calmStep k) {} actions = some s) :
    s.Agrees ∧ s.Lives k := by
  refine run_invariant (I := fun s => s.Agrees ∧ s.Lives k) ?_ ?_ h
  · rintro s a t ⟨hs, hl⟩ hstep
    exact ⟨hs.step (calmStep_eq_some.mp hstep).2, hl.step hs hstep⟩
  · refine ⟨⟨rfl, nofun⟩, Or.inl ⟨rfl, ?_, ?_⟩⟩
    · rintro ⟨c, hc, -⟩
      cases hc
    · rintro ⟨call, sessionOwner, hmem⟩
      cases hmem

/-- What each step keeps of session `k`, a run keeps. -/
theorem run_of_change {I : FrameLogins → Prop} {actions : List LoginAction}
    (hstep : ∀ s a t, I s → s.Agrees → Change k s a t → I t) (hi : I s) (hs : s.Agrees)
    (h : run step s actions = some t) : I t := by
  refine (run_invariant (I := fun s => I s ∧ s.Agrees) ?_ ⟨hi, hs⟩ h).1
  rintro s a t ⟨hi, hs⟩ hst
  exact ⟨hstep s a t hi hs (change_step hst), hs.step hst⟩

theorem heard_run {actions : List LoginAction} {contactName : List Char}
    {outcome : Bool × LoginReply} (hh : s.Heard k contactName outcome) (hs : s.Agrees)
    (h : run step s actions = some t) : t.Heard k contactName outcome :=
  run_of_change (fun _ _ _ hh _ => hh.step) hh hs h

theorem gone_run {actions : List LoginAction} (hg : s.Gone k) (hs : s.Agrees)
    (h : run step s actions = some t) : t.Gone k :=
  run_of_change (fun _ _ _ hg => hg.step) hg hs h

theorem expired_run {actions : List LoginAction} {deadline : ℚ} (he : s.Expired k deadline)
    (hs : s.Agrees) (h : run step s actions = some t) : t.Expired k deadline :=
  run_of_change (fun _ _ _ he => he.step) he hs h

/-- The task of session `k` has completed with the result, or does so when it runs next. -/
def CompletesWith (s : FrameLogins) (k : ℕ) (result : LoginResult) : Prop :=
  (s.heap[k]?).bind FrameSession.task = some (.replied result) ∨
    (s.heap[k]?).bind FrameSession.task = some .waiting ∧
    ∃ t, s.step (.poll k) = some t ∧ (t.heap[k]?).bind FrameSession.task = some (.replied result)

theorem Heard.completesWith {contactName : List Char} {outcome : Bool × LoginReply}
    (hh : s.Heard k contactName outcome) (hstarted : s.Started k) :
    s.CompletesWith k (buildLoginResult contactName outcome.1 outcome.2) := by
  obtain ⟨session, hsession, rfl, hheard, ⟨-, hnot⟩ | htask | htask⟩ := hh
  · exact absurd hstarted hnot
  · have hwake : wake s.now session =
        some (.replied (buildLoginResult session.contactName outcome.1 outcome.2)) := by
      simp only [wake, hheard]
    have hstep := step_poll_eq_some.mpr ⟨session, _, hsession, htask, hwake, rfl⟩
    refine Or.inr ⟨by rw [hsession]; exact htask, _, hstep, ?_⟩
    rw [close_heap]
    simp [setSession, hsession]
  · exact Or.inl (by rw [hsession]; exact htask)

theorem Open.reply {session : FrameSession} {pktType : ℕ} {plaintext : Bytes} {data : LoginReply}
    (ho : s.Open k) (hs : s.Agrees) (hsession : s.heap[k]? = some session)
    (hdata : LoginReply.decryptResponse pktType plaintext = some (some data)) :
    (s.reply pktType plaintext false).Heard k session.contactName (data.success, data) := by
  obtain ⟨session', hsession', hheard, hpending, htask⟩ := ho
  obtain rfl := Option.some.inj (hsession.symm.trans hsession')
  have hcallback : s.callback = some k := hs.callback.trans hpending
  have hreply : s.reply pktType plaintext false =
      { s.setSession k (hear (data.success, data)) with password := none } := by
    simp [FrameLogins.reply, hcallback, hdata]
  rw [hreply]
  refine heard_of_answered hsession hheard htask ?_ id
  simp [setSession]

/-- The first reply before the deadline of a session gives the result of the task that a successful
call on it returns, if no step before it disturbed the session. -/
theorem started_hears_reply (k : ℕ) (before after : List LoginAction) (s u : FrameLogins)
    (session final : FrameSession) (call pktType : ℕ) (sessionOwner : Bool) (plaintext : Bytes)
    (data : LoginReply) (hbefore : run (calmStep k) {} before = some s)
    (hsession : s.heap[k]? = some session)
    (hdata : LoginReply.decryptResponse pktType plaintext = some (some data))
    (hafter : run step (s.reply pktType plaintext false) after = some u)
    (hreturned : (call, .started k sessionOwner) ∈ u.returned)
    (hfinal : u.heap[k]? = some final)
    (hnow : s.now < session.expiresAt ∨ s.now < final.expiresAt) :
    let outcome := session.heard.getD (data.success, data)
    u.CompletesWith k (buildLoginResult session.contactName outcome.1 outcome.2) := by
  obtain ⟨hs, hlives⟩ := lives_run hbefore
  have hstarted : u.Started k := ⟨call, sessionOwner, hreturned⟩
  have hreply : s.step (.reply pktType plaintext false) =
      some (s.reply pktType plaintext false) := rfl
  rcases hlives with hl | hl | ⟨contactName, outcome, hl⟩ | hl | ⟨deadline, hl⟩
  · rw [hl.1] at hsession
    cases hsession
  · have hheard : session.heard = none := by
      obtain ⟨session', hsession', hheard, -⟩ := hl
      rwa [Option.some.inj (hsession.symm.trans hsession')]
    rw [hheard]
    exact (heard_run (hl.reply hs hsession hdata) (hs.step hreply) hafter).completesWith hstarted
  · obtain ⟨hname, hheard⟩ : session.contactName = contactName ∧ session.heard = some outcome := by
      obtain ⟨session', hsession', hname, hheard, -⟩ := hl
      rw [Option.some.inj (hsession.symm.trans hsession')]
      exact ⟨hname, hheard⟩
    rw [hname, hheard]
    have hheard' := heard_run (hl.step (change_step hreply)) (hs.step hreply) hafter
    exact hheard'.completesWith hstarted
  · have hgone := gone_run (hl.step hs (change_step hreply)) (hs.step hreply) hafter
    exact absurd hstarted hgone.2.2.2
  · obtain ⟨final', hfinal', -, -, -, hlast, -⟩ :=
      expired_run (hl.step hs (change_step hreply)) (hs.step hreply) hafter
    obtain ⟨session', hsession', -, -, -, hdeadline, hexpired⟩ := hl
    obtain rfl := Option.some.inj (hsession.symm.trans hsession')
    obtain rfl := Option.some.inj (hfinal.symm.trans hfinal')
    rw [hdeadline, hlast, or_self] at hnow
    exact absurd hexpired (not_le.mpr hnow)

/-- A reply with code 0x80 from a server of firmware level 2, for an admin. -/
def adminReply : Bytes := [0, 0, 0, 1, 0x80, 0, 1, 3, 9, 9, 9, 9, 2]

theorem started_hears_reply_retry :
    ∃ s session u, run (calmStep 0) {} [.request (some ['R']) true [],
        .request (some ['R']) true [], .sendSucceeds 1, .sendSucceeds 0] = some s ∧
      s.heap[0]? = some session ∧ session.heard = none ∧
      run step (s.reply payloadTypeResponse adminReply false) [.wait 121] = some u ∧
      u.CompletesWith 0 (buildLoginResult ['R'] true
        ⟨0x01000000, 0x80, 0, 1, 3, [9, 9, 9, 9], some 2⟩) := by
  refine ⟨_, _, _, rfl, rfl, rfl, rfl, ?_⟩
  exact started_hears_reply 0 [.request (some ['R']) true [], .request (some ['R']) true [],
    .sendSucceeds 1, .sendSucceeds 0] [.wait 121] _ _ _ _ 1 payloadTypeResponse false adminReply
    ⟨0x01000000, 0x80, 0, 1, 3, [9, 9, 9, 9], some 2⟩ rfl rfl rfl rfl (by decide +kernel) rfl
    (Or.inl (by decide +kernel))

/-- The send of the first call fails after a second call has joined its session, and the task of the
second times out. -/
theorem owner_failure_times_out :
    ∃ s session, run step {} [.request (some ['R']) true [], .request (some ['R']) true [],
        .sendSucceeds 1, .sendFails 0] = some s ∧
      (1, .started 0 false) ∈ s.returned ∧
      s.heap[0]? = some session ∧ s.now < session.expiresAt ∧ session.heard = none ∧
      (LoginReply.decryptResponse payloadTypeResponse adminReply).join.isSome ∧
      (run step (s.reply payloadTypeResponse adminReply false) [.wait 120, .poll 0]).map
        (fun u => (u.heap[0]?).bind FrameSession.task) = some (some .timedOut) :=
  ⟨_, _, rfl, by decide +kernel, rfl, by decide +kernel, rfl, by decide +kernel,
    by decide +kernel⟩

/-- A retry whose send outlasts the deadline returns the task that has already timed out, with a new
deadline. -/
example : (run step {} [.request (some ['R']) true [], .sendSucceeds 0,
      .request (some ['R']) true [], .wait 120, .poll 0, .sendSucceeds 1]).map
    (fun s => s.heap.map fun session => (s.returned.getLast?, session.task, session.expiresAt)) =
    some [(some (1, .started 0 false), some .timedOut, 240)] := by
  decide +kernel

end FrameLogins

end OpenHop
