import OpenHop.Companion.FrameServer
import OpenHop.Machine.Runs

/-! # Clients of the frame server

A connection that arrives evicts the client that is installed, over several awaits, and then
installs its own writer, queue and writer loop in attributes that all connections share.
-/

namespace OpenHop

open Machine

/-- Where `_handle_client` of a connection is. -/
inductive HandlerPc where
  | absent
  /-- Evicting the connection `old`, whose writer loop is taken to be `task`. -/
  | evictTask (old task : ℕ)
  | evictClose (old : ℕ)
  | reading
  | handling (payload : Bytes)
  | cleanup
  | finished
  deriving DecidableEq

/-- Where `_writer_loop` of a connection is. It waits for a frame of the queue that was installed
when it began to wait. -/
inductive WriterPc where
  | absent
  | created
  | getting (queue : ℕ)
  | draining
  | done
  deriving DecidableEq

def WriterPc.live : WriterPc → Bool
  | .created | .getting _ | .draining => true
  | _ => false

/-- An entry of a write queue. A response names the connection its command was read from; a push
and a heartbeat name none. -/
inductive WriteEntry where
  | sentinel
  | frame (bytes : Bytes) (origin : Option ℕ)
  deriving DecidableEq

/-- What an entry writes. -/
def WriteEntry.bytes : WriteEntry → Bytes
  | .sentinel => []
  | .frame bytes _ => bytes

/-- The attributes that the connections share, and the state of each. The queue and the writer loop
of a connection go by its number. `latest` is the connection that was installed last, and `sent`
what was written to which connection. -/
structure FrameTransport where
  clientWriter : Option ℕ := none
  writeQueue : Option ℕ := none
  writerTask : Option ℕ := none
  handler : ℕ → HandlerPc := fun _ => .absent
  writer : ℕ → WriterPc := fun _ => .absent
  cancelled : ℕ → Bool := fun _ => false
  closed : ℕ → Bool := fun _ => false
  /-- The frames that have arrived at a connection's reader. -/
  inbox : ℕ → List Bytes := fun _ => []
  queues : ℕ → List WriteEntry := fun _ => []
  latest : Option ℕ := none
  sent : List (ℕ × WriteEntry) := []

inductive ClientAction where
  | arrive (x : ℕ)
  /-- A connection goes on with its eviction of another. -/
  | evict (x : ℕ)
  | receive (x : ℕ) (payload : Bytes)
  | disconnect (x : ℕ)
  | readFrame (x : ℕ)
  /-- The read loop ends: end of input, idle timeout, a frame that is too long or an error. -/
  | readEnds (x : ℕ)
  | respond (x : ℕ) (data : Bytes)
  | handled (x : ℕ)
  | cleanupEnds (x : ℕ)
  | push (data : Bytes)
  | writerStart (x : ℕ)
  | writerTake (x : ℕ)
  | writerHeartbeat (x : ℕ) (now : ℕ)
  | writerDrained (x : ℕ)
  /-- The writer loop is cancelled or fails. -/
  | writerStops (x : ℕ)

namespace FrameTransport

/-- `_WRITE_QUEUE_MAXSIZE` -/
def writeQueueMaxsize : ℕ := 2048

def respCodeCurrTime : UInt8 := 9

/-- `put_nowait`, whose `QueueFull` is caught. -/
def put (s : FrameTransport) (q : ℕ) (e : WriteEntry) : FrameTransport :=
  if (s.queues q).length ≥ writeQueueMaxsize then s
  else { s with queues := Function.update s.queues q (s.queues q ++ [e]) }

def enqueueFrame (s : FrameTransport) (origin : Option ℕ) (data : Bytes) : FrameTransport :=
  match s.writeQueue with
  | none => s
  | some q =>
    if data.length > maxFrameSize then s
    else s.put q (.frame (FrameServer.outboundFrame data) origin)

/-- What a command handler sees of the server: the queue that is installed, without origins. -/
def server (s : FrameTransport) (appTargetVer : ℕ) : FrameServer where
  appTargetVer
  writeQueue := s.writeQueue.map fun q =>
    { maxsize := writeQueueMaxsize, frames := (s.queues q).map WriteEntry.bytes }

theorem server_enqueueFrame (s : FrameTransport) (origin : Option ℕ) (data : Bytes)
    (appTargetVer : ℕ) :
    (s.enqueueFrame origin data).server appTargetVer =
      (s.server appTargetVer).enqueueFrame data := by
  have hbounded : writeQueueMaxsize ≠ 0 := by decide
  unfold enqueueFrame FrameServer.enqueueFrame
  cases hqueue : s.writeQueue with
  | none => simp [server, hqueue]
  | some q =>
    by_cases hsize : data.length > maxFrameSize
    · simp [server, hqueue, hsize]
    · by_cases hfull : (s.queues q).length ≥ writeQueueMaxsize
      · simp [server, hqueue, hsize, put, hfull, WriteQueue.isFull, hbounded]
      · simp [server, hqueue, hsize, put, hfull, WriteQueue.isFull, WriteEntry.bytes]

def cancel (s : FrameTransport) (x : ℕ) : FrameTransport :=
  { s with cancelled := Function.update s.cancelled x true }

/-- The part of `_handle_client` from the eviction to the read loop. -/
def install (s : FrameTransport) (x : ℕ) : FrameTransport :=
  { s with
    clientWriter := some x
    writeQueue := some x
    writerTask := some x
    queues := Function.update s.queues x []
    writer := Function.update s.writer x .created
    handler := Function.update s.handler x .reading
    latest := some x }

def closeOld (s : FrameTransport) (x old : ℕ) : FrameTransport :=
  { s with
    closed := Function.update s.closed old true
    handler := Function.update s.handler x (.evictClose old) }

/-- The end of `_cleanup_client`. -/
def finishCleanup (s : FrameTransport) (x : ℕ) : FrameTransport :=
  { s with
    writeQueue := if s.writeQueue = some x then none else s.writeQueue
    clientWriter := if s.clientWriter = some x then none else s.clientWriter
    handler := Function.update s.handler x .finished }

/-- `_cleanup_client` up to its await, if it comes to that. -/
def cleanupClient (s : FrameTransport) (x : ℕ) : FrameTransport :=
  let s := if s.writeQueue = some x then s.put x .sentinel else s
  if s.writerTask = some x then
    { s.cancel x with handler := Function.update s.handler x .cleanup }
  else s.finishCleanup x

def stopWriter (s : FrameTransport) (x : ℕ) : FrameTransport :=
  { s with
    writer := Function.update s.writer x .done
    closed := Function.update s.closed x true }

/-- The next `self._write_queue.get()`, an error if there is no queue. -/
def nextGet (s : FrameTransport) (x : ℕ) : FrameTransport :=
  match s.writeQueue with
  | some q => { s with writer := Function.update s.writer x (.getting q) }
  | none => s.stopWriter x

/-- The frame is written before the look at the queue, which is an error if there is none. -/
def writeFrame (s : FrameTransport) (x : ℕ) (e : WriteEntry) : FrameTransport :=
  let s := { s with sent := s.sent ++ [(x, e)] }
  match s.writeQueue with
  | some _ => { s with writer := Function.update s.writer x .draining }
  | none => s.stopWriter x

def takeFrame (s : FrameTransport) (x q : ℕ) : Option FrameTransport :=
  match s.queues q with
  | [] => none
  | e :: rest =>
    let s := { s with queues := Function.update s.queues q rest }
    some (if e = .sentinel then s.stopWriter x else s.writeFrame x e)

def heartbeat (now : ℕ) : WriteEntry :=
  .frame (FrameServer.outboundFrame (respCodeCurrTime :: Bytes.le 4 now)) none

/-- One step of a client, of its handler or of its writer loop, or a push. -/
def step (s : FrameTransport) : ClientAction → Option FrameTransport
  | .arrive x =>
    if s.handler x = .absent then
      match s.clientWriter, s.writerTask with
      | none, _ => some (s.install x)
      | some old, some task => some { s.cancel task with
          handler := Function.update s.handler x (.evictTask old task) }
      | some old, none => some (s.closeOld x old)
    else none
  | .evict x =>
    match s.handler x with
    | .evictTask old task =>
      if s.writer task = .done then
        some ({ s with
          writerTask := if s.writerTask = some task then none else s.writerTask }.closeOld x old)
      else none
    | .evictClose old => if s.closed old then some (s.install x) else none
    | _ => none
  | .receive x payload =>
    if s.handler x ≠ .absent ∧ s.closed x = false then
      some { s with inbox := Function.update s.inbox x (s.inbox x ++ [payload]) }
    else none
  | .disconnect x =>
    if s.handler x ≠ .absent then some { s with closed := Function.update s.closed x true }
    else none
  | .readFrame x =>
    match s.handler x, s.inbox x with
    | .reading, payload :: rest => some { s with
        inbox := Function.update s.inbox x rest
        handler := Function.update s.handler x (.handling payload) }
    | _, _ => none
  | .readEnds x => if s.handler x = .reading then some (s.cleanupClient x) else none
  | .respond x data =>
    match s.handler x with
    | .handling _ => some (s.enqueueFrame (some x) data)
    | _ => none
  | .handled x =>
    match s.handler x with
    | .handling _ =>
      if s.writer x = .done then some (s.cleanupClient x)
      else some { s with handler := Function.update s.handler x .reading }
    | _ => none
  | .cleanupEnds x =>
    if s.handler x = .cleanup ∧ s.writer x = .done then
      some ({ s with writerTask := none }.finishCleanup x)
    else none
  | .push data => some (s.enqueueFrame none data)
  | .writerStart x =>
    if s.writer x = .created ∧ s.cancelled x = false then some (s.nextGet x) else none
  | .writerTake x =>
    match s.writer x with
    | .getting q => if s.cancelled x = false then s.takeFrame x q else none
    | _ => none
  | .writerHeartbeat x now =>
    match s.writer x with
    | .getting _ => if s.cancelled x = false then some (s.writeFrame x (heartbeat now)) else none
    | _ => none
  | .writerDrained x =>
    if s.writer x = .draining ∧ s.cancelled x = false ∧ s.closed x = false then some (s.nextGet x)
    else none
  | .writerStops x =>
    match s.writer x with
    -- a task that is cancelled before it starts does not come to close its connection
    | .created =>
      if s.cancelled x then some { s with writer := Function.update s.writer x .done } else none
    | .getting _ | .draining => some (s.stopWriter x)
    | _ => none

def installs (s : FrameTransport) : ClientAction → Option ℕ
  | .arrive x => if s.clientWriter = none then some x else none
  | .evict x =>
    match s.handler x with
    | .evictClose _ => some x
    | _ => none
  | _ => none

variable {s t : FrameTransport} {a : ClientAction} {x y : ℕ}

/-- The attributes, the handlers and what has arrived for them. -/
structure SameClients (s t : FrameTransport) : Prop where
  clientWriter : t.clientWriter = s.clientWriter
  writeQueue : t.writeQueue = s.writeQueue
  writerTask : t.writerTask = s.writerTask
  handler : t.handler = s.handler
  inbox : t.inbox = s.inbox
  latest : t.latest = s.latest

/-- A step of a writer loop. It takes entries from the queue it waits for, and waits next for the
one that is installed. -/
structure WriterStep (s : FrameTransport) (x : ℕ) (t : FrameTransport) : Prop where
  live : (s.writer x).live = true
  same : SameClients s t
  others : ∀ z, z ≠ x → t.writer z = s.writer z
  begun : t.writer x ≠ .absent
  getting : ∀ q, t.writer x = .getting q → s.writeQueue = some q
  closed : ∀ z, s.closed z = true → t.closed z = true
  queues : ∀ q, ∀ e ∈ t.queues q, e ∈ s.queues q
  sent : ∀ p ∈ t.sent, p ∈ s.sent ∨ p.1 = x ∧
    ((∃ q, s.writer x = .getting q ∧ p.2 ∈ s.queues q) ∨ ∃ now, p.2 = heartbeat now)

theorem closed_update {z : ℕ} (x : ℕ) (hz : s.closed z = true) :
    Function.update s.closed x true z = true := by
  rw [Function.update_apply]
  split
  · rfl
  · exact hz

theorem WriterStep.goes (hlive : (s.writer x).live = true) (pc : WriterPc) (hpc : pc ≠ .absent)
    (hgetting : ∀ q, pc = .getting q → s.writeQueue = some q) :
    WriterStep s x { s with writer := Function.update s.writer x pc } where
  live := hlive
  same := ⟨rfl, rfl, rfl, rfl, rfl, rfl⟩
  others z hz := Function.update_of_ne hz ..
  begun := by simpa using hpc
  getting q := by simpa using hgetting q
  closed z := id
  queues q e := id
  sent p := .inl

theorem WriterStep.stops (hlive : (s.writer x).live = true) : WriterStep s x (s.stopWriter x) :=
  { goes hlive .done nofun nofun with
    same := ⟨rfl, rfl, rfl, rfl, rfl, rfl⟩
    closed := fun _ => closed_update x }

theorem WriterStep.nextGet (hlive : (s.writer x).live = true) : WriterStep s x (s.nextGet x) := by
  unfold FrameTransport.nextGet
  split
  · rename_i q hq
    refine goes hlive (.getting q) nofun fun q' heq => ?_
    cases heq
    exact hq
  · exact stops hlive

theorem WriterStep.of_taken {queues : ℕ → List WriteEntry} {sent : List (ℕ × WriteEntry)}
    (h : WriterStep { s with queues, sent } x t) (hqueues : ∀ q, ∀ e ∈ queues q, e ∈ s.queues q)
    (hsent : ∀ p ∈ sent, p ∈ s.sent ∨ p.1 = x ∧
      ((∃ q, s.writer x = .getting q ∧ p.2 ∈ s.queues q) ∨ ∃ now, p.2 = heartbeat now)) :
    WriterStep s x t :=
  { h with
    same := ⟨h.same.1, h.same.2, h.same.3, h.same.4, h.same.5, h.same.6⟩
    queues := fun q e he => hqueues q e (h.queues q e he)
    sent := fun p hp => (h.sent p hp).elim (hsent p) fun ⟨hx, hentry⟩ => .inr ⟨hx,
      hentry.imp_left fun ⟨q, hq, he⟩ => ⟨q, hq, hqueues q _ he⟩⟩ }

theorem WriterStep.writeFrame (hlive : (s.writer x).live = true) {queues : ℕ → List WriteEntry}
    (hqueues : ∀ q, ∀ e ∈ queues q, e ∈ s.queues q) {e : WriteEntry}
    (he : (∃ q, s.writer x = .getting q ∧ e ∈ s.queues q) ∨ ∃ now, e = heartbeat now) :
    WriterStep s x ({ s with queues }.writeFrame x e) := by
  have hsent : ∀ p ∈ s.sent ++ [(x, e)], p ∈ s.sent ∨ p.1 = x ∧
      ((∃ q, s.writer x = .getting q ∧ p.2 ∈ s.queues q) ∨ ∃ now, p.2 = heartbeat now) := by
    intro p hp
    rcases List.mem_append.mp hp with hp | hp
    · exact .inl hp
    · cases List.mem_singleton.mp hp
      exact .inr ⟨rfl, he⟩
  unfold FrameTransport.writeFrame
  dsimp only
  split
  · exact (goes (s := { s with queues, sent := s.sent ++ [(x, e)] }) hlive .draining nofun
      nofun).of_taken hqueues hsent
  · exact (stops (s := { s with queues, sent := s.sent ++ [(x, e)] }) hlive).of_taken hqueues hsent

theorem WriterStep.takeFrame {q : ℕ} (hgetting : s.writer x = .getting q)
    (h : s.takeFrame x q = some t) : WriterStep s x t := by
  have hlive : (s.writer x).live = true := by rw [hgetting]; rfl
  unfold FrameTransport.takeFrame at h
  split at h
  · cases h
  · rename_i e rest hq
    have hqueues : ∀ q', ∀ e' ∈ Function.update s.queues q rest q', e' ∈ s.queues q' := by
      intro q' e' he'
      rw [Function.update_apply] at he'
      split at he'
      · rename_i heq
        rw [heq, hq]
        exact List.mem_cons_of_mem e he'
      · exact he'
    have he : e ∈ s.queues q := by rw [hq]; exact List.mem_cons_self
    cases h
    split
    · exact (stops (s := { s with queues := Function.update s.queues q rest }) hlive).of_taken
        hqueues fun p => .inl
    · exact writeFrame hlive hqueues (.inl ⟨q, hgetting, he⟩)

def Serving (s : FrameTransport) (x : ℕ) : Prop :=
  s.handler x = .reading ∨ ∃ payload, s.handler x = .handling payload

inductive Move (s : FrameTransport) : ClientAction → FrameTransport → Prop where
  | installs {a : ClientAction} {y : ℕ} (ha : s.installs a = some y)
      (hfree : s.clientWriter = none ∨ ∃ old, s.handler y = .evictClose old) :
      Move s a (s.install y)
  | evicts {a : ClientAction} {y old task : ℕ} (hnew : s.handler y = .absent)
      (hold : s.clientWriter = some old) (htask : s.writerTask = some task) :
      Move s a { s.cancel task with handler := Function.update s.handler y (.evictTask old task) }
  | evictsLoopless {a : ClientAction} {y old : ℕ} (hnew : s.handler y = .absent)
      (hold : s.clientWriter = some old) (htask : s.writerTask = none) : Move s a (s.closeOld y old)
  | loopEnded {a : ClientAction} {y old task : ℕ} (hpc : s.handler y = .evictTask old task)
      (hdone : s.writer task = .done) :
      Move s a ({ s with
        writerTask := if s.writerTask = some task then none else s.writerTask }.closeOld y old)
  | received {a : ClientAction} {x : ℕ} {payload : Bytes} (hopen : s.closed x = false) :
      Move s a { s with inbox := Function.update s.inbox x (s.inbox x ++ [payload]) }
  | disconnected {a : ClientAction} {x : ℕ} :
      Move s a { s with closed := Function.update s.closed x true }
  | reads {x : ℕ} {payload : Bytes} {rest : List Bytes} (hpc : s.handler x = .reading)
      (hinbox : s.inbox x = payload :: rest) :
      Move s (.readFrame x) { s with
        inbox := Function.update s.inbox x rest
        handler := Function.update s.handler x (.handling payload) }
  | handled {a : ClientAction} {x : ℕ} {payload : Bytes} (hpc : s.handler x = .handling payload)
      (hlive : s.writer x ≠ .done) :
      Move s a { s with handler := Function.update s.handler x .reading }
  | leaves {a : ClientAction} {x : ℕ} (hpc : s.Serving x) : Move s a (s.cleanupClient x)
  | cleanedUp {a : ClientAction} {x : ℕ} (hpc : s.handler x = .cleanup)
      (hdone : s.writer x = .done) : Move s a ({ s with writerTask := none }.finishCleanup x)
  | responds {a : ClientAction} {x : ℕ} {payload data : Bytes}
      (hpc : s.handler x = .handling payload) : Move s a (s.enqueueFrame (some x) data)
  | pushes {a : ClientAction} {data : Bytes} : Move s a (s.enqueueFrame none data)
  | writes {a : ClientAction} {x : ℕ} {t : FrameTransport} (h : WriterStep s x t) : Move s a t

theorem step_move (h : s.step a = some t) : Move s a t := by
  cases a with
  | arrive x =>
    obtain ⟨hnew, h⟩ := Option.ite_none_right_eq_some.mp h
    split at h
    · rename_i hfree
      cases h
      exact .installs (if_pos hfree) (.inl hfree)
    · rename_i hold htask
      cases h
      exact .evicts hnew hold htask
    · rename_i hold htask
      cases h
      exact .evictsLoopless hnew hold htask
  | evict x =>
    simp only [step] at h
    split at h
    · rename_i hpc
      obtain ⟨hdone, heq⟩ := Option.ite_none_right_eq_some.mp h
      cases heq
      exact .loopEnded hpc hdone
    · rename_i hpc
      obtain ⟨-, heq⟩ := Option.ite_none_right_eq_some.mp h
      cases heq
      exact .installs (by simp only [installs, hpc]) (.inr ⟨_, hpc⟩)
    · cases h
  | receive x payload =>
    obtain ⟨hopen, heq⟩ := Option.ite_none_right_eq_some.mp h
    cases heq
    exact .received hopen.2
  | disconnect x =>
    obtain ⟨-, heq⟩ := Option.ite_none_right_eq_some.mp h
    cases heq
    exact .disconnected
  | readFrame x =>
    simp only [step] at h
    split at h
    · rename_i hpc hinbox
      cases h
      exact .reads hpc hinbox
    · cases h
  | readEnds x =>
    obtain ⟨hpc, heq⟩ := Option.ite_none_right_eq_some.mp h
    cases heq
    exact .leaves (.inl hpc)
  | respond x data =>
    simp only [step] at h
    split at h
    · rename_i hpc
      cases h
      exact .responds hpc
    · cases h
  | handled x =>
    simp only [step] at h
    split at h
    · rename_i hpc
      split at h
      · cases h
        exact .leaves (.inr ⟨_, hpc⟩)
      · rename_i hlive
        cases h
        exact .handled hpc hlive
    · cases h
  | cleanupEnds x =>
    obtain ⟨⟨hpc, hdone⟩, heq⟩ := Option.ite_none_right_eq_some.mp h
    cases heq
    exact .cleanedUp hpc hdone
  | push data =>
    cases h
    exact .pushes
  | writerStart x =>
    obtain ⟨⟨hpc, -⟩, heq⟩ := Option.ite_none_right_eq_some.mp h
    cases heq
    exact .writes (.nextGet (by rw [hpc]; rfl))
  | writerTake x =>
    simp only [step] at h
    split at h
    · rename_i hgetting
      obtain ⟨-, htake⟩ := Option.ite_none_right_eq_some.mp h
      exact .writes (.takeFrame hgetting htake)
    · cases h
  | writerHeartbeat x now =>
    simp only [step] at h
    split at h
    · rename_i hgetting
      obtain ⟨-, heq⟩ := Option.ite_none_right_eq_some.mp h
      cases heq
      exact .writes (.writeFrame (by rw [hgetting]; rfl) (fun q e => id) (.inr ⟨now, rfl⟩))
    · cases h
  | writerDrained x =>
    obtain ⟨⟨hpc, -⟩, heq⟩ := Option.ite_none_right_eq_some.mp h
    cases heq
    exact .writes (.nextGet (by rw [hpc]; rfl))
  | writerStops x =>
    simp only [step] at h
    split at h
    · rename_i hpc
      obtain ⟨-, heq⟩ := Option.ite_none_right_eq_some.mp h
      cases heq
      exact .writes (.goes (by rw [hpc]; rfl) .done nofun nofun)
    · rename_i hpc
      cases h
      exact .writes (.stops (by rw [hpc]; rfl))
    · rename_i hpc
      cases h
      exact .writes (.stops (by rw [hpc]; rfl))
    · cases h

/-- The other connections have come to rest: none evicts or cleans up, and none is about to read
a frame that has arrived. -/
def Alone (s : FrameTransport) (y : ℕ) : Prop :=
  ∀ x, x ≠ y →
    (∀ old task, s.handler x ≠ .evictTask old task) ∧ (∀ old, s.handler x ≠ .evictClose old) ∧
      s.handler x ≠ .cleanup ∧ (s.handler x = .reading → s.inbox x = [])

/-- A connection is installed only while the others have come to rest. -/
def InstallsAlone (s : FrameTransport) (a : ClientAction) : Prop :=
  ∀ y, s.installs a = some y → s.Alone y

/-- What holds where a handler is. An eviction is of the connection that is installed, and a
connection that another has replaced has nothing left to read. -/
def Place (s : FrameTransport) (x : ℕ) : HandlerPc → Prop
  | .absent | .finished => True
  | .evictTask old task =>
    (∀ z, s.clientWriter = some z → z = old) ∧ ∀ z, s.writerTask = some z → z = task
  | .evictClose old =>
    (∀ z, s.clientWriter = some z → z = old) ∧ s.writerTask = none ∧ s.closed old = true
  | .reading => s.writer x ≠ .absent ∧ (s.latest = some x → s.clientWriter = some x) ∧
      (s.latest ≠ some x → s.inbox x = [] ∧ s.closed x = true)
  | .handling _ => s.writer x ≠ .absent ∧ (s.latest = some x → s.clientWriter = some x)
  | .cleanup => s.latest = some x

/-- A writer loop that runs belongs to the connection that was installed last. -/
structure Fits (s : FrameTransport) (x : ℕ) : Prop where
  live : (s.writer x).live = true →
    s.latest = some x ∧ s.clientWriter = some x ∧ s.writerTask = some x
  place : s.Place x (s.handler x)

structure Single (s : FrameTransport) : Prop where
  fits : ∀ x, s.Fits x
  task : ∀ x, s.writerTask = some x → s.latest = some x

/-- A handler stays where it is and no writer loop is started, and no connection is opened again. -/
structure Rests (s t : FrameTransport) (x : ℕ) : Prop where
  begun : s.writer x ≠ .absent → t.writer x ≠ .absent
  live : (t.writer x).live = true → (s.writer x).live = true
  handler : t.handler x = s.handler x
  inbox : t.inbox x = s.inbox x
  closed : ∀ z, s.closed z = true → t.closed z = true
  latest : t.latest = s.latest

theorem Fits.clear (h : s.Fits x) (hrests : Rests s t x)
    (hclient : t.clientWriter = s.clientWriter ∨ t.clientWriter = none)
    (htask : t.writerTask = s.writerTask ∨ t.writerTask = none)
    (hlive : (s.writer x).live = true →
      t.clientWriter = s.clientWriter ∧ t.writerTask = s.writerTask)
    (hserving : s.Serving x → s.latest = some x → t.clientWriter = s.clientWriter) : t.Fits x := by
  obtain ⟨hkept, hran, hhandler, hinbox, hclosed, hlatest⟩ := hrests
  have holds : ∀ {old}, (∀ z, s.clientWriter = some z → z = old) →
      ∀ z, t.clientWriter = some z → z = old := by
    intro old hold z hz
    rcases hclient with heq | heq <;> rw [heq] at hz
    · exact hold z hz
    · cases hz
  constructor
  · intro hrun
    have hrun := hran hrun
    rw [hlatest, (hlive hrun).1, (hlive hrun).2]
    exact h.live hrun
  · rw [hhandler]
    have hplace := h.place
    cases hpc : s.handler x with rw [hpc] at hplace
    | absent => trivial
    | finished => trivial
    | evictTask old task =>
      refine ⟨holds hplace.1, fun z hz => ?_⟩
      rcases htask with heq | heq <;> rw [heq] at hz
      · exact hplace.2 z hz
      · cases hz
    | evictClose old =>
      refine ⟨holds hplace.1, ?_, hclosed old hplace.2.2⟩
      rcases htask with heq | heq
      · exact heq.trans hplace.2.1
      · exact heq
    | reading =>
      obtain ⟨hbegun, hinstalled, hreplaced⟩ := hplace
      rw [Place, hlatest, hinbox]
      refine ⟨hkept hbegun, fun hlast => ?_, fun hnot => (hreplaced hnot).imp_right (hclosed x)⟩
      rw [hserving (.inl hpc) hlast]
      exact hinstalled hlast
    | handling payload =>
      rw [Place, hlatest]
      refine ⟨hkept hplace.1, fun hlast => ?_⟩
      rw [hserving (.inr ⟨payload, hpc⟩) hlast]
      exact hplace.2 hlast
    | cleanup => exact hlatest.trans hplace

theorem Fits.frame (h : s.Fits x) (hrests : Rests s t x)
    (hclient : t.clientWriter = s.clientWriter) (htask : t.writerTask = s.writerTask) :
    t.Fits x :=
  h.clear hrests (.inl hclient) (.inl htask) (fun _ => ⟨hclient, htask⟩) fun _ _ => hclient

theorem Fits.goes (h : s.Fits x) {pc : HandlerPc} (hhandler : t.handler x = pc)
    (hwriter : t.writer x = s.writer x) (hlatest : t.latest = s.latest)
    (hclient : t.clientWriter = s.clientWriter) (htask : t.writerTask = s.writerTask)
    (hplace : t.Place x pc) : t.Fits x := by
  constructor
  · rw [hwriter, hlatest, hclient, htask]
    exact h.live
  · rw [hhandler]
    exact hplace

namespace Single

theorem not_live (hs : s.Single) (h : s.writerTask ≠ some x) : (s.writer x).live = false := by
  cases hlive : (s.writer x).live with
  | false => rfl
  | true => exact absurd ((hs.fits x).live hlive).2.2 h

theorem latest_of_reads (hs : s.Single) (hpc : s.handler x = .reading) {payload : Bytes}
    {rest : List Bytes} (hinbox : s.inbox x = payload :: rest) : s.latest = some x := by
  by_contra hnot
  have hplace := (hs.fits x).place
  rw [hpc] at hplace
  cases hinbox.symm.trans (hplace.2.2 hnot).1

theorem of_rests (hs : s.Single) (hrests : ∀ x, Rests s t x)
    (hclient : t.clientWriter = s.clientWriter) (htask : t.writerTask = s.writerTask) :
    t.Single := by
  refine ⟨fun x => (hs.fits x).frame (hrests x) hclient htask, ?_⟩
  rw [htask, (hrests 0).latest]
  exact hs.task

theorem of_others (hs : s.Single) (hothers : ∀ x, x ≠ y → Rests s t x)
    (hlatest : t.latest = s.latest) (hclient : t.clientWriter = s.clientWriter)
    (htask : t.writerTask = s.writerTask) (hwriter : t.writer y = s.writer y) {pc : HandlerPc}
    (hhandler : t.handler y = pc) (hplace : t.Place y pc) : t.Single := by
  refine ⟨fun x => ?_, ?_⟩
  · by_cases hx : x = y
    · subst hx
      exact (hs.fits x).goes hhandler hwriter hlatest hclient htask hplace
    · exact (hs.fits x).frame (hothers x hx) hclient htask
  · rw [htask, hlatest]
    exact hs.task

theorem install (hs : s.Single) (halone : s.Alone y)
    (hfree : s.clientWriter = none ∨ ∃ old, s.handler y = .evictClose old) :
    (s.install y).Single := by
  have hclosing : ∀ old, s.handler y = .evictClose old → s.Place y (.evictClose old) :=
    fun old hpc => hpc ▸ (hs.fits y).place
  -- no loop runs any more
  have hdead : ∀ x, (s.writer x).live = false := by
    intro x
    cases hlive : (s.writer x).live with
    | false => rfl
    | true =>
      obtain ⟨-, hclient, htask⟩ := (hs.fits x).live hlive
      rcases hfree with hfree | ⟨old, hpc⟩
      · cases hfree.symm.trans hclient
      · cases (hclosing old hpc).2.1.symm.trans htask
  -- and the connection that is replaced is closed
  have hclosed : ∀ x, s.clientWriter = some x → s.closed x = true := by
    intro x hx
    rcases hfree with hfree | ⟨old, hpc⟩
    · cases hfree.symm.trans hx
    · rw [(hclosing old hpc).1 x hx]
      exact (hclosing old hpc).2.2
  refine ⟨fun x => ?_, fun x => id⟩
  by_cases hx : x = y
  · subst hx
    refine ⟨fun _ => ⟨rfl, rfl, rfl⟩, ?_⟩
    simp [FrameTransport.install, Place]
  · have hnot : (s.install y).latest ≠ some x := fun heq => hx (Option.some.inj heq).symm
    have hwriter : (s.install y).writer x = s.writer x := Function.update_of_ne hx ..
    have hhandler : (s.install y).handler x = s.handler x := Function.update_of_ne hx ..
    obtain ⟨hevictTask, hevictClose, hcleanup, hinbox⟩ := halone x hx
    have hplace := (hs.fits x).place
    constructor
    · rw [hwriter, hdead x]
      exact nofun
    · rw [hhandler]
      cases hpc : s.handler x with rw [hpc] at hplace
      | absent => trivial
      | finished => trivial
      | evictTask old task => exact absurd hpc (hevictTask old task)
      | evictClose old => exact absurd hpc (hevictClose old)
      | cleanup => exact absurd hpc hcleanup
      | handling payload =>
        rw [Place, hwriter]
        exact ⟨hplace.1, fun hlast => absurd hlast hnot⟩
      | reading =>
        rw [Place, hwriter]
        refine ⟨hplace.1, fun hlast => absurd hlast hnot, fun _ => ⟨hinbox hpc, ?_⟩⟩
        by_cases hlast : s.latest = some x
        · exact hclosed x (hplace.2.1 hlast)
        · exact (hplace.2.2 hlast).2

theorem finishCleanup (hs : s.Single) (htask : s.writerTask ≠ some y) :
    (s.finishCleanup y).Single := by
  have hclient : ∀ x, s.clientWriter = some x → x ≠ y →
      (s.finishCleanup y).clientWriter = s.clientWriter := by
    intro x hx hne
    refine if_neg fun heq => hne ?_
    exact Option.some.inj (hx.symm.trans heq)
  refine ⟨fun x => ?_, hs.task⟩
  by_cases hx : x = y
  · subst hx
    constructor
    · intro hlive
      cases (hs.not_live htask).symm.trans hlive
    · simp [FrameTransport.finishCleanup, Place]
  · refine (hs.fits x).clear ⟨id, id, Function.update_of_ne hx .., rfl, fun _ => id, rfl⟩ ?_
      (.inl rfl) (fun hlive => ⟨hclient x ((hs.fits x).live hlive).2.1 hx, rfl⟩) ?_
    · simp only [FrameTransport.finishCleanup]
      split
      · exact .inr rfl
      · exact .inl rfl
    · intro hserving hlast
      refine hclient x ?_ hx
      have hplace := (hs.fits x).place
      rcases hserving with hpc | ⟨payload, hpc⟩ <;> rw [hpc] at hplace
      · exact hplace.2.1 hlast
      · exact hplace.2 hlast

theorem clearTask (hs : s.Single) (hdead : ∀ x, (s.writer x).live = false) :
    ({ s with writerTask := none } : FrameTransport).Single := by
  refine ⟨fun x => ?_, nofun⟩
  refine (hs.fits x).clear ⟨id, id, rfl, rfl, fun _ => id, rfl⟩ (.inl rfl) (.inr rfl) ?_
    fun _ _ => rfl
  intro hlive
  cases (hdead x).symm.trans hlive

theorem put (hs : s.Single) (q : ℕ) (e : WriteEntry) : (s.put q e).Single := by
  unfold FrameTransport.put
  split
  · exact hs
  · exact hs.of_rests (fun x => ⟨id, id, rfl, rfl, fun _ => id, rfl⟩) rfl rfl

theorem enqueueFrame (hs : s.Single) (origin : Option ℕ) (data : Bytes) :
    (s.enqueueFrame origin data).Single := by
  unfold FrameTransport.enqueueFrame
  split
  · exact hs
  · split
    · exact hs
    · exact hs.put _ _

theorem cleanupClient (hs : s.Single) (x : ℕ) : (s.cleanupClient x).Single := by
  unfold FrameTransport.cleanupClient
  have hput : (if s.writeQueue = some x then s.put x .sentinel else s).Single := by
    split
    · exact hs.put x .sentinel
    · exact hs
  generalize (if s.writeQueue = some x then s.put x .sentinel else s) = u at hput
  dsimp only
  split
  · rename_i htask
    exact hput.of_others (fun z hz => ⟨id, id, Function.update_of_ne hz .., rfl, fun _ => id, rfl⟩)
      rfl rfl rfl rfl (Function.update_self ..) (hput.task x htask)
  · rename_i htask
    exact hput.finishCleanup htask

theorem closeOld (hs : s.Single) {old : ℕ} (hold : ∀ z, s.clientWriter = some z → z = old)
    (htask : s.writerTask = none) (y : ℕ) : (s.closeOld y old).Single :=
  hs.of_others
    (fun _ hz => ⟨id, id, Function.update_of_ne hz .., rfl, fun _ => closed_update old, rfl⟩)
    rfl rfl rfl rfl (Function.update_self ..) ⟨hold, htask, Function.update_self ..⟩

theorem loopEnded (hs : s.Single) {old task : ℕ} (hpc : s.handler y = .evictTask old task)
    (hdone : s.writer task = .done) :
    ({ s with
      writerTask := if s.writerTask = some task then none else s.writerTask }.closeOld y
        old).Single := by
  have hplace := (hs.fits y).place
  rw [hpc] at hplace
  have hcleared : (if s.writerTask = some task then none else s.writerTask) = none := by
    cases htask : s.writerTask with
    | none => simp
    | some z => rw [hplace.2 z htask, if_pos rfl]
  have hdead : ∀ x, (s.writer x).live = false := by
    intro x
    by_cases htask : s.writerTask = some x
    · rw [hplace.2 x htask, hdone]
      rfl
    · exact hs.not_live htask
  rw [hcleared]
  exact (hs.clearTask hdead).closeOld hplace.1 rfl y

theorem received (hs : s.Single) (hopen : s.closed x = false) (payload : Bytes) :
    ({ s with
      inbox := Function.update s.inbox x (s.inbox x ++ [payload]) } : FrameTransport).Single := by
  have hplace := (hs.fits x).place
  refine hs.of_others (fun z hz => ⟨id, id, rfl, Function.update_of_ne hz .., fun _ => id, rfl⟩)
    rfl rfl rfl rfl rfl ?_
  cases hpc : s.handler x with rw [hpc] at hplace
  | reading =>
    refine ⟨hplace.1, hplace.2.1, fun hnot => ?_⟩
    cases hopen.symm.trans (hplace.2.2 hnot).2
  | _ => exact hplace

theorem move (hs : s.Single) (halone : InstallsAlone s a) (h : Move s a t) : t.Single := by
  cases h with
  | installs ha hfree => exact hs.install (halone _ ha) hfree
  | evicts hnew hold htask =>
    refine hs.of_others (fun z hz => ⟨id, id, Function.update_of_ne hz .., rfl, fun _ => id, rfl⟩)
      rfl rfl rfl rfl (Function.update_self ..) ⟨fun z hz => ?_, fun z hz => ?_⟩
    · exact Option.some.inj (hz.symm.trans hold)
    · exact Option.some.inj (hz.symm.trans htask)
  | evictsLoopless hnew hold htask =>
    exact hs.closeOld (fun z hz => Option.some.inj (hz.symm.trans hold)) htask _
  | loopEnded hpc hdone => exact hs.loopEnded hpc hdone
  | received hopen => exact hs.received hopen _
  | disconnected =>
    exact hs.of_rests (fun _ => ⟨id, id, rfl, rfl, fun _ => closed_update _, rfl⟩) rfl rfl
  | @reads x payload rest hpc hinbox =>
    have hplace := (hs.fits x).place
    rw [hpc] at hplace
    exact hs.of_others
      (fun z hz => ⟨id, id, Function.update_of_ne hz .., Function.update_of_ne hz .., fun _ => id,
        rfl⟩)
      rfl rfl rfl rfl (Function.update_self ..) ⟨hplace.1, hplace.2.1⟩
  | @handled _ x payload hpc hnotDone =>
    have hplace := (hs.fits x).place
    rw [hpc] at hplace
    have hlive : (s.writer x).live = true := by
      cases hwriter : s.writer x with
      | absent => exact absurd hwriter hplace.1
      | done => exact absurd hwriter hnotDone
      | _ => rfl
    refine hs.of_others (fun z hz => ⟨id, id, Function.update_of_ne hz .., rfl, fun _ => id, rfl⟩)
      rfl rfl rfl rfl (Function.update_self ..) ⟨hplace.1, hplace.2, fun hnot => ?_⟩
    exact absurd ((hs.fits x).live hlive).1 hnot
  | leaves hpc => exact hs.cleanupClient _
  | @cleanedUp _ x hpc hdone =>
    have hlast : s.latest = some x := by
      have hplace := (hs.fits x).place
      rw [hpc] at hplace
      exact hplace
    refine (hs.clearTask fun z => ?_).finishCleanup nofun
    cases hlive : (s.writer z).live with
    | false => rfl
    | true =>
      cases hlast.symm.trans ((hs.fits z).live hlive).1
      rw [hdone] at hlive
      cases hlive
  | responds hpc => exact hs.enqueueFrame _ _
  | pushes => exact hs.enqueueFrame _ _
  | @writes _ x _ h =>
    refine hs.of_rests (fun z => ⟨?_, ?_, congrFun h.same.handler z, congrFun h.same.inbox z,
      h.closed, h.same.latest⟩) h.same.clientWriter h.same.writerTask
    · by_cases hz : z = x
      · exact fun _ => hz ▸ h.begun
      · rw [h.others z hz]
        exact id
    · by_cases hz : z = x
      · exact fun _ => hz ▸ h.live
      · rw [h.others z hz]
        exact id

end Single

def Idle (s : FrameTransport) (y : ℕ) : Prop :=
  ∀ x, x ≠ y → ∀ payload, s.handler x ≠ .handling payload

def InstallsIdle (s : FrameTransport) (a : ClientAction) : Prop :=
  ∀ y, s.installs a = some y → s.Alone y ∧ s.Idle y

/-- Commands are handled for the connection whose queue is installed, its writer loop waits for this
queue, and queues hold the responses of their own connection. -/
structure Apart (s : FrameTransport) : Prop where
  single : s.Single
  handling : ∀ x payload, s.handler x = .handling payload → s.latest = some x
  queue : ∀ q, s.writeQueue = some q → s.latest = some q
  getting : ∀ x q, s.writer x = .getting q → q = x
  queues : ∀ q bytes x, .frame bytes (some x) ∈ s.queues q → x = q
  sent : ∀ y bytes x, (y, .frame bytes (some x)) ∈ s.sent → y = x

namespace Apart

theorem frame (hs : s.Apart) (hsingle : t.Single) (hlatest : t.latest = s.latest)
    (hhandling : ∀ x payload, t.handler x = .handling payload → s.latest = some x)
    (hqueue : ∀ q, t.writeQueue = some q → s.writeQueue = some q) (hwriter : t.writer = s.writer)
    (hqueues : t.queues = s.queues) (hsent : t.sent = s.sent) : t.Apart where
  single := hsingle
  handling x payload hx := hlatest.trans (hhandling x payload hx)
  queue q hq := hlatest.trans (hs.queue q (hqueue q hq))
  getting := hwriter ▸ hs.getting
  queues := hqueues ▸ hs.queues
  sent := hsent ▸ hs.sent

theorem handling_update (hs : s.Apart) {pc : HandlerPc} (hpc : ∀ payload, pc ≠ .handling payload)
    (x : ℕ) (payload : Bytes) (h : Function.update s.handler y pc x = .handling payload) :
    s.latest = some x := by
  rw [Function.update_apply] at h
  split at h
  · exact absurd h (hpc payload)
  · exact hs.handling x payload h

theorem install (hs : s.Apart) (hsingle : (s.install y).Single) (hidle : s.Idle y) :
    (s.install y).Apart where
  single := hsingle
  handling x payload hx := by
    simp only [FrameTransport.install, Function.update_apply] at hx
    split at hx
    · cases hx
    · rename_i hne
      exact absurd hx (hidle x hne payload)
  queue q hq := hq
  getting x q hx := by
    simp only [FrameTransport.install, Function.update_apply] at hx
    split at hx
    · cases hx
    · exact hs.getting x q hx
  queues q bytes x hx := by
    simp only [FrameTransport.install, Function.update_apply] at hx
    split at hx
    · cases hx
    · exact hs.queues q bytes x hx
  sent := hs.sent

theorem put (hs : s.Apart) {q : ℕ} {e : WriteEntry}
    (he : ∀ bytes x, e = .frame bytes (some x) → x = q) : (s.put q e).Apart := by
  have hsingle := hs.single.put q e
  unfold FrameTransport.put at hsingle ⊢
  split at hsingle
  · rename_i hfull
    rw [if_pos hfull]
    exact hs
  · rename_i hroom
    rw [if_neg hroom]
    refine { hs with single := hsingle, queues := fun q' bytes x hx => ?_ }
    simp only [Function.update_apply] at hx
    split at hx
    · rename_i heq
      subst heq
      rcases List.mem_append.mp hx with hx | hx
      · exact hs.queues q' bytes x hx
      · exact he bytes x (List.mem_singleton.mp hx).symm
    · exact hs.queues q' bytes x hx

theorem enqueueFrame (hs : s.Apart) {origin : Option ℕ}
    (horigin : ∀ x, origin = some x → s.latest = some x) (data : Bytes) :
    (s.enqueueFrame origin data).Apart := by
  unfold FrameTransport.enqueueFrame
  split
  · exact hs
  · rename_i q hq
    split
    · exact hs
    · refine hs.put fun bytes x hx => ?_
      cases hx
      exact Option.some.inj ((horigin x rfl).symm.trans (hs.queue q hq))

theorem writeQueue_of_finishCleanup {q : ℕ} (h : (s.finishCleanup x).writeQueue = some q) :
    s.writeQueue = some q := by
  simp only [FrameTransport.finishCleanup] at h
  split at h
  · cases h
  · exact h

theorem cleanupClient (hs : s.Apart) (x : ℕ) : (s.cleanupClient x).Apart := by
  have hsingle := hs.single.cleanupClient x
  have hput : (if s.writeQueue = some x then s.put x .sentinel else s).Apart := by
    split
    · exact hs.put nofun
    · exact hs
  unfold FrameTransport.cleanupClient at hsingle ⊢
  generalize (if s.writeQueue = some x then s.put x .sentinel else s) = u at hput hsingle
  dsimp only at hsingle ⊢
  split at hsingle
  · rename_i htask
    rw [if_pos htask]
    exact hput.frame hsingle rfl (hput.handling_update nofun) (fun _ => id) rfl rfl rfl
  · rename_i htask
    rw [if_neg htask]
    exact hput.frame hsingle rfl (hput.handling_update nofun)
      (fun _ => writeQueue_of_finishCleanup) rfl rfl rfl

theorem writes (hs : s.Apart) (hsingle : t.Single) (h : WriterStep s x t) : t.Apart where
  single := hsingle
  handling := by
    rw [h.same.handler, h.same.latest]
    exact hs.handling
  queue := by
    rw [h.same.writeQueue, h.same.latest]
    exact hs.queue
  getting z q hz := by
    by_cases hzx : z = x
    · subst hzx
      have hlast := (hs.single.fits z).live h.live
      exact Option.some.inj ((hs.queue q (h.getting q hz)).symm.trans hlast.1)
    · rw [h.others z hzx] at hz
      exact hs.getting z q hz
  queues q bytes z hz := hs.queues q bytes z (h.queues q _ hz)
  sent y bytes z hz := by
    rcases h.sent _ hz with hz | ⟨rfl, ⟨q, hgetting, hz⟩ | ⟨now, heq⟩⟩
    · exact hs.sent y bytes z hz
    · rw [hs.queues q bytes z hz]
      exact (hs.getting _ q hgetting).symm
    · cases heq

theorem move (hs : s.Apart) (hidle : InstallsIdle s a) (h : Move s a t) : t.Apart := by
  have hsingle := hs.single.move (fun y hy => (hidle y hy).1) h
  cases h with
  | installs ha hfree => exact hs.install hsingle (hidle _ ha).2
  | evicts hnew hold htask =>
    exact hs.frame hsingle rfl (hs.handling_update nofun) (fun _ => id) rfl rfl rfl
  | evictsLoopless hnew hold htask =>
    exact hs.frame hsingle rfl (hs.handling_update nofun) (fun _ => id) rfl rfl rfl
  | loopEnded hpc hdone =>
    exact hs.frame hsingle rfl (hs.handling_update nofun) (fun _ => id) rfl rfl rfl
  | received hopen => exact hs.frame hsingle rfl hs.handling (fun _ => id) rfl rfl rfl
  | disconnected => exact hs.frame hsingle rfl hs.handling (fun _ => id) rfl rfl rfl
  | @reads x payload rest hpc hinbox =>
    refine hs.frame hsingle rfl (fun z payload' hz => ?_) (fun _ => id) rfl rfl rfl
    simp only [Function.update_apply] at hz
    split at hz
    · rename_i heq
      rw [heq]
      exact hs.single.latest_of_reads hpc hinbox
    · exact hs.handling z payload' hz
  | handled hpc hnotDone =>
    exact hs.frame hsingle rfl (hs.handling_update nofun) (fun _ => id) rfl rfl rfl
  | leaves hpc => exact hs.cleanupClient _
  | cleanedUp hpc hdone =>
    exact hs.frame hsingle rfl (hs.handling_update nofun)
      (fun _ => writeQueue_of_finishCleanup (s := s)) rfl rfl rfl
  | responds hpc =>
    refine hs.enqueueFrame (fun x hx => ?_) _
    cases hx
    exact hs.handling _ _ hpc
  | pushes =>
    refine hs.enqueueFrame (fun x hx => ?_) _
    cases hx
  | writes h => exact hs.writes hsingle h

end Apart

theorem single_init : ({} : FrameTransport).Single where
  fits x := ⟨fun h => (by cases h), trivial⟩
  task x h := by cases h

theorem apart_init : ({} : FrameTransport).Apart where
  single := single_init
  handling x payload h := by cases h
  queue q h := by cases h
  getting x q h := by cases h
  queues q bytes x h := by cases h
  sent y bytes x h := by cases h

theorem run_single {actions : List ClientAction} (halone : Along step InstallsAlone {} actions)
    (h : run step {} actions = some s) : s.Single :=
  run_invariant_of_along (fun _ _ _ hok hs hstep => hs.move hok (step_move hstep)) single_init
    halone h

theorem run_apart {actions : List ClientAction} (hidle : Along step InstallsIdle {} actions)
    (h : run step {} actions = some s) : s.Apart :=
  run_invariant_of_along (fun _ _ _ hok hs hstep => hs.move hok (step_move hstep)) apart_init
    hidle h

/-- If every connection is installed while the others have come to rest, frames are read and taken
for the connection that was installed last only. -/
theorem one_client (actions : List ClientAction) (s : FrameTransport)
    (hrun : run step {} actions = some s) (halone : Along step InstallsAlone {} actions) :
    (∀ x t, s.step (.readFrame x) = some t → s.latest = some x) ∧
      (∀ x t, s.step (.writerTake x) = some t → s.latest = some x) ∧
      (Along step InstallsIdle {} actions →
        ∀ y bytes x, (y, .frame bytes (some x)) ∈ s.sent → y = x) := by
  have hsingle := run_single halone hrun
  refine ⟨fun x t hstep => ?_, fun x t hstep => ?_, fun hidle => (run_apart hidle hrun).sent⟩
  · simp only [step] at hstep
    split at hstep
    · rename_i hpc hinbox
      exact hsingle.latest_of_reads hpc hinbox
    · cases hstep
  · simp only [step] at hstep
    split at hstep
    · rename_i hgetting
      exact ((hsingle.fits x).live (by rw [hgetting]; rfl)).1
    · cases hstep

/-- One client after another, each with the response to its command. -/
def takesTurns : List ClientAction :=
  [.arrive 0, .writerStart 0, .receive 0 [5], .readFrame 0, .respond 0 [9], .handled 0,
    .writerTake 0, .arrive 1, .writerStops 0, .evict 1, .evict 1, .writerStart 1, .receive 1 [5],
    .readFrame 1, .respond 1 [9], .writerTake 1]

theorem one_client_takesTurns :
    ∃ s, run step {} takesTurns = some s ∧
      s.sent = [(0, .frame [0x3E, 1, 0, 9] (some 0)), (1, .frame [0x3E, 1, 0, 9] (some 1))] ∧
      ∀ y bytes x, (y, .frame bytes (some x)) ∈ s.sent → y = x := by
  have hidle : Along step InstallsIdle {} takesTurns := by
    repeat' first | exact trivial | refine Along.cons (fun y hy => ?_) rfl ?_
    all_goals cases hy
    · exact ⟨fun x _ => ⟨nofun, nofun, nofun, nofun⟩, fun x _ => nofun⟩
    · constructor
      · rintro (_ | _ | x) hx
        · exact ⟨nofun, nofun, nofun, fun _ => rfl⟩
        · exact absurd rfl hx
        · exact ⟨nofun, nofun, nofun, nofun⟩
      · rintro (_ | _ | x) _ <;> exact nofun
  have halone : Along step InstallsAlone {} takesTurns :=
    hidle.imp fun s a h y hy => (h y hy).1
  exact ⟨_, rfl, rfl, (one_client takesTurns _ rfl halone).2.2 hidle⟩

/-- A response goes to the client that is installed meanwhile; and of two connections that arrive
during an eviction both go on. -/
theorem crossed_clients :
    (∃ s, run step {} [.arrive 0, .writerStart 0, .receive 0 [5], .readFrame 0, .arrive 1,
        .writerStops 0, .evict 1, .evict 1, .writerStart 1, .respond 0 [9], .handled 0,
        .writerTake 1] = some s ∧
      s.sent = [(1, .frame [0x3E, 1, 0, 9] (some 0))]) ∧
    ∃ s t u, run step {} [.arrive 0, .writerStart 0, .arrive 1, .arrive 2, .writerStops 0, .evict 1,
        .evict 2, .evict 1, .evict 2, .writerStart 1, .writerStart 2, .receive 1 [5],
        .push [0x83]] = some s ∧
      s.latest = some 2 ∧ s.step (.readFrame 1) = some t ∧
      s.writer 1 = .getting 2 ∧ s.writeQueue = some 2 ∧ s.step (.writerTake 1) = some u ∧
      u.sent = [(1, .frame [0x3E, 1, 0, 0x83] none)] :=
  ⟨⟨_, rfl, rfl⟩, _, _, _, rfl, rfl, rfl, rfl, rfl, rfl, rfl⟩

end FrameTransport

end OpenHop
