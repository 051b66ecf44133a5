import OpenHop.Companion.Messages
import OpenHop.Machine.ProtectedQueue

/-! # Runs of the offline queue

Messages are pushed, popped at either end, removed as objects and cleared in any
order. A log notes each message object that was queued and how it left, so that
what is queued is said in terms of the whole history: direct messages leave only
when they are asked for, and the next one to be popped is the oldest that has not
left.
-/

namespace OpenHop

/-- A queued object. Objects are told apart by `ref`, and the pushes of one object by `serial`. -/
structure QueueEntry where
  serial : ℕ
  ref : ℕ
  message : QueuedMessage
  deriving DecidableEq

def QueueEntry.isChannel (e : QueueEntry) : Bool := e.message.isChannel

inductive QueueOp where
  | push (ref : ℕ) (message : QueuedMessage)
  | pop
  | popLast
  | remove (ref : ℕ)
  | clear

/-- The queue, and the log of its objects, which agree on what is queued. -/
structure OfflineQueue where
  queue : MessageQueue
  log : ProtectedQueue.Log QueueEntry := {}
  agree : log.held.map (·.message) = queue.queue

namespace OfflineQueue

open ProtectedQueue

/-- A queue as it is made. -/
def init (maxSize : ℕ) : OfflineQueue := { queue := ⟨maxSize, [], Nat.zero_le _⟩, agree := rfl }

def logOp (s : OfflineQueue) : QueueOp → Op QueueEntry
  | .push ref message => .push ⟨s.log.accepted.length, ref, message⟩
  | .pop => .pop
  | .popLast => .popLast
  | .remove ref => .remove fun e => e.ref = ref
  | .clear => .clear

/-- The operation on the queue; `remove` deletes the first position that holds the object. -/
def queueOp (s : OfflineQueue) : QueueOp → MessageQueue
  | .push _ message => (s.queue.push message).2
  | .pop => (s.queue.pop.map Prod.snd).getD s.queue
  | .popLast => (s.queue.popLast.map Prod.snd).getD s.queue
  | .remove ref =>
    match s.log.held.findIdx? fun e => e.ref = ref with
    | some index => s.queue.removeAt index
    | none => s.queue
  | .clear => s.queue.clear

theorem makeRoom_eq (s : OfflineQueue) :
    s.queue.makeRoom = (ProtectedQueue.makeRoom s.queue.maxSize QueueEntry.isChannel
      s.log.held).map fun room => room.1.map (·.message) := by
  have herase : s.queue.queue.eraseP (·.isChannel) =
      (s.log.held.eraseP QueueEntry.isChannel).map (·.message) := by
    rw [← s.agree, List.eraseP_map]
    rfl
  have hany : s.queue.queue.any (·.isChannel) = s.log.held.any QueueEntry.isChannel := by
    rw [← s.agree, List.any_map]
    rfl
  have hlength : s.queue.queue.length = s.log.held.length := by
    rw [← s.agree, List.length_map]
  unfold MessageQueue.makeRoom ProtectedQueue.makeRoom
  rw [hlength, hany, herase]
  by_cases hzero : s.queue.maxSize = 0
  · rw [if_pos hzero, if_pos hzero]
    rfl
  · rw [if_neg hzero, if_neg hzero]
    by_cases hlt : s.log.held.length < s.queue.maxSize
    · rw [if_neg (not_le.mpr hlt), if_pos hlt]
      exact congrArg some s.agree.symm
    · rw [if_pos (not_lt.mp hlt), if_neg hlt]
      cases hfind : s.log.held.find? QueueEntry.isChannel with
      | none =>
        rw [if_neg (by simpa using List.find?_eq_none.mp hfind)]
        rfl
      | some e =>
        have hmem := List.find?_eq_some_iff_append.mp hfind
        rw [if_pos (List.any_eq_true.mpr ⟨e, List.mem_of_find?_eq_some hfind, hmem.1⟩)]
        rfl

theorem maxSize_queueOp (s : OfflineQueue) (op : QueueOp) :
    (s.queueOp op).maxSize = s.queue.maxSize := by
  cases op with
  | push ref message => exact (s.queue.push_spec message).2.1
  | pop => exact s.queue.pop_spec.2.1
  | popLast =>
    unfold queueOp MessageQueue.popLast
    cases s.queue.queue.getLast? <;> rfl
  | remove ref =>
    rw [queueOp]
    cases s.log.held.findIdx? fun e => e.ref = ref <;> rfl
  | clear => rfl

theorem agree_op (s : OfflineQueue) (op : QueueOp) :
    (s.log.step s.queue.maxSize QueueEntry.isChannel (s.logOp op)).held.map (·.message) =
      (s.queueOp op).queue := by
  cases op with
  | push ref message =>
    rw [queueOp, (s.queue.push_spec message).2.2, s.makeRoom_eq]
    simp only [logOp, Log.step, Log.push]
    cases ProtectedQueue.makeRoom s.queue.maxSize QueueEntry.isChannel s.log.held with
    | none => exact s.agree
    | some room => simp
  | pop =>
    show s.log.held.tail.map (·.message) = _
    rw [List.map_tail, s.agree]
    exact s.queue.pop_spec.2.2.symm
  | popLast =>
    show s.log.held.dropLast.map (·.message) = _
    rw [List.map_dropLast, s.agree, queueOp, MessageQueue.popLast]
    cases hlast : s.queue.queue.getLast? with
    | none =>
      show s.queue.queue.dropLast = s.queue.queue
      rw [List.getLast?_eq_none_iff.mp hlast]
      rfl
    | some msg => rfl
  | remove ref =>
    show (s.log.held.eraseP fun e => e.ref = ref).map (·.message) = _
    rw [List.eraseP_eq_eraseIdx, queueOp]
    cases s.log.held.findIdx? fun e => e.ref = ref with
    | none => exact s.agree
    | some index =>
      show (s.log.held.eraseIdx index).map (·.message) = s.queue.queue.eraseIdx index
      rw [← s.agree, List.eraseIdx_map]
  | clear => rfl

def step (s : OfflineQueue) (op : QueueOp) : OfflineQueue where
  queue := s.queueOp op
  log := s.log.step s.queue.maxSize QueueEntry.isChannel (s.logOp op)
  agree := s.agree_op op

def run (maxSize : ℕ) (ops : List QueueOp) : OfflineQueue := ops.foldl step (init maxSize)

/-- What holds throughout a run: the log is in balance, and the objects are numbered in the order
in which they were pushed. -/
structure Ordered (maxSize : ℕ) (s : OfflineQueue) : Prop where
  size : s.queue.maxSize = maxSize
  balanced : s.log.Balanced maxSize QueueEntry.isChannel
  serials : s.log.accepted.map (·.serial) = List.range s.log.accepted.length

variable {maxSize : ℕ} {s : OfflineQueue}

theorem Ordered.step (h : s.Ordered maxSize) (op : QueueOp) : (s.step op).Ordered maxSize where
  size := (s.maxSize_queueOp op).trans h.size
  balanced := by
    show Log.Balanced _ _ (s.log.step s.queue.maxSize QueueEntry.isChannel (s.logOp op))
    rw [h.size]
    exact h.balanced.step (s.logOp op)
  serials := by
    cases op with
    | push ref message =>
      show List.map _ (s.log.push s.queue.maxSize QueueEntry.isChannel _).accepted =
        List.range (s.log.push s.queue.maxSize QueueEntry.isChannel _).accepted.length
      unfold Log.push
      split
      · exact h.serials
      · simp [h.serials, List.range_succ]
    | pop | popLast | remove ref | clear => exact h.serials

theorem ordered_run (maxSize : ℕ) (ops : List QueueOp) : (run maxSize ops).Ordered maxSize := by
  induction ops using List.reverseRecOn with
  | nil => exact ⟨rfl, Log.balanced_empty maxSize _, rfl⟩
  | append_singleton ops op ih =>
    rw [run, List.foldl_append]
    exact ih.step op

/-- The objects that were queued and have neither been evicted nor asked for, in order. -/
def waiting (s : OfflineQueue) : List QueueEntry :=
  s.log.accepted.filter fun e => e ∉ s.log.evicted ++ s.log.taken

theorem Ordered.held_eq (h : s.Ordered maxSize) : s.log.held = s.waiting := by
  apply h.balanced.held_eq
  apply List.Nodup.of_map (·.serial)
  rw [h.serials]
  exact List.nodup_range

theorem Ordered.queue_eq (h : s.Ordered maxSize) :
    s.queue.queue = s.waiting.map (·.message) := by
  rw [← s.agree, h.held_eq]

theorem Ordered.refused_iff (h : s.Ordered maxSize) (hmax : 1 ≤ maxSize) (message : QueuedMessage) :
    (s.queue.push message).1 = false ↔
      (s.queue.queue.filter fun m => !m.isChannel).length = maxSize := by
  have hfilter : (s.queue.queue.filter fun m => !m.isChannel).length =
      (s.log.held.filter fun e => !e.isChannel).length := by
    rw [← s.agree, List.filter_map, List.length_map]
    rfl
  rw [(s.queue.push_spec message).1, hfilter, s.makeRoom_eq, h.size, Option.isSome_map,
    Option.isSome_eq_false_iff, Option.isNone_iff_eq_none]
  exact makeRoom_eq_none hmax h.balanced.length_le

/-- A push that is accepted appends the message, in the place of the oldest channel message if
the queue is full. -/
theorem Ordered.pushed (h : s.Ordered maxSize) {message : QueuedMessage}
    (hpush : (s.queue.push message).1 = true) :
    (s.queue.push message).2.queue = s.queue.queue ++ [message] ∨
      s.queue.queue.length = maxSize ∧ ∃ a evicted b, s.queue.queue = a ++ evicted :: b ∧
        (∀ m ∈ a, m.isChannel = false) ∧ evicted.isChannel = true ∧
        (s.queue.push message).2.queue = a ++ b ++ [message] := by
  rw [(s.queue.push_spec message).1, s.makeRoom_eq, h.size, Option.isSome_map] at hpush
  obtain ⟨⟨kept, gone⟩, hroom⟩ := Option.isSome_iff_exists.mp hpush
  have hqueue : (s.queue.push message).2.queue = kept.map (·.message) ++ [message] := by
    rw [(s.queue.push_spec message).2.2, s.makeRoom_eq, h.size, hroom]
    rfl
  rw [hqueue, ← s.agree, List.length_map]
  cases (makeRoom_eq_some h.balanced.length_le hroom).2 with
  | free hfree hkept hgone => exact Or.inl (by rw [hkept])
  | evict hfull a b e hq ha he hkept hgone =>
    refine Or.inr ⟨hfull, a.map (·.message), e.message, b.map (·.message), ?_, ?_, he, ?_⟩
    · rw [hq, List.map_append, List.map_cons]
    · intro m hm
      obtain ⟨x, hx, rfl⟩ := List.mem_map.mp hm
      exact ha x hx
    · rw [hkept, List.map_append]

/-- What the queue promises about its messages at any time. -/
structure Promise (maxSize : ℕ) (s : OfflineQueue) : Prop where
  length_le : s.queue.queue.length ≤ maxSize
  /-- What is queued is what was pushed and has not left, in the order of the pushes. -/
  queue_eq : s.queue.queue = s.waiting.map (·.message)
  push_order : s.log.accepted.Pairwise fun e e' => e.serial < e'.serial
  /-- A direct message leaves only when it is asked for, which a push does not do. -/
  direct : ∀ e ∈ s.log.accepted, e.message.isChannel = false →
    e ∈ s.log.held ∨ e ∈ s.log.taken
  push_taken : ∀ ref message, (s.step (.push ref message)).log.taken = s.log.taken
  refused_iff : ∀ message, (s.queue.push message).1 = false ↔
    (s.queue.queue.filter fun m => !m.isChannel).length = maxSize
  pushed : ∀ message, (s.queue.push message).1 = true →
    (s.queue.push message).2.queue = s.queue.queue ++ [message] ∨
      s.queue.queue.length = maxSize ∧ ∃ a evicted b, s.queue.queue = a ++ evicted :: b ∧
        (∀ m ∈ a, m.isChannel = false) ∧ evicted.isChannel = true ∧
        (s.queue.push message).2.queue = a ++ b ++ [message]
  popped : s.queue.pop.map Prod.fst = (s.waiting.map (·.message)).head?

theorem promise_run (maxSize : ℕ) (hmax : 1 ≤ maxSize) (ops : List QueueOp) :
    (run maxSize ops).Promise maxSize := by
  have h := ordered_run maxSize ops
  generalize run maxSize ops = s at h
  have hserials : (s.log.accepted.map (·.serial)).Pairwise (· < ·) := by
    rw [h.serials]
    exact List.pairwise_lt_range
  refine ⟨?_, h.queue_eq, List.pairwise_map.mp hserials, ?_, ?_, h.refused_iff hmax,
    fun message => h.pushed, ?_⟩
  · exact s.queue.length_le.trans_eq h.size
  · intro e he hdirect
    exact h.balanced.mem_of_protected he hdirect
  · intro ref message
    show (Log.push _ _ _ _).taken = _
    unfold Log.push
    split <;> rfl
  · rw [s.queue.pop_spec.1, h.queue_eq]

/-- A direct message stays while a channel message makes room for another one. -/
theorem promise_run_evicting :
    ∃ s : OfflineQueue, s.Promise 2 ∧ s.log.held.map (·.serial) = [0, 2] ∧
      s.log.evicted.map (·.serial) = [1] := by
  refine ⟨run 2 [.push 0 { senderKey := [1] }, .push 1 { senderKey := [2], isChannel := true },
    .push 2 { senderKey := [3] }], promise_run 2 (by decide) _, ?_⟩
  decide

end OfflineQueue

end OpenHop
