import OpenHop.Node.ReturnCopies
import OpenHop.Protocol.PacketBuilder

/-! # Teaching return paths

A flood reply from a peer whose route is known is taken for a sign that the peer does not
know the way back, and the peer is taught the path the reply came over.
-/

namespace OpenHop

variable {Seed : Type} (c : Crypto Seed)

/-- The arguments of `_teach`. -/
structure TeachRequest where
  contactPubkey : Bytes
  destHash : UInt8
  embeddedPath : Bytes
  embeddedLenByte : ℕ
  outPath : Bytes
  outPathLen : ℕ
  sharedSecret : Option Bytes := none
  hashKey : Option Bytes := none

/-- A teach on its way: before the window closes there is no packet yet. -/
structure TeachTask where
  request : TeachRequest
  secret : Bytes
  previousCooldown : Option ℚ
  packet : Option Packet := none

/-- What was claimed for a contact, numbered in the order of the claims. The previous value is
kept here for evidence notes as well, which forget it. -/
structure TeachClaim where
  serial : ℕ
  key : Bytes
  time : ℚ
  previous : Option ℚ
  evidence : Bool
  deriving DecidableEq

/-- The teacher, together with a record of its claims and of how its teaches ended. A task has the
number of its claim. -/
structure Teacher where
  lastTaught : Dict Bytes ℚ := Dict.empty
  recentCopies : Dict Bytes FloodCopy := Dict.empty
  pendingTeaches : Dict ℕ TeachTask := Dict.empty
  claims : List TeachClaim := []
  sent : List ℕ := []
  failed : List ℕ := []

inductive TeachEvent where
  | copy (e : CopyEvent)
  | teach (request : TeachRequest) (now : ℚ)
  | noteEvidenceTeach (contactPubkey : Bytes) (now : ℚ)
  | settled (serial : ℕ) (noise : Bytes) (now : ℚ)
  | injected (serial : ℕ) (ok : Bool) (now : ℚ)

def TeachEvent.now : TeachEvent → ℚ
  | .copy e => e.now
  | .teach _ now | .noteEvidenceTeach _ now | .settled _ _ now | .injected _ _ now => now

namespace Teacher

variable (t : TeacherConfig) (localIdentity : Seed)

def cooldownActive (s : Teacher) (key : Bytes) (now : ℚ) : Bool :=
  match s.lastTaught.get? key with
  | none => false
  | some last => now - last < t.cooldownS

def secretFor? (request : TeachRequest) : Option Bytes :=
  let derived := c.sharedSecret (c.privateKey localIdentity) request.contactPubkey
  (request.sharedSecret <|> derived).filter (· ≠ [])

def claim (s : Teacher) (key : Bytes) (now : ℚ) (evidence : Bool) : Teacher :=
  { s with
    lastTaught := s.lastTaught.set key now
    claims := ⟨s.claims.length, key, now, s.lastTaught.get? key, evidence⟩ :: s.claims }

def schedules? (s : Teacher) (request : TeachRequest) (now : ℚ) : Option Bytes :=
  if s.cooldownActive t request.contactPubkey now then none
  else secretFor? c localIdentity request

def teach (s : Teacher) (request : TeachRequest) (now : ℚ) : Teacher :=
  match s.schedules? c t localIdentity request now with
  | none => s
  | some secret =>
    { s.claim request.contactPubkey now false with
      pendingTeaches := s.pendingTeaches.set s.claims.length
        { request, secret, previousCooldown := s.lastTaught.get? request.contactPubkey } }

def rollBack (s : Teacher) (serial : ℕ) (task : TeachTask) : Teacher :=
  { s with
    lastTaught := match task.previousCooldown with
      | none => s.lastTaught.erase task.request.contactPubkey
      | some previous => s.lastTaught.set task.request.contactPubkey previous
    pendingTeaches := s.pendingTeaches.erase serial
    failed := serial :: s.failed }

/-- The path and its length byte that are taught: those of the best copy, else those of the reply
that triggered the teach. -/
def chosenPath (s : Teacher) (request : TeachRequest) : Bytes × ℕ :=
  match request.hashKey.bind s.recentCopies.get? with
  | some best => (best.path, best.lenByte)
  | none => (request.embeddedPath, request.embeddedLenByte)

def buildTeach (s : Teacher) (task : TeachTask) (noise : Bytes) : Except PacketError Packet := do
  let (path, lenByte) := s.chosenPath task.request
  let teach ← PacketBuilder.createPathReturn c task.request.destHash
    ((c.publicKey localIdentity).headD 0) task.secret path 0xFF [] (some lenByte) noise
  { teach with header := (teach.header / 4 * 4) ||| routeTypeDirect }.setPath
    task.request.outPath (some task.request.outPathLen)

/-- The settle window closes: the teach is built and handed to the injector. -/
def settle (s : Teacher) (serial : ℕ) (noise : Bytes) : Teacher :=
  match s.pendingTeaches.get? serial with
  | some task =>
    if task.packet.isSome then s
    else
      let popped := match task.request.hashKey with
        | none => s
        | some hash => { s with recentCopies := s.recentCopies.erase hash }
      match s.buildTeach c localIdentity task noise with
      | .error _ => popped.rollBack serial task
      | .ok packet =>
        { popped with
          pendingTeaches := s.pendingTeaches.set serial { task with packet := some packet } }
  | none => s

def inject (s : Teacher) (serial : ℕ) (ok : Bool) : Teacher :=
  match s.pendingTeaches.get? serial with
  | some task =>
    if task.packet.isNone then s
    else if ok then
      { s with pendingTeaches := s.pendingTeaches.erase serial, sent := serial :: s.sent }
    else s.rollBack serial task
  | none => s

def step (s : Teacher) : TeachEvent → Teacher
  | .copy e => { s with recentCopies := t.copyStep s.recentCopies e }
  | .teach request now => s.teach c t localIdentity request now
  | .noteEvidenceTeach contactPubkey now => s.claim contactPubkey now true
  | .settled serial noise _ => s.settle c localIdentity serial noise
  | .injected serial ok _ => s.inject serial ok

def run (events : List TeachEvent) : Teacher := events.foldl (step c t localIdentity) {}

def knownOutPath (contact : Option Contact) : Option (Bytes × ℕ) := do
  let contact ← contact
  if contact.outPathLen < 0 ∨ ¬ PathUtils.isValidPathLen contact.outPathLen.toNat then none
  else
    let expected := PathUtils.getPathByteLen contact.outPathLen.toNat
    if contact.outPath.length < expected then none
    else some (contact.outPath.take expected, contact.outPathLen.toNat)

def floodReply? (pkt : Packet) (contact : Option Contact) (contactPubkey : Bytes)
    (srcHash : UInt8) (sharedSecret : Option Bytes) (sf : Option ℤ) :
    Except PacketError (Option (CopyReading × TeachRequest)) :=
  if ¬ t.enabled ∨ ¬ pkt.isRouteFlood then .ok none
  else
    match knownOutPath contact, TeacherConfig.validatedInboundPath pkt pkt.pathLen with
    | some (outPath, outPathLen), some embeddedPath => do
      let packetHash ← pkt.calculatePacketHash t.sha256
      return some
        ({ packetHash, path := embeddedPath, lenByte := pkt.pathLen, rssi := pkt.rssi,
           snr := pkt.snr, sf },
         { contactPubkey, destHash := srcHash, embeddedPath, embeddedLenByte := pkt.pathLen,
           outPath, outPathLen, sharedSecret, hashKey := some packetHash })
    | _, _ => .ok none

def maybeTeachFromFloodReply (s : Teacher) (pkt : Packet) (contact : Option Contact)
    (contactPubkey : Bytes) (srcHash : UInt8) (sharedSecret : Option Bytes) (sf : Option ℤ)
    (now : ℚ) : Except PacketError Teacher := do
  match ← floodReply? t pkt contact contactPubkey srcHash sharedSecret sf with
  | none => return s
  | some (r, request) =>
    return { s with recentCopies := t.recordCopy s.recentCopies r now }.teach c t localIdentity
      request now

def standing (s : Teacher) (key : Bytes) : List TeachClaim :=
  s.claims.filter fun claim => claim.key = key ∧ claim.serial ∉ s.failed

/-- The cooldown shows the latest of these claims, which remembers the one before it, and so on. -/
inductive Layered : Option ℚ → List TeachClaim → Prop where
  | nil : Layered none []
  | cons (claim : TeachClaim) {rest : List TeachClaim} (h : Layered claim.previous rest) :
      Layered (some claim.time) (claim :: rest)

theorem Layered.undo {last : Option ℚ} {claim : TeachClaim} {rest : List TeachClaim}
    (h : Layered last (claim :: rest)) : Layered claim.previous rest := by
  cases h with
  | cons _ h => exact h

theorem Layered.le {last : Option ℚ} {claims : List TeachClaim} (h : Layered last claims)
    (hsorted : claims.Pairwise fun a b => b.time ≤ a.time) {claim : TeachClaim}
    (hclaim : claim ∈ claims) : ∃ time, last = some time ∧ claim.time ≤ time := by
  cases h with
  | nil => cases hclaim
  | cons first h =>
    refine ⟨first.time, rfl, ?_⟩
    obtain rfl | hrest := List.mem_cons.mp hclaim
    · exact le_rfl
    · exact (List.pairwise_cons.mp hsorted).1 claim hrest

/-- An event makes a claim, with or without a task, or ends a task, or leaves the claims and tasks
as they are. -/
inductive Move (s : Teacher) : TeachEvent → Teacher → Prop where
  | quiet {e : TeachEvent} {s' : Teacher} (hlast : s'.lastTaught = s.lastTaught)
      (hclaims : s'.claims = s.claims) (hsent : s'.sent = s.sent) (hfailed : s'.failed = s.failed)
      (htasks : ∀ i task', s'.pendingTeaches.get? i = some task' →
        ∃ task, s.pendingTeaches.get? i = some task ∧ task'.request = task.request ∧
          task'.previousCooldown = task.previousCooldown) : Move s e s'
  | note (key : Bytes) (now : ℚ) : Move s (.noteEvidenceTeach key now) (s.claim key now true)
  | teach (request : TeachRequest) (now : ℚ) (secret : Bytes) :
      Move s (.teach request now)
        { s.claim request.contactPubkey now false with
          pendingTeaches := s.pendingTeaches.set s.claims.length
            { request, secret, previousCooldown := s.lastTaught.get? request.contactPubkey } }
  | fail {e : TeachEvent} (serial : ℕ) (task : TeachTask) (copies : Dict Bytes FloodCopy)
      (htask : s.pendingTeaches.get? serial = some task) :
      Move s e { s.rollBack serial task with recentCopies := copies }
  | send {e : TeachEvent} (serial : ℕ) (task : TeachTask)
      (htask : s.pendingTeaches.get? serial = some task) :
      Move s e { s with
        pendingTeaches := s.pendingTeaches.erase serial
        sent := serial :: s.sent }

theorem Move.refl (s : Teacher) (e : TeachEvent) : Move s e s :=
  .quiet rfl rfl rfl rfl fun _ task h => ⟨task, h, rfl, rfl⟩

variable {c t localIdentity}

theorem move_teach (s : Teacher) (request : TeachRequest) (now : ℚ) :
    Move s (.teach request now) (s.teach c t localIdentity request now) := by
  unfold Teacher.teach
  cases s.schedules? c t localIdentity request now with
  | none => exact Move.refl s _
  | some secret => exact .teach request now secret

theorem move_settle (s : Teacher) (e : TeachEvent) (serial : ℕ) (noise : Bytes) :
    Move s e (s.settle c localIdentity serial noise) := by
  unfold settle
  cases htask : s.pendingTeaches.get? serial with
  | none => exact Move.refl s _
  | some task =>
    dsimp only
    split
    · exact Move.refl s _
    cases hbuild : s.buildTeach c localIdentity task noise with
    | error _ =>
      cases hhash : task.request.hashKey with
      | none => exact .fail serial task s.recentCopies htask
      | some hash => exact .fail serial task _ htask
    | ok packet =>
      have htasks (i : ℕ) (task' : TeachTask)
          (h : (s.pendingTeaches.set serial { task with packet := some packet }).get? i =
            some task') : ∃ task, s.pendingTeaches.get? i = some task ∧
              task'.request = task.request ∧
              task'.previousCooldown = task.previousCooldown := by
        rw [Dict.get?_set] at h
        split at h
        · rename_i hi
          cases h
          exact ⟨task, hi ▸ htask, rfl, rfl⟩
        · exact ⟨task', h, rfl, rfl⟩
      cases hhash : task.request.hashKey with
      | none => exact .quiet rfl rfl rfl rfl htasks
      | some hash => exact .quiet rfl rfl rfl rfl htasks

theorem move_inject (s : Teacher) (e : TeachEvent) (serial : ℕ) (ok : Bool) :
    Move s e (s.inject serial ok) := by
  unfold inject
  cases htask : s.pendingTeaches.get? serial with
  | none => exact Move.refl s _
  | some task =>
    dsimp only
    split
    · exact Move.refl s _
    split
    · exact .send serial task htask
    · exact .fail serial task s.recentCopies htask

theorem move_step (s : Teacher) (e : TeachEvent) : Move s e (s.step c t localIdentity e) := by
  cases e with
  | copy e => exact .quiet rfl rfl rfl rfl fun _ task h => ⟨task, h, rfl, rfl⟩
  | teach request now => exact move_teach s request now
  | noteEvidenceTeach key now => exact .note key now
  | settled serial noise now => exact move_settle s _ serial noise
  | injected serial ok now => exact move_inject s _ serial ok

/-- Claims are numbered from zero, each task has its claim, a teach ends once, and what was noted as
evidence does not fail. -/
structure Booked (s : Teacher) : Prop where
  serials : s.claims.map TeachClaim.serial = (List.range s.claims.length).reverse
  pending : ∀ i task, s.pendingTeaches.get? i = some task → ∃ claim ∈ s.claims,
    claim.serial = i ∧ claim.key = task.request.contactPubkey ∧
      claim.previous = task.previousCooldown ∧ claim.evidence = false
  running : ∀ i task, s.pendingTeaches.get? i = some task → i ∉ s.sent ∧ i ∉ s.failed
  ended : ∀ i ∈ s.sent, i ∉ s.failed
  issued : ∀ i, i ∈ s.sent ∨ i ∈ s.failed → i < s.claims.length
  noted : ∀ claim ∈ s.claims, claim.evidence = true → claim.serial ∉ s.failed

variable {s s' : Teacher} {e : TeachEvent}

theorem booked_init : Booked {} where
  serials := rfl
  pending i task h := by cases h
  running i task h := by cases h
  ended i h := by cases h
  issued i h := by rcases h with h | h <;> cases h
  noted claim h := by cases h

theorem Booked.nodup_serials (h : s.Booked) : (s.claims.map TeachClaim.serial).Nodup := by
  rw [h.serials]
  exact List.nodup_reverse.mpr List.nodup_range

theorem Booked.eq_of_serial (h : s.Booked) {a b : TeachClaim} (ha : a ∈ s.claims)
    (hb : b ∈ s.claims) (heq : a.serial = b.serial) : a = b :=
  List.inj_on_of_nodup_map h.nodup_serials ha hb heq

theorem Booked.nodup_standing (h : s.Booked) (key : Bytes) : (s.standing key).Nodup :=
  (List.Nodup.of_map TeachClaim.serial h.nodup_serials).filter _

theorem Booked.serial_lt (h : s.Booked) {claim : TeachClaim} (hclaim : claim ∈ s.claims) :
    claim.serial < s.claims.length := by
  have hmem := List.mem_map_of_mem (f := TeachClaim.serial) hclaim
  rw [h.serials] at hmem
  simpa using hmem

theorem Booked.length_not_failed (h : s.Booked) : s.claims.length ∉ s.failed :=
  fun hi => lt_irrefl _ (h.issued _ (.inr hi))

theorem Booked.claim (h : s.Booked) (key : Bytes) (now : ℚ) (evidence : Bool) :
    (s.claim key now evidence).Booked where
  serials := by
    show s.claims.length :: s.claims.map TeachClaim.serial =
      (List.range (s.claims.length + 1)).reverse
    rw [h.serials, List.range_succ, List.reverse_append]
    rfl
  pending i task htask := by
    obtain ⟨claim, hclaim, hrest⟩ := h.pending i task htask
    exact ⟨claim, List.mem_cons_of_mem _ hclaim, hrest⟩
  running := h.running
  ended := h.ended
  issued i hi := Nat.lt_succ_of_lt (h.issued i hi)
  noted claim hclaim hevidence := by
    obtain rfl | hclaim := List.mem_cons.mp hclaim
    · exact h.length_not_failed
    · exact h.noted claim hclaim hevidence

theorem pending_of_erase {serial i : ℕ} {task : TeachTask}
    (h : (s.pendingTeaches.erase serial).get? i = some task) :
    i ≠ serial ∧ s.pendingTeaches.get? i = some task := by
  rw [Dict.get?_erase] at h
  split at h
  · cases h
  · exact ⟨‹_›, h⟩

theorem Booked.teach (h : s.Booked) (request : TeachRequest) (now : ℚ) (secret : Bytes) :
    ({ s.claim request.contactPubkey now false with
      pendingTeaches := s.pendingTeaches.set s.claims.length
        { request, secret, previousCooldown := s.lastTaught.get? request.contactPubkey } } :
      Teacher).Booked := by
  have hclaim := h.claim request.contactPubkey now false
  refine ⟨hclaim.serials, ?_, ?_, h.ended, hclaim.issued, hclaim.noted⟩
  · intro i task htask
    rw [Dict.get?_set] at htask
    split at htask
    · rename_i hi
      cases htask
      exact ⟨_, List.mem_cons_self, hi.symm, rfl, rfl, rfl⟩
    · exact hclaim.pending i task htask
  · intro i task htask
    rw [Dict.get?_set] at htask
    split at htask
    · rename_i hi
      subst hi
      exact ⟨fun hi => lt_irrefl _ (h.issued _ (.inl hi)), h.length_not_failed⟩
    · exact h.running i task htask

theorem Booked.rollBack (h : s.Booked) {serial : ℕ} {task : TeachTask}
    (htask : s.pendingTeaches.get? serial = some task) : (s.rollBack serial task).Booked := by
  obtain ⟨claim, hclaim, hserial, -, -, htaught⟩ := h.pending serial task htask
  refine ⟨h.serials, fun i task' htask' => h.pending i task' (pending_of_erase htask').2,
    ?_, ?_, ?_, ?_⟩
  · intro i task' htask'
    obtain ⟨hne, htask'⟩ := pending_of_erase htask'
    obtain ⟨hsent, hfailed⟩ := h.running i task' htask'
    exact ⟨hsent, List.not_mem_cons_of_ne_of_not_mem hne hfailed⟩
  · intro i hi
    refine List.not_mem_cons_of_ne_of_not_mem ?_ (h.ended i hi)
    rintro rfl
    exact (h.running i task htask).1 hi
  · rintro i (hi | hi)
    · exact h.issued i (.inl hi)
    · obtain rfl | hi := List.mem_cons.mp hi
      · exact hserial ▸ h.serial_lt hclaim
      · exact h.issued i (.inr hi)
  · intro other hother hevidence
    refine List.not_mem_cons_of_ne_of_not_mem ?_ (h.noted other hother hevidence)
    intro heq
    rw [h.eq_of_serial hother hclaim (heq.trans hserial.symm), htaught] at hevidence
    cases hevidence

theorem Booked.send (h : s.Booked) {serial : ℕ} {task : TeachTask}
    (htask : s.pendingTeaches.get? serial = some task) :
    ({ s with
      pendingTeaches := s.pendingTeaches.erase serial
      sent := serial :: s.sent } : Teacher).Booked := by
  obtain ⟨claim, hclaim, hserial, -⟩ := h.pending serial task htask
  refine ⟨h.serials, fun i task' htask' => h.pending i task' (pending_of_erase htask').2,
    ?_, ?_, ?_, h.noted⟩
  · intro i task' htask'
    obtain ⟨hne, htask'⟩ := pending_of_erase htask'
    obtain ⟨hsent, hfailed⟩ := h.running i task' htask'
    exact ⟨List.not_mem_cons_of_ne_of_not_mem hne hsent, hfailed⟩
  · intro i hi
    obtain rfl | hi := List.mem_cons.mp hi
    · exact (h.running i task htask).2
    · exact h.ended i hi
  · rintro i (hi | hi)
    · obtain rfl | hi := List.mem_cons.mp hi
      · exact hserial ▸ h.serial_lt hclaim
      · exact h.issued i (.inl hi)
    · exact h.issued i (.inr hi)

theorem Booked.move (h : s.Booked) (hmove : Move s e s') : s'.Booked := by
  cases hmove with
  | quiet hlast hclaims hsent hfailed htasks =>
    refine ⟨by rw [hclaims, h.serials], ?_, ?_, ?_, ?_, ?_⟩
    · intro i task' htask'
      obtain ⟨task, htask, hreq, hprev⟩ := htasks i task' htask'
      rw [hclaims, hreq, hprev]
      exact h.pending i task htask
    · intro i task' htask'
      obtain ⟨task, htask, -⟩ := htasks i task' htask'
      rw [hsent, hfailed]
      exact h.running i task htask
    · rw [hsent, hfailed]
      exact h.ended
    · rw [hsent, hfailed, hclaims]
      exact h.issued
    · rw [hclaims, hfailed]
      exact h.noted
  | note key now => exact h.claim key now true
  | teach request now secret => exact h.teach request now secret
  | fail serial task copies htask =>
    obtain ⟨hserials, hpending, hrunning, hended, hissued, hnoted⟩ := h.rollBack htask
    exact ⟨hserials, hpending, hrunning, hended, hissued, hnoted⟩
  | send serial task htask => exact h.send htask

def Consistent (s : Teacher) : Prop := ∀ key, Layered (s.lastTaught.get? key) (s.standing key)

/-- If the step fails a teach, then one whose claim is the latest of its contact that stands. -/
def FailsLatest (s s' : Teacher) : Prop :=
  ∀ i ∈ s'.failed, s'.failed = i :: s.failed →
    ∃ claim ∈ s.claims, claim.serial = i ∧ (s.standing claim.key).head? = some claim

instance (s s' : Teacher) : Decidable (s.FailsLatest s') :=
  inferInstanceAs (Decidable (∀ i ∈ s'.failed, _ → _))

theorem standing_claim (h : s.Booked) (key : Bytes) (now : ℚ) (evidence : Bool) (k : Bytes) :
    (s.claim key now evidence).standing k =
      if k = key then
        ⟨s.claims.length, key, now, s.lastTaught.get? key, evidence⟩ :: s.standing k
      else s.standing k := by
  by_cases hk : k = key
  · subst hk
    rw [if_pos rfl]
    exact List.filter_cons_of_pos (decide_eq_true ⟨rfl, h.length_not_failed⟩)
  · rw [if_neg hk]
    exact List.filter_cons_of_neg (by simp [Ne.symm hk])

theorem Consistent.claim (hs : s.Consistent) (h : s.Booked) (key : Bytes) (now : ℚ)
    (evidence : Bool) : (s.claim key now evidence).Consistent := by
  intro k
  rw [standing_claim h]
  show Layered ((s.lastTaught.set key now).get? k) _
  rw [Dict.get?_set]
  split
  · rename_i hk
    subst hk
    exact Layered.cons ⟨s.claims.length, k, now, s.lastTaught.get? k, evidence⟩ (hs k)
  · exact hs k

theorem get?_rollBack (serial : ℕ) (task : TeachTask) (k : Bytes) :
    (s.rollBack serial task).lastTaught.get? k =
      if k = task.request.contactPubkey then task.previousCooldown else s.lastTaught.get? k := by
  unfold rollBack
  cases task.previousCooldown with
  | none => exact Dict.get?_erase ..
  | some previous => exact Dict.get?_set ..

theorem standing_rollBack (serial : ℕ) (task : TeachTask) (k : Bytes) :
    (s.rollBack serial task).standing k =
      (s.standing k).filter fun claim => claim.serial ≠ serial := by
  unfold standing
  rw [List.filter_filter]
  apply List.filter_congr
  intro claim _
  rw [← Bool.decide_and]
  apply decide_eq_decide.mpr
  simp only [rollBack, List.mem_cons, not_or]
  tauto

theorem Consistent.rollBack (hs : s.Consistent) (h : s.Booked) {serial : ℕ} {task : TeachTask}
    (htask : s.pendingTeaches.get? serial = some task)
    (hlatest : ∃ claim ∈ s.claims, claim.serial = serial ∧
      (s.standing claim.key).head? = some claim) : (s.rollBack serial task).Consistent := by
  obtain ⟨claim, hclaim, hserial, hhead⟩ := hlatest
  obtain ⟨claim', hclaim', hserial', hkey, hprevious, -⟩ := h.pending serial task htask
  obtain rfl := h.eq_of_serial hclaim hclaim' (hserial.trans hserial'.symm)
  have hother {k : Bytes} {x : TeachClaim} (hx : x ∈ s.standing k) (hne : x ≠ claim) :
      decide (x.serial ≠ serial) = true := by
    apply decide_eq_true
    intro heq
    exact hne (h.eq_of_serial (List.mem_filter.mp hx).1 hclaim (heq.trans hserial.symm))
  intro k
  rw [get?_rollBack, standing_rollBack, ← hkey, ← hprevious]
  by_cases hk : k = claim.key
  · subst hk
    obtain ⟨rest, hstanding⟩ := List.head?_eq_some_iff.mp hhead
    have hnodup : (claim :: rest).Nodup := hstanding ▸ h.nodup_standing claim.key
    have hrest : rest.filter (fun x => x.serial ≠ serial) = rest := by
      apply List.filter_eq_self.mpr
      intro x hx
      apply hother (k := claim.key) (hstanding ▸ List.mem_cons_of_mem _ hx)
      rintro rfl
      exact (List.nodup_cons.mp hnodup).1 hx
    have hlayers := hs claim.key
    rw [hstanding] at hlayers
    rw [if_pos rfl, hstanding, List.filter_cons_of_neg (by simpa using hserial), hrest]
    exact hlayers.undo
  · rw [if_neg hk, List.filter_eq_self.mpr]
    · exact hs k
    · intro x hx
      apply hother hx
      rintro rfl
      exact hk (of_decide_eq_true (List.mem_filter.mp hx).2).1.symm

theorem Consistent.move (hs : s.Consistent) (h : s.Booked) (hmove : Move s e s')
    (hlatest : s.FailsLatest s') : s'.Consistent := by
  cases hmove with
  | quiet hlast hclaims hsent hfailed htasks =>
    intro key
    unfold standing
    rw [hlast, hclaims, hfailed]
    exact hs key
  | note key now => exact hs.claim h key now true
  | teach request now secret => exact hs.claim h request.contactPubkey now false
  | fail serial task copies htask =>
    exact hs.rollBack h htask (hlatest serial List.mem_cons_self rfl)
  | send serial task htask => exact hs

theorem move_run (before : List TeachEvent) (e : TeachEvent) :
    Move (run c t localIdentity before) e (run c t localIdentity (before ++ [e])) := by
  have hstep : run c t localIdentity (before ++ [e]) =
      (run c t localIdentity before).step c t localIdentity e := by
    unfold run
    rw [List.foldl_append]
    rfl
  rw [hstep]
  exact move_step _ e

theorem maybeTeachFromFloodReply_run (events : List TeachEvent) {pkt : Packet}
    {contact : Option Contact} {contactPubkey : Bytes} {srcHash : UInt8}
    {sharedSecret : Option Bytes} {sf : Option ℤ} {now : ℚ}
    (h : (run c t localIdentity events).maybeTeachFromFloodReply c t localIdentity pkt contact
      contactPubkey srcHash sharedSecret sf now = .ok s') :
    ∃ more : List TeachEvent, s' = run c t localIdentity (events ++ more) ∧
      ∀ e ∈ more, e.now = now := by
  unfold maybeTeachFromFloodReply at h
  obtain ⟨reply, -, h⟩ := bind_eq_ok.mp h
  cases reply with
  | none =>
    cases h
    exact ⟨[], by rw [List.append_nil], by simp⟩
  | some reply =>
    obtain ⟨r, request⟩ := reply
    cases h
    refine ⟨[.copy (.record r now), .teach request now], ?_, ?_⟩
    · unfold run
      rw [List.foldl_append]
      rfl
    · simp [TeachEvent.now, CopyEvent.now]

theorem booked_run (events : List TeachEvent) : (run c t localIdentity events).Booked := by
  induction events using List.reverseRecOn with
  | nil => exact booked_init
  | append_singleton before e ih => exact ih.move (move_run before e)

theorem Move.failed_subset (hmove : Move s e s') {i : ℕ} (hi : i ∈ s.failed) : i ∈ s'.failed := by
  cases hmove with
  | quiet hlast hclaims hsent hfailed htasks => exact hfailed ▸ hi
  | note key now => exact hi
  | teach request now secret => exact hi
  | fail serial task copies htask => exact List.mem_cons_of_mem _ hi
  | send serial task htask => exact hi

theorem failed_run_subset {before events : List TeachEvent} (h : before <+: events) {i : ℕ}
    (hi : i ∈ (run c t localIdentity before).failed) :
    i ∈ (run c t localIdentity events).failed := by
  obtain ⟨after, rfl⟩ := h
  induction after using List.reverseRecOn with
  | nil => rwa [List.append_nil]
  | append_singleton after e ih =>
    rw [← List.append_assoc]
    exact (move_run (before ++ after) e).failed_subset ih

theorem Move.claims_cases (hmove : Move s e s') :
    s'.claims = s.claims ∨ ∃ claim, s'.claims = claim :: s.claims ∧ claim.time = e.now := by
  cases hmove with
  | quiet hlast hclaims hsent hfailed htasks => exact .inl hclaims
  | note key now => exact .inr ⟨_, rfl, rfl⟩
  | teach request now secret => exact .inr ⟨_, rfl, rfl⟩
  | fail serial task copies htask => exact .inl rfl
  | send serial task htask => exact .inl rfl

theorem time_mem_run (events : List TeachEvent) {claim : TeachClaim}
    (hclaim : claim ∈ (run c t localIdentity events).claims) :
    claim.time ∈ events.map TeachEvent.now := by
  induction events using List.reverseRecOn with
  | nil => cases hclaim
  | append_singleton before e ih =>
    rw [List.map_append, List.mem_append]
    obtain hclaims | ⟨latest, hclaims, htime⟩ :=
      (move_run (c := c) (t := t) before e).claims_cases
    · rw [hclaims] at hclaim
      exact .inl (ih hclaim)
    · rw [hclaims] at hclaim
      obtain rfl | hclaim := List.mem_cons.mp hclaim
      · exact .inr (List.mem_singleton.mpr htime)
      · exact .inl (ih hclaim)

theorem sorted_run (events : List TeachEvent)
    (hclock : (events.map TeachEvent.now).Pairwise (· ≤ ·)) :
    (run c t localIdentity events).claims.Pairwise fun a b => b.time ≤ a.time := by
  induction events using List.reverseRecOn with
  | nil => exact List.Pairwise.nil
  | append_singleton before e ih =>
    rw [List.map_append, List.pairwise_append] at hclock
    obtain ⟨hbefore, -, hlate⟩ := hclock
    obtain hclaims | ⟨latest, hclaims, htime⟩ :=
      (move_run (c := c) (t := t) before e).claims_cases
    · rw [hclaims]
      exact ih hbefore
    · rw [hclaims, List.pairwise_cons]
      refine ⟨fun claim hclaim => ?_, ih hbefore⟩
      rw [htime]
      exact hlate _ (time_mem_run before hclaim) _ List.mem_cons_self

variable (c t localIdentity)

/-- Each teach that fails is the latest of its contact that had not failed: nothing was claimed
for the contact while the teach was on its way. -/
def Orderly (events : List TeachEvent) : Prop :=
  ∀ before e, before ++ [e] <+: events →
    (run c t localIdentity before).FailsLatest (run c t localIdentity (before ++ [e]))

def WentOut (s : Teacher) (claim : TeachClaim) : Prop :=
  claim.evidence = true ∨ claim.serial ∈ s.sent

/-- No teach is scheduled within the cooldown of a claim for one that went out. -/
def CooldownKept (events : List TeachEvent) : Prop :=
  ∀ before request now, before ++ [.teach request now] <+: events →
    ((run c t localIdentity before).schedules? c t localIdentity request now).isSome →
    ∀ claim ∈ (run c t localIdentity before).claims, claim.key = request.contactPubkey →
      (run c t localIdentity events).WentOut claim →
        ¬ (now - t.cooldownS < claim.time ∧ claim.time ≤ now)

variable {c t localIdentity}

theorem orderly_iff_take (events : List TeachEvent) : Orderly c t localIdentity events ↔
    ∀ n < events.length, (run c t localIdentity (events.take n)).FailsLatest
      (run c t localIdentity (events.take (n + 1))) := by
  constructor
  · intro h n hn
    rw [List.take_add_one, List.getElem?_eq_getElem hn]
    apply h
    rw [← Option.toList_some, ← List.getElem?_eq_getElem hn, ← List.take_add_one]
    exact List.take_prefix ..
  · rintro h before e ⟨after, rfl⟩
    have hfails := h before.length (by simp)
    have hbefore : (before ++ [e] ++ after).take before.length = before := by simp
    have hnext : (before ++ [e] ++ after).take (before.length + 1) = before ++ [e] := by
      rw [List.take_left' (by simp)]
    rwa [hbefore, hnext] at hfails

instance (events : List TeachEvent) : Decidable (Orderly c t localIdentity events) :=
  decidable_of_iff _ (orderly_iff_take events).symm

theorem Orderly.of_isPrefix {before events : List TeachEvent}
    (h : Orderly c t localIdentity events) (hbefore : before <+: events) :
    Orderly c t localIdentity before :=
  fun start e hstart => h start e (hstart.trans hbefore)

theorem consistent_run (events : List TeachEvent) (horderly : Orderly c t localIdentity events) :
    (run c t localIdentity events).Consistent := by
  induction events using List.reverseRecOn with
  | nil => exact fun key => Layered.nil
  | append_singleton before e ih =>
    have hbefore := ih (horderly.of_isPrefix (List.prefix_append ..))
    exact hbefore.move (booked_run before) (move_run before e)
      (horderly before e (List.prefix_refl _))

theorem WentOut.not_failed {before events : List TeachEvent} (hbefore : before <+: events)
    {claim : TeachClaim} (hclaim : claim ∈ (run c t localIdentity before).claims)
    (hout : (run c t localIdentity events).WentOut claim) :
    claim.serial ∉ (run c t localIdentity before).failed := by
  obtain hevidence | hsent := hout
  · exact (booked_run before).noted claim hclaim hevidence
  · intro hfailed
    exact (booked_run events).ended _ hsent (failed_run_subset hbefore hfailed)

theorem not_cooldownActive_of_schedules? {request : TeachRequest} {now : ℚ}
    (h : (s.schedules? c t localIdentity request now).isSome) :
    s.cooldownActive t request.contactPubkey now = false := by
  unfold schedules? at h
  split at h
  · cases h
  · exact Bool.eq_false_of_not_eq_true ‹_›

theorem le_of_not_cooldownActive {key : Bytes} {now time : ℚ}
    (h : s.cooldownActive t key now = false) (hlast : s.lastTaught.get? key = some time) :
    time ≤ now - t.cooldownS := by
  unfold cooldownActive at h
  rw [hlast] at h
  exact le_sub_comm.mp (not_lt.mp (of_decide_eq_false h))

/-- As long as each teach that fails is the latest of its contact, the cooldown is kept. -/
theorem cooldownKept_of_orderly (events : List TeachEvent)
    (hclock : (events.map TeachEvent.now).Pairwise (· ≤ ·))
    (horderly : Orderly c t localIdentity events) : CooldownKept c t localIdentity events := by
  intro before request now hsplit hschedules claim hclaim hkey hout hrecent
  have hbefore : before <+: events := (List.prefix_append ..).trans hsplit
  have hstanding : claim ∈ (run c t localIdentity before).standing request.contactPubkey :=
    List.mem_filter.mpr ⟨hclaim, decide_eq_true ⟨hkey, hout.not_failed hbefore hclaim⟩⟩
  have hsorted : (run c t localIdentity before).claims.Pairwise fun a b => b.time ≤ a.time :=
    sorted_run before (hclock.sublist (hbefore.sublist.map TeachEvent.now))
  obtain ⟨time, hlast, hle⟩ := (consistent_run before (horderly.of_isPrefix hbefore)
    request.contactPubkey).le (hsorted.sublist List.filter_sublist) hstanding
  have hcool := le_of_not_cooldownActive (not_cooldownActive_of_schedules? hschedules) hlast
  exact absurd hrecent.1 (not_lt.mpr (hle.trans hcool))

def neighbour : TeachRequest where
  contactPubkey := [7]
  destHash := 7
  embeddedPath := []
  embeddedLenByte := 0
  outPath := []
  outPathLen := 0
  sharedSecret := some [1]

/-- A teach fails and the next one is sent. -/
def retried : List TeachEvent :=
  [.teach neighbour 0, .settled 0 [] 3, .injected 0 false 3, .teach neighbour 4, .settled 1 [] 7,
    .injected 1 true 7, .teach neighbour 9]

theorem cooldownKept_of_orderly_retried :
    (run xorCrypto .defaultTeacher [0xA0] retried).failed = [0] ∧
      (run xorCrypto .defaultTeacher [0xA0] retried).sent = [1] ∧
      (run xorCrypto .defaultTeacher [0xA0] retried).claims.length = 3 ∧
      CooldownKept xorCrypto .defaultTeacher [0xA0] retried :=
  ⟨by decide +kernel, by decide +kernel, by decide +kernel,
    cooldownKept_of_orderly retried (by decide +kernel) (by decide +kernel)⟩

/-- While a teach is on its way the path is taught otherwise; when the teach fails, so does this
claim. -/
def overtaken : List TeachEvent :=
  [.teach neighbour 0, .noteEvidenceTeach [7] 1, .settled 0 [] 3, .injected 0 false 3,
    .teach neighbour 4]

theorem not_cooldownKept_overtaken :
    (overtaken.map TeachEvent.now).Pairwise (· ≤ ·) ∧
      ¬ CooldownKept xorCrypto .defaultTeacher [0xA0] overtaken := by
  refine ⟨by decide +kernel, fun h => ?_⟩
  refine h overtaken.dropLast neighbour 4 (List.prefix_refl overtaken) ?_
    ⟨1, [7], 1, some 0, true⟩ ?_ rfl (.inl rfl) ?_
  · decide +kernel
  · decide +kernel
  · decide +kernel

end Teacher

end OpenHop
