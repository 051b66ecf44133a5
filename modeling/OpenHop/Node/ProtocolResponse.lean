import OpenHop.Companion.ContactStore
import OpenHop.Node.AckHandler
import OpenHop.Node.ResponseParsing
import OpenHop.Protocol.PacketBuilder

/-! # Responses to requests

A response is opened with the secret of a contact that has its sender's hash. Its first
four bytes are the tag of the request. The request waits with its contact and tag, or
with its tag alone for a limited time; a response that looks like the reply to a login
is left to the handler of logins.
-/

namespace OpenHop

/-- A request that waits for any contact's response with its tag. -/
structure BinaryRequest where
  requestType : ℕ
  expiresAt : ℚ
  deriving DecidableEq

/-- The paths to and from the contact that a path return reports. -/
structure PathInfo where
  outLen : ℕ
  outPath : Bytes
  inLen : ℕ
  inPath : Bytes
  contactPubkey : Bytes
  deriving DecidableEq

/-- What a response makes happen. `requestType` is none where no request was pending. -/
inductive ResponseEvent where
  | contactPathUpdated (contact : Contact)
  | reciprocal (packet : Packet)
  | waiter (contactPubkey : Bytes) (tag : ℕ) (response : ParsedResponse)
  | pathDiscovery (tag : Bytes) (info : PathInfo)
  | binaryResponse (tag data : Bytes) (requestType : Option ℕ)
  deriving DecidableEq

/-- The handler with the tables of its companion. -/
structure ProtocolResponses (Seed : Type) where
  localIdentity : Seed
  cls : CharClass
  contacts : ContactStore
  responseWaiters : Finset (Bytes × ℕ) := ∅
  pendingBinaryRequests : Dict Bytes BinaryRequest := Dict.empty
  pendingDiscoveryTags : Finset ℕ := ∅

namespace ProtocolResponses

variable {Seed : Type} (c : Crypto Seed)

/-- The response in a decrypted packet of a type, if it has one; none where the next contact is
tried. -/
def responsePayload (pktType : ℕ) (decrypted : Bytes) : Option (Option Bytes) :=
  if pktType = payloadTypePath then
    match decrypted with
    | [] => none
    | b :: _ =>
      if ¬ PathUtils.isValidPathLen b.toNat then none
      else
        let innerOffset := 1 + PathUtils.getPathByteLen b.toNat + 1
        if decrypted.length < innerOffset then none
        else
          let extraType := (decrypted.getD (innerOffset - 1) 0).toNat &&& 0x0F
          if extraType = payloadTypeResponse ∧ innerOffset < decrypted.length then
            some (some (decrypted.drop innerOffset))
          else some none
  else if pktType = payloadTypeResponse then some (some decrypted)
  else some none

/-- The contact that a packet comes from, its secret, the plaintext and the response in it. -/
def decryptProtocolResponse (h : ProtocolResponses Seed) (pkt : Packet) (srcHash : UInt8) :
    Option (Contact × Bytes × Bytes × Option Bytes) :=
  let payload := pkt.getPayload
  if payload.length < 6 then none
  else
    let encrypted := payload.drop 2
    if encrypted.length < cipherMacSize + (cipherBlockSize - 1) then none
    else
      (iterDecryptBySrcHash c h.contacts.contacts.values srcHash h.localIdentity
        encrypted).findSome? fun (contact, secret, decrypted) =>
          (responsePayload pkt.getPayloadType decrypted).map fun payload =>
            (contact, secret, decrypted, payload)

/-- The packet for this node is opened; none where it is not for this node. -/
def openResponse (h : ProtocolResponses Seed) (pkt : Packet) :
    Option (Contact × Bytes × Bytes × Option Bytes) :=
  if pkt.payload.length < 4 then none
  else
    match pkt.payload with
    | destHash :: srcHash :: _ =>
      if (c.publicKey h.localIdentity).head? ≠ some destHash then none
      else h.decryptProtocolResponse c pkt srcHash
    | _ => none

def outPathOf (decrypted : Bytes) : Bytes :=
  (decrypted.drop 1).take (PathUtils.getPathByteLen (decrypted.headD 0).toNat)

/-- A known contact gets the path, and the owner of the contacts hears of it. -/
def updateContactPath (h : ProtocolResponses Seed) (contactPubkey decrypted : Bytes) :
    ProtocolResponses Seed × List ResponseEvent :=
  match h.contacts.getByKey contactPubkey with
  | none => (h, [])
  | some contact =>
    let contact :=
      { contact with
        outPathLen := (decrypted.headD 0).toNat
        outPath := outPathOf decrypted }
    ({ h with contacts := (h.contacts.update contact).2 }, [.contactPathUpdated contact])

/-- The path return that teaches the sender the way back, along the path just learned. -/
def reciprocalPath (h : ProtocolResponses Seed) (srcHash : UInt8) (sharedSecret : Bytes)
    (pkt : Packet) (decrypted noise : Bytes) : Except PacketError Packet := do
  let ourHash ← PacketBuilder.hashByte (c.publicKey h.localIdentity)
  let reciprocal ← PacketBuilder.createPathReturn c srcHash ourHash sharedSecret pkt.path 0xFF []
    (some pkt.pathLen) noise
  let reciprocal := { reciprocal with
    header := (reciprocal.header >>> 2 <<< 2) ||| routeTypeDirect }
  reciprocal.setPath (outPathOf decrypted) (some (decrypted.headD 0).toNat)

def learnPath (h : ProtocolResponses Seed) (pkt : Packet) (contact : Contact)
    (sharedSecret decrypted noise : Bytes) : ProtocolResponses Seed × List ResponseEvent :=
  if pkt.getPayloadType = payloadTypePath then
    let (h, events) := h.updateContactPath contact.publicKey decrypted
    let reciprocal :=
      if pkt.isRouteFlood then
        (h.reciprocalPath c (contact.publicKey.headD 0) sharedSecret pkt decrypted noise).toOption
      else none
    (h, events ++ (reciprocal.map .reciprocal).toList)
  else (h, [])

def cleanupExpiredBinaryRequests (h : ProtocolResponses Seed) (now : ℚ) : ProtocolResponses Seed :=
  { h with
    pendingBinaryRequests := h.pendingBinaryRequests.filter fun _ info => ¬ now > info.expiresAt }

/-- A path return with the tag of a discovery answers the discovery, other responses the request
with their tag. -/
def onBinaryResponse (h : ProtocolResponses Seed) (now : ℚ) (tag data : Bytes)
    (pathInfo : Option PathInfo) : ProtocolResponses Seed × List ResponseEvent :=
  match pathInfo.filter fun _ => Bytes.toNatLE tag ∈ h.pendingDiscoveryTags with
  | some info =>
    ({ h with pendingDiscoveryTags := h.pendingDiscoveryTags.erase (Bytes.toNatLE tag) },
      [.pathDiscovery tag info])
  | none =>
    let h := h.cleanupExpiredBinaryRequests now
    ({ h with pendingBinaryRequests := h.pendingBinaryRequests.erase tag },
      [.binaryResponse tag data ((h.pendingBinaryRequests.get? tag).map (·.requestType))])

def pathInfo (pkt : Packet) (contactPubkey decrypted : Bytes) : Option PathInfo :=
  if pkt.getPayloadType = payloadTypePath then
    some
      { outLen := (decrypted.headD 0).toNat
        outPath := outPathOf decrypted
        inLen := if pkt.path ≠ [] then pkt.pathLen else 0
        inPath := pkt.path
        contactPubkey := contactPubkey }
  else none

def deliver (h : ProtocolResponses Seed) (now : ℚ) (pkt : Packet)
    (contactPubkey decrypted : Bytes) : Option Bytes → ProtocolResponses Seed × List ResponseEvent
  | none => (h, [])
  | some payload =>
    if payload.length < 4 then (h, [])
    else
      let tag := Bytes.toNatLE (payload.take 4)
      if (contactPubkey, tag) ∈ h.responseWaiters then
        ({ h with responseWaiters := h.responseWaiters.erase (contactPubkey, tag) },
          [.waiter contactPubkey tag (parseProtocolResponse h.cls payload)])
      else if isLoginReply (payload.drop 4) then (h, [])
      else
        h.onBinaryResponse now (payload.take 4) (payload.drop 4)
          (pathInfo pkt contactPubkey decrypted)

/-- The state after a packet, what it made happen and whether it was for this node. -/
def call (h : ProtocolResponses Seed) (now : ℚ) (noise : Bytes) (pkt : Packet) :
    ProtocolResponses Seed × List ResponseEvent × Bool :=
  match h.openResponse c pkt with
  | none => (h, [], false)
  | some (contact, secret, decrypted, payload) =>
    let (h, learned) := h.learnPath c pkt contact secret decrypted noise
    let (h, delivered) := h.deliver now pkt contact.publicKey decrypted payload
    (h, learned ++ delivered, true)

/-- A request by what it waits for. -/
inductive Request where
  | waiter (contactPubkey : Bytes) (tag : ℕ)
  | binary (tag : Bytes)
  deriving DecidableEq

/-- The request that an event completes. -/
def completes : ResponseEvent → Option Request
  | .waiter contactPubkey tag _ => some (.waiter contactPubkey tag)
  | .binaryResponse tag _ (some _) => some (.binary tag)
  | _ => none

def Registered (h : ProtocolResponses Seed) : Request → Prop
  | .waiter contactPubkey tag => (contactPubkey, tag) ∈ h.responseWaiters
  | .binary tag => (h.pendingBinaryRequests.get? tag).isSome

/-- The request is in the tables and has not expired. -/
def Pending (h : ProtocolResponses Seed) (now : ℚ) : Request → Prop
  | .waiter contactPubkey tag => (contactPubkey, tag) ∈ h.responseWaiters
  | .binary tag => ∃ info, h.pendingBinaryRequests.get? tag = some info ∧ now ≤ info.expiresAt

/-- The event gives a request the response it waits for. -/
def Answers (h : ProtocolResponses Seed) (contactPubkey payload : Bytes) : Request → ResponseEvent →
    Prop
  | .waiter key tag, e =>
    key = contactPubkey ∧ tag = Bytes.toNatLE (payload.take 4) ∧
      e = .waiter key tag (parseProtocolResponse h.cls payload)
  | .binary tag, e =>
    tag = payload.take 4 ∧ ∃ info, h.pendingBinaryRequests.get? tag = some info ∧
      e = .binaryResponse tag (payload.drop 4) (some info.requestType)

/-- The packets that come in, with their times. -/
def run (h : ProtocolResponses Seed) : List (ℚ × Bytes × Packet) →
    ProtocolResponses Seed × List ResponseEvent
  | [] => (h, [])
  | (now, noise, pkt) :: arrivals =>
    let (h, events, _) := h.call c now noise pkt
    let (h, later) := h.run arrivals
    (h, events ++ later)

section

variable {c} {h : ProtocolResponses Seed} {now : ℚ} {noise : Bytes} {pkt : Packet}
  {contactPubkey decrypted payload : Bytes} {r : Request}

def ofPath : ResponseEvent → Bool
  | .contactPathUpdated _ | .reciprocal _ => true
  | _ => false

theorem completes_of_ofPath {e : ResponseEvent} (he : ofPath e = true) : completes e = none := by
  cases e with
  | contactPathUpdated contact => rfl
  | reciprocal packet => rfl
  | waiter contactPubkey tag response => cases he
  | pathDiscovery tag info => cases he
  | binaryResponse tag data requestType => cases he

theorem learnPath_spec (h : ProtocolResponses Seed) (pkt : Packet) (contact : Contact)
    (secret decrypted noise : Bytes) :
    ∃ contacts events, h.learnPath c pkt contact secret decrypted noise =
        ({ h with contacts := contacts }, events) ∧ ∀ e ∈ events, ofPath e = true := by
  unfold learnPath
  split
  · have hupdate : ∃ contacts events, h.updateContactPath contact.publicKey decrypted =
        ({ h with contacts := contacts }, events) ∧ ∀ e ∈ events, ofPath e = true := by
      unfold updateContactPath
      split
      · exact ⟨h.contacts, [], rfl, List.forall_mem_nil _⟩
      · refine ⟨_, _, rfl, ?_⟩
        rintro e he
        cases List.mem_singleton.mp he
        rfl
    obtain ⟨contacts, events, heq, hpath⟩ := hupdate
    rw [heq]
    refine ⟨contacts, _, rfl, ?_⟩
    intro e he
    rcases List.mem_append.mp he with he | he
    · exact hpath e he
    · obtain ⟨reply, -, rfl⟩ := Option.map_eq_some_iff.mp (Option.mem_toList.mp he)
      rfl
  · exact ⟨h.contacts, [], rfl, List.forall_mem_nil _⟩

/-- From one state to another no request is added, and those completed on the way are registered
before, gone after and completed once. -/
structure Takes (h h' : ProtocolResponses Seed) (events : List ResponseEvent) : Prop where
  registered : ∀ r, h'.Registered r → h.Registered r
  completed : ∀ r ∈ events.filterMap completes, h.Registered r ∧ ¬ h'.Registered r
  once : (events.filterMap completes).Nodup

theorem Takes.refl (h : ProtocolResponses Seed) : Takes h h [] :=
  ⟨fun _ hr => hr, List.forall_mem_nil _, List.nodup_nil⟩

theorem Takes.of_none {h' : ProtocolResponses Seed} {events : List ResponseEvent}
    (hreg : ∀ r, h'.Registered r → h.Registered r) (hnone : ∀ e ∈ events, completes e = none) :
    Takes h h' events := by
  have hnil : events.filterMap completes = [] := List.filterMap_eq_nil_iff.mpr hnone
  refine ⟨hreg, ?_, ?_⟩
  · rw [hnil]
    exact List.forall_mem_nil _
  · rw [hnil]
    exact List.nodup_nil

theorem Takes.of_one {h' : ProtocolResponses Seed} {e : ResponseEvent} (he : completes e = some r)
    (hreg : ∀ r, h'.Registered r → h.Registered r) (hbefore : h.Registered r)
    (hafter : ¬ h'.Registered r) : Takes h h' [e] := by
  have hone : [e].filterMap completes = [r] := by simp [he]
  refine ⟨hreg, ?_, ?_⟩
  · rw [hone]
    intro q hq
    obtain rfl := List.mem_singleton.mp hq
    exact ⟨hbefore, hafter⟩
  · rw [hone]
    exact List.nodup_singleton r

theorem Takes.trans {h₁ h₂ : ProtocolResponses Seed} {es es' : List ResponseEvent}
    (first : Takes h h₁ es) (second : Takes h₁ h₂ es') : Takes h h₂ (es ++ es') := by
  refine ⟨fun r hr => first.registered r (second.registered r hr), ?_, ?_⟩
  · rw [List.filterMap_append]
    intro r hr
    rcases List.mem_append.mp hr with hr | hr
    · obtain ⟨hbefore, hafter⟩ := first.completed r hr
      exact ⟨hbefore, fun hend => hafter (second.registered r hend)⟩
    · obtain ⟨hbefore, hafter⟩ := second.completed r hr
      exact ⟨first.registered r hbefore, hafter⟩
  · rw [List.filterMap_append]
    refine List.nodup_append.mpr ⟨first.once, second.once, ?_⟩
    rintro r hr q hq rfl
    exact (first.completed r hr).2 (second.completed r hq).1

theorem registered_cleanup (h : ProtocolResponses Seed) (now : ℚ) (r : Request)
    (hr : (h.cleanupExpiredBinaryRequests now).Registered r) : h.Registered r := by
  cases r with
  | waiter key tag => exact hr
  | binary tag =>
    rw [Registered, cleanupExpiredBinaryRequests, Dict.get?_filter] at hr
    exact Option.isSome_of_isSome_filter _ _ hr

theorem onBinaryResponse_takes (h : ProtocolResponses Seed) (now : ℚ) (tag data : Bytes)
    (info : Option PathInfo) :
    Takes h (h.onBinaryResponse now tag data info).1 (h.onBinaryResponse now tag data info).2 := by
  unfold onBinaryResponse
  split
  · refine Takes.of_none (fun r hr => ?_) (fun e he => ?_)
    · cases r <;> exact hr
    · cases List.mem_singleton.mp he
      rfl
  · have hreg : ∀ r, Registered { h.cleanupExpiredBinaryRequests now with
        pendingBinaryRequests :=
          (h.cleanupExpiredBinaryRequests now).pendingBinaryRequests.erase tag } r →
        (h.cleanupExpiredBinaryRequests now).Registered r := by
      intro r hr
      cases r with
      | waiter key tag => exact hr
      | binary t =>
        rw [Registered, Dict.get?_erase] at hr
        split at hr
        · cases hr
        · exact hr
    dsimp only
    cases hget : (h.cleanupExpiredBinaryRequests now).pendingBinaryRequests.get? tag with
    | none =>
      refine Takes.of_none (fun r hr => registered_cleanup h now r (hreg r hr)) (fun e he => ?_)
      cases List.mem_singleton.mp he
      rfl
    | some info =>
      refine Takes.of_one rfl (fun r hr => registered_cleanup h now r (hreg r hr)) ?_ ?_
      · refine registered_cleanup h now (.binary tag) ?_
        rw [Registered, hget]
        rfl
      · simp [Registered]

theorem deliver_takes (h : ProtocolResponses Seed) (now : ℚ) (pkt : Packet)
    (contactPubkey decrypted : Bytes) (payload : Option Bytes) :
    Takes h (h.deliver now pkt contactPubkey decrypted payload).1
      (h.deliver now pkt contactPubkey decrypted payload).2 := by
  cases payload with
  | none => exact Takes.refl h
  | some payload =>
    simp only [deliver]
    split
    · exact Takes.refl h
    · split
      · rename_i hwaiter
        refine Takes.of_one rfl (fun r hr => ?_) hwaiter ?_
        · cases r with
          | waiter key tag => exact Finset.mem_of_mem_erase hr
          | binary tag => exact hr
        · exact fun hmem => Finset.notMem_erase _ _ hmem
      · split
        · exact Takes.refl h
        · exact onBinaryResponse_takes ..

theorem call_takes (h : ProtocolResponses Seed) (now : ℚ) (noise : Bytes) (pkt : Packet) :
    Takes h (h.call c now noise pkt).1 (h.call c now noise pkt).2.1 := by
  unfold call
  split
  · exact Takes.refl h
  · rename_i contact secret decrypted payload _
    obtain ⟨contacts, events, hlearn, hpath⟩ := learnPath_spec (c := c) h pkt contact secret
      decrypted noise
    rw [hlearn]
    refine Takes.trans (Takes.of_none (fun r hr => ?_) fun e he => completes_of_ofPath (hpath e he))
      (deliver_takes ..)
    cases r <;> exact hr

theorem run_takes (h : ProtocolResponses Seed) (arrivals : List (ℚ × Bytes × Packet)) :
    Takes h (h.run c arrivals).1 (h.run c arrivals).2 := by
  induction arrivals generalizing h with
  | nil => exact Takes.refl h
  | cons arrival arrivals ih =>
    obtain ⟨now, noise, pkt⟩ := arrival
    exact Takes.trans (call_takes h now noise pkt) (ih _)

theorem not_completed_again (h : ProtocolResponses Seed) (now : ℚ) (noise : Bytes) (pkt : Packet)
    (hr : r ∈ (h.call c now noise pkt).2.1.filterMap completes)
    (arrivals : List (ℚ × Bytes × Packet)) :
    r ∉ ((h.call c now noise pkt).1.run c arrivals).2.filterMap completes :=
  fun hagain => ((call_takes h now noise pkt).completed r hr).2
    ((run_takes _ arrivals).completed r hagain).1

theorem Answers.completes_eq {e : ResponseEvent} (ha : h.Answers contactPubkey payload r e) :
    completes e = some r := by
  cases r with
  | waiter key tag =>
    obtain ⟨-, -, rfl⟩ := ha
    rfl
  | binary tag =>
    obtain ⟨-, info, -, rfl⟩ := ha
    rfl

/-- A path return whose tag a discovery waits for. -/
def AnswersDiscovery (h : ProtocolResponses Seed) (pkt : Packet) (payload : Bytes) : Prop :=
  pkt.getPayloadType = payloadTypePath ∧ Bytes.toNatLE (payload.take 4) ∈ h.pendingDiscoveryTags

theorem onBinaryResponse_discovery (hd : h.AnswersDiscovery pkt payload) (data : Bytes) :
    ∃ info,
      (h.onBinaryResponse now (payload.take 4) data (pathInfo pkt contactPubkey decrypted)).2 =
        [.pathDiscovery (payload.take 4) info] := by
  have hfilter : ∃ info, ((pathInfo pkt contactPubkey decrypted).filter fun _ =>
      Bytes.toNatLE (payload.take 4) ∈ h.pendingDiscoveryTags) = some info := by
    unfold pathInfo
    rw [if_pos hd.1]
    exact ⟨_, Option.filter_some_pos (decide_eq_true hd.2)⟩
  obtain ⟨info, hinfo⟩ := hfilter
  unfold onBinaryResponse
  rw [hinfo]
  exact ⟨info, rfl⟩

theorem onBinaryResponse_of_not_discovery (hd : ¬ h.AnswersDiscovery pkt payload) (data : Bytes) :
    h.onBinaryResponse now (payload.take 4) data (pathInfo pkt contactPubkey decrypted) =
      ({ h.cleanupExpiredBinaryRequests now with
          pendingBinaryRequests := (h.cleanupExpiredBinaryRequests
            now).pendingBinaryRequests.erase (payload.take 4) },
        [.binaryResponse (payload.take 4) data
          (((h.cleanupExpiredBinaryRequests now).pendingBinaryRequests.get?
            (payload.take 4)).map (·.requestType))]) := by
  have hfilter : ((pathInfo pkt contactPubkey decrypted).filter fun _ =>
      Bytes.toNatLE (payload.take 4) ∈ h.pendingDiscoveryTags) = none := by
    rw [Option.filter_eq_none_iff]
    intro i hi hmem
    unfold pathInfo at hi
    split at hi
    · rename_i hpath
      exact hd ⟨hpath, of_decide_eq_true hmem⟩
    · cases hi
  unfold onBinaryResponse
  rw [hfilter]

theorem get?_cleanup_eq_some_iff {tag : Bytes} {info : BinaryRequest} :
    (h.cleanupExpiredBinaryRequests now).pendingBinaryRequests.get? tag = some info ↔
      h.pendingBinaryRequests.get? tag = some info ∧ now ≤ info.expiresAt := by
  rw [cleanupExpiredBinaryRequests, Dict.get?_filter, Option.filter_eq_some_iff, decide_eq_true_eq,
    gt_iff_lt, not_lt]

theorem onBinaryResponse_request (hd : ¬ h.AnswersDiscovery pkt payload) {info : BinaryRequest}
    (hget : h.pendingBinaryRequests.get? (payload.take 4) = some info)
    (hfresh : now ≤ info.expiresAt) (data : Bytes) :
    (h.onBinaryResponse now (payload.take 4) data (pathInfo pkt contactPubkey decrypted)).2 =
      [.binaryResponse (payload.take 4) data (some info.requestType)] := by
  rw [onBinaryResponse_of_not_discovery hd, get?_cleanup_eq_some_iff.mpr ⟨hget, hfresh⟩]
  rfl

theorem deliver_waiter (hlen : 4 ≤ payload.length)
    (hmem : (contactPubkey, Bytes.toNatLE (payload.take 4)) ∈ h.responseWaiters) :
    (h.deliver now pkt contactPubkey decrypted (some payload)).2 =
      [.waiter contactPubkey (Bytes.toNatLE (payload.take 4))
        (parseProtocolResponse h.cls payload)] := by
  rw [deliver, if_neg (not_lt.mpr hlen)]
  dsimp only
  rw [if_pos hmem]

theorem deliver_binary (hlen : 4 ≤ payload.length)
    (hmem : (contactPubkey, Bytes.toNatLE (payload.take 4)) ∉ h.responseWaiters) :
    h.deliver now pkt contactPubkey decrypted (some payload) =
      if isLoginReply (payload.drop 4) then (h, [])
      else
        h.onBinaryResponse now (payload.take 4) (payload.drop 4)
          (pathInfo pkt contactPubkey decrypted) := by
  rw [deliver, if_neg (not_lt.mpr hlen)]
  dsimp only
  rw [if_neg hmem]

/-- Where something waits for a response, it gets it exactly if a waiter waits for it or it neither
looks like a login reply nor answers a discovery. -/
theorem deliver_answers_iff (hlen : 4 ≤ payload.length)
    (hawaited : h.Pending now (.waiter contactPubkey (Bytes.toNatLE (payload.take 4))) ∨
      h.Pending now (.binary (payload.take 4))) (pkt : Packet) (decrypted : Bytes) :
    (∃ r, h.Pending now r ∧
        ∃ e ∈ (h.deliver now pkt contactPubkey decrypted (some payload)).2,
          h.Answers contactPubkey payload r e) ↔
      h.Pending now (.waiter contactPubkey (Bytes.toNatLE (payload.take 4))) ∨
        ¬ isLoginReply (payload.drop 4) ∧ ¬ h.AnswersDiscovery pkt payload := by
  by_cases hwaiter : h.Pending now (.waiter contactPubkey (Bytes.toNatLE (payload.take 4)))
  · refine iff_of_true ⟨_, hwaiter, _, ?_, rfl, rfl, rfl⟩ (Or.inl hwaiter)
    rw [deliver_waiter hlen hwaiter]
    exact List.mem_singleton_self _
  obtain ⟨info, hget, hfresh⟩ := hawaited.resolve_left hwaiter
  rw [deliver_binary hlen hwaiter]
  constructor
  · rintro ⟨r, hr, e, he, ha⟩
    refine Or.inr ?_
    cases r with
    | waiter key tag =>
      obtain ⟨rfl, rfl, -⟩ := ha
      exact absurd hr hwaiter
    | binary tag =>
      obtain ⟨-, _, -, rfl⟩ := ha
      split at he
      · exact absurd he List.not_mem_nil
      · rename_i hlogin
        refine ⟨hlogin, fun hdiscovery => ?_⟩
        obtain ⟨i, hi⟩ := onBinaryResponse_discovery hdiscovery (payload.drop 4)
        rw [hi] at he
        cases List.mem_singleton.mp he
  · intro hcond
    obtain ⟨hlogin, hdiscovery⟩ := hcond.resolve_left hwaiter
    refine ⟨.binary (payload.take 4), ⟨info, hget, hfresh⟩, _, ?_, rfl, info, hget, rfl⟩
    rw [if_neg hlogin, onBinaryResponse_request hdiscovery hget hfresh]
    exact List.mem_singleton_self _

theorem deliver_contacts (h : ProtocolResponses Seed) (contacts : ContactStore) (now : ℚ)
    (pkt : Packet) (contactPubkey decrypted : Bytes) (response : Option Bytes) :
    deliver { h with contacts := contacts } now pkt contactPubkey decrypted response =
      ({ (h.deliver now pkt contactPubkey decrypted response).1 with contacts := contacts },
        (h.deliver now pkt contactPubkey decrypted response).2) := by
  cases response with
  | none => rfl
  | some payload =>
    simp only [deliver, onBinaryResponse]
    split_ifs
    · rfl
    · rfl
    · rfl
    · cases (pathInfo pkt contactPubkey decrypted).filter fun _ =>
        Bytes.toNatLE (payload.take 4) ∈ h.pendingDiscoveryTags <;> rfl

theorem deliver_localIdentity (h : ProtocolResponses Seed) (now : ℚ) (pkt : Packet)
    (contactPubkey decrypted : Bytes) (response : Option Bytes) :
    (h.deliver now pkt contactPubkey decrypted response).1.localIdentity = h.localIdentity := by
  cases response with
  | none => rfl
  | some payload =>
    simp only [deliver, onBinaryResponse]
    split_ifs
    · rfl
    · rfl
    · rfl
    · cases (pathInfo pkt contactPubkey decrypted).filter fun _ =>
        Bytes.toNatLE (payload.take 4) ∈ h.pendingDiscoveryTags <;> rfl

theorem call_contacts (h : ProtocolResponses Seed) (now : ℚ) (noise : Bytes) (pkt : Packet) :
    (h.call c now noise pkt).1.contacts = h.contacts ∨
      ∃ contact secret decrypted response stored, pkt.getPayloadType = payloadTypePath ∧
        h.openResponse c pkt = some (contact, secret, decrypted, response) ∧
        h.contacts.getByKey contact.publicKey = some stored ∧
        (h.call c now noise pkt).1.contacts = (h.contacts.update { stored with
          outPathLen := (decrypted.headD 0).toNat, outPath := outPathOf decrypted }).2 := by
  unfold call
  cases hopen : h.openResponse c pkt with
  | none => exact Or.inl rfl
  | some opened =>
    obtain ⟨contact, secret, decrypted, response⟩ := opened
    simp only [learnPath]
    split
    · rename_i hpath
      unfold updateContactPath
      cases hstored : h.contacts.getByKey contact.publicKey with
      | none => exact Or.inl (congrArg (·.1.contacts) (deliver_contacts h h.contacts ..))
      | some stored =>
        refine Or.inr ⟨contact, secret, decrypted, response, stored, hpath, rfl, hstored, ?_⟩
        exact congrArg (·.1.contacts) (deliver_contacts h _ ..)
    · exact Or.inl (congrArg (·.1.contacts) (deliver_contacts h h.contacts ..))

theorem call_localIdentity (h : ProtocolResponses Seed) (now : ℚ) (noise : Bytes) (pkt : Packet) :
    (h.call c now noise pkt).1.localIdentity = h.localIdentity := by
  unfold call
  split
  · rfl
  · rename_i contact secret decrypted payload _
    obtain ⟨contacts, events, hlearn, -⟩ := learnPath_spec (c := c) h pkt contact secret
      decrypted noise
    rw [hlearn]
    exact deliver_localIdentity ..

theorem call_of_open {contact : Contact} {secret : Bytes} {response : Option Bytes}
    (hopen : h.openResponse c pkt = some (contact, secret, decrypted, response)) (now : ℚ)
    (noise : Bytes) :
    ∃ contacts learned, (∀ e ∈ learned, ofPath e = true) ∧ h.call c now noise pkt =
      ({ (h.deliver now pkt contact.publicKey decrypted response).1 with contacts := contacts },
        learned ++ (h.deliver now pkt contact.publicKey decrypted response).2, true) := by
  obtain ⟨contacts, learned, hlearn, hpath⟩ := learnPath_spec (c := c) h pkt contact secret
    decrypted noise
  refine ⟨contacts, learned, hpath, ?_⟩
  rw [call, hopen]
  dsimp only
  rw [hlearn]
  dsimp only
  rw [deliver_contacts]

/-- A response that is awaited is given to the request it completes, and no packet completes that
request again, exactly if a waiter waits for the response or it neither looks like a login reply
nor answers a discovery. -/
theorem awaited_iff {contact : Contact} {secret : Bytes}
    (hopen : h.openResponse c pkt = some (contact, secret, decrypted, some payload))
    (hlen : 4 ≤ payload.length)
    (hawaited : h.Pending now (.waiter contact.publicKey (Bytes.toNatLE (payload.take 4))) ∨
      h.Pending now (.binary (payload.take 4))) (noise : Bytes) :
    (∃ r, h.Pending now r ∧
        (∃ e ∈ (h.call c now noise pkt).2.1, h.Answers contact.publicKey payload r e) ∧
        ∀ arrivals, r ∉ ((h.call c now noise pkt).1.run c arrivals).2.filterMap completes) ↔
      h.Pending now (.waiter contact.publicKey (Bytes.toNatLE (payload.take 4))) ∨
        ¬ isLoginReply (payload.drop 4) ∧ ¬ h.AnswersDiscovery pkt payload := by
  obtain ⟨_, learned, hlearned, hcall⟩ := call_of_open hopen now noise
  have hevents : (h.call c now noise pkt).2.1 =
      learned ++ (h.deliver now pkt contact.publicKey decrypted (some payload)).2 := by
    rw [hcall]
  rw [← deliver_answers_iff hlen hawaited pkt decrypted]
  constructor
  · rintro ⟨r, hr, ⟨e, he, ha⟩, -⟩
    rw [hevents] at he
    refine ⟨r, hr, e, (List.mem_append.mp he).resolve_left fun hl => ?_, ha⟩
    have hnone := ha.completes_eq.symm.trans (completes_of_ofPath (hlearned e hl))
    cases hnone
  · rintro ⟨r, hr, e, he, ha⟩
    have hmem : e ∈ (h.call c now noise pkt).2.1 := by
      rw [hevents]
      exact List.mem_append_right _ he
    exact ⟨r, hr, ⟨e, hmem, ha⟩, not_completed_again h now noise pkt
      (List.mem_filterMap.mpr ⟨e, hmem, ha.completes_eq⟩)⟩

end

/-- A node that waits for the response with tag 04030201 of its only contact. -/
def requester : ProtocolResponses Bytes :=
  { localIdentity := [0xB0]
    cls := { isSpace := fun ch => ch = ' ', isPrintable := fun _ => true }
    contacts := (ContactStore.add {} { publicKey := xorCrypto.publicKey [0xA0] }).2
    pendingBinaryRequests := Dict.empty.set [1, 2, 3, 4] { requestType := 5, expiresAt := 100 } }

/-- The contact's path return over one hop, with the tag and some data as response. -/
def pathReply (data : Bytes) : Packet :=
  let secret := xorBytes (xorCrypto.privateKey [0xA0]) (xorCrypto.publicKey [0xB0])
  let body := xorCrypto.encryptThenMac (secret.take 16) secret
    (0x01 :: 0x55 :: 0x01 :: [1, 2, 3, 4] ++ data)
  { header := 0x22, payload := 0xB0 :: 0xA0 :: body, payloadLen := 2 + body.length }

theorem pending_requester : requester.Pending 0 (.binary [1, 2, 3, 4]) :=
  ⟨{ requestType := 5, expiresAt := 100 }, rfl, by decide⟩

/-- A response whose data begins with seven completes the request. -/
theorem awaited_iff_pathReply :
    ∃ r, requester.Pending 0 r ∧
      (∃ e ∈ (requester.call xorCrypto 0 [] (pathReply [7, 9])).2.1,
        requester.Answers (xorCrypto.publicKey [0xA0]) ([1, 2, 3, 4, 7, 9] ++ List.replicate 7 0)
          r e) ∧
      ∀ arrivals, r ∉ ((requester.call xorCrypto 0 [] (pathReply [7, 9])).1.run xorCrypto
        arrivals).2.filterMap completes := by
  have hopen : requester.openResponse xorCrypto (pathReply [7, 9]) =
      some ({ publicKey := xorCrypto.publicKey [0xA0] }, 0x10 :: List.replicate 31 0,
        [0x01, 0x55, 0x01, 1, 2, 3, 4, 7, 9] ++ List.replicate 7 0,
        some ([1, 2, 3, 4, 7, 9] ++ List.replicate 7 0)) := by
    decide +kernel
  refine (awaited_iff hopen (by decide) (Or.inr pending_requester) []).mpr (Or.inr ⟨by decide, ?_⟩)
  exact fun hdiscovery => Finset.notMem_empty _ hdiscovery.2

/-- One that begins with zero is padded to the length of a login reply and completes nothing. -/
theorem awaited_swallowed :
    requester.Pending 0 (.binary [1, 2, 3, 4]) ∧
      (requester.openResponse xorCrypto (pathReply [0, 9])).map (·.2.2.2) =
        some (some ([1, 2, 3, 4, 0, 9] ++ List.replicate 7 0)) ∧
      (requester.call xorCrypto 0 [] (pathReply [0, 9])).2.1.filterMap completes = [] :=
  ⟨pending_requester, by decide +kernel, by decide +kernel⟩

end ProtocolResponses

end OpenHop
