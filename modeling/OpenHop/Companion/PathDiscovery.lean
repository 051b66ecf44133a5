import OpenHop.Companion.ChannelSend
import OpenHop.Machine.Runs
import OpenHop.Node.ProtocolResponse
import OpenHop.Protocol.RequestPacket

/-! # Path discovery

A discovery floods a request and waits for the path return with its tag. The request is on
its way as soon as the send begins, the tag is entered into the table when the send has come
back, and packets are received in between.
-/

namespace OpenHop

/-- What happens to the discoveries, in order. -/
inductive DiscoveryEvent where
  | handed (tag : ℕ)
  | sent (tag : ℕ)
  | failed (tag : ℕ)
  | response (e : ResponseEvent)
  deriving DecidableEq

/-- The tables of the responses, the clock of the tags, the discoveries that wait for their send
and what has happened. -/
structure DiscoveryNode (Seed : Type) where
  responses : ProtocolResponses Seed
  config : SendConfig := {}
  lastUniqueTimestamp : ℕ := 0
  sending : Finset ℕ := ∅
  trace : List DiscoveryEvent := []

/-- The tasks of a companion, each from one suspension to the next. -/
inductive DiscoveryAction where
  | sendPathDiscoveryReq (pubKey : Bytes) (clock random : ℕ)
  | sendReturns (tag : ℕ) (success : Bool)
  | sendRaises (tag : ℕ)
  | receive (now : ℚ) (noise : Bytes) (pkt : Packet)
  | setResponseCallback (pubKey : Bytes) (clock : ℕ)
  | clearResponseCallback (pubKey : Bytes) (tag : ℕ)
  | setBinaryRequests (requests : Dict Bytes BinaryRequest)
  | setContacts (contacts : ContactStore)
  | takeTimestamp (clock : ℕ)

namespace DiscoveryNode

variable {Seed : Type} (c : Crypto Seed)

/-- `REQ_TYPE_GET_TELEMETRY_DATA` -/
def reqTypeGetTelemetryData : ℕ := 0x03

/-- `TELEM_PERM_BASE` -/
def telemPermBase : UInt8 := 0x01

def getTimestamp (n : DiscoveryNode Seed) (clock : ℕ) : ℕ :=
  if clock ≤ n.lastUniqueTimestamp then n.lastUniqueTimestamp + 1 else clock

def discoveryRequest (n : DiscoveryNode Seed) (contact : Contact) (tag random : ℕ) :
    Except PacketError Packet := do
  let invPerm : UInt8 := 0xFF &&& ~~~ telemPermBase
  let (draft, _) ← PacketBuilder.createProtocolRequest c contact n.responses.localIdentity
    reqTypeGetTelemetryData ([invPerm, 0, 0, 0] ++ Bytes.le 4 random) tag (some .flood)
  let pkt ← n.config.applyFloodScope c draft.packet
  n.config.applyPathHashMode pkt

def sendPathDiscoveryReq (n : DiscoveryNode Seed) (pubKey : Bytes) (clock random : ℕ) :
    DiscoveryNode Seed :=
  match n.responses.contacts.getByKey pubKey with
  | none => n
  | some contact =>
    let tag := n.getTimestamp clock
    match n.discoveryRequest c contact tag random with
    | .error _ => { n with lastUniqueTimestamp := tag }
    | .ok _ =>
      { n with
        lastUniqueTimestamp := tag
        sending := insert tag n.sending
        trace := n.trace ++ [.handed tag] }

/-- The send of a discovery has come back, and the tag is pending if it went well. -/
def sendReturns (n : DiscoveryNode Seed) (tag : ℕ) (success : Bool) : DiscoveryNode Seed :=
  if success then
    { n with
      responses := { n.responses with
        pendingDiscoveryTags := insert tag n.responses.pendingDiscoveryTags }
      sending := n.sending.erase tag
      trace := n.trace ++ [.sent tag] }
  else { n with sending := n.sending.erase tag, trace := n.trace ++ [.failed tag] }

def step (n : DiscoveryNode Seed) : DiscoveryAction → Option (DiscoveryNode Seed)
  | .sendPathDiscoveryReq pubKey clock random => some (n.sendPathDiscoveryReq c pubKey clock random)
  | .sendReturns tag success => if tag ∈ n.sending then some (n.sendReturns tag success) else none
  | .sendRaises tag => if tag ∈ n.sending then some (n.sendReturns tag false) else none
  | .receive now noise pkt =>
    let (responses, events, _) := n.responses.call c now noise pkt
    some { n with responses := responses, trace := n.trace ++ events.map .response }
  | .setResponseCallback pubKey clock =>
    let tag := n.getTimestamp clock
    -- a request whose tag takes more than four bytes cannot be built
    some { n with
      lastUniqueTimestamp := tag
      responses := { n.responses with
        responseWaiters :=
          if tag < 2 ^ 32 then insert (pubKey, tag) n.responses.responseWaiters
          else n.responses.responseWaiters } }
  | .clearResponseCallback pubKey tag =>
    some { n with
      responses := { n.responses with
        responseWaiters := n.responses.responseWaiters.erase (pubKey, tag) } }
  | .setBinaryRequests requests =>
    some { n with responses := { n.responses with pendingBinaryRequests := requests } }
  | .setContacts contacts => some { n with responses := { n.responses with contacts := contacts } }
  | .takeTimestamp clock => some { n with lastUniqueTimestamp := n.getTimestamp clock }

/-- No request has been made yet. -/
def Started (n : DiscoveryNode Seed) : Prop :=
  n.sending = ∅ ∧ n.trace = [] ∧ n.responses.pendingDiscoveryTags = ∅ ∧
    n.responses.responseWaiters = ∅

/-- The tag that an event reports as discovered. -/
def discoveredTag : ResponseEvent → Option ℕ
  | .pathDiscovery tag _ => some (Bytes.toNatLE tag)
  | _ => none

/-- The tags reported as discovered so far. -/
def discovered (trace : List DiscoveryEvent) : List ℕ :=
  trace.filterMap fun
    | .response e => discoveredTag e
    | _ => none

theorem discovered_append (trace events : List DiscoveryEvent) :
    discovered (trace ++ events) = discovered trace ++ discovered events :=
  List.filterMap_append

theorem discovered_map (events : List ResponseEvent) :
    discovered (events.map .response) = events.filterMap discoveredTag :=
  List.filterMap_map

theorem lt_getTimestamp (n : DiscoveryNode Seed) (clock : ℕ) :
    n.lastUniqueTimestamp < n.getTimestamp clock := by
  unfold getTimestamp
  split <;> omega

end DiscoveryNode

namespace ProtocolResponses

open DiscoveryNode

variable {Seed : Type} {c : Crypto Seed} {h : ProtocolResponses Seed} {now : ℚ} {noise : Bytes}
  {pkt : Packet} {contactPubkey decrypted payload : Bytes}

/-- A packet reports at most one discovery, and that one no longer waits. -/
inductive Discovers (h h' : ProtocolResponses Seed) (events : List ResponseEvent) : Prop where
  | none (hevents : events.filterMap discoveredTag = [])
    (htags : h'.pendingDiscoveryTags = h.pendingDiscoveryTags)
  | one {tag : ℕ} (hpending : tag ∈ h.pendingDiscoveryTags)
    (hevents : events.filterMap discoveredTag = [tag])
    (htags : h'.pendingDiscoveryTags = h.pendingDiscoveryTags.erase tag)

theorem onBinaryResponse_discovers (h : ProtocolResponses Seed) (now : ℚ) (tag data : Bytes)
    (info : Option PathInfo) :
    Discovers h (h.onBinaryResponse now tag data info).1
      (h.onBinaryResponse now tag data info).2 := by
  unfold onBinaryResponse
  split
  · rename_i info hinfo
    obtain ⟨-, hmem⟩ := Option.filter_eq_some_iff.mp hinfo
    exact .one (of_decide_eq_true hmem) rfl rfl
  · exact .none rfl rfl

theorem deliver_discovers (h : ProtocolResponses Seed) (now : ℚ) (pkt : Packet)
    (contactPubkey decrypted : Bytes) (response : Option Bytes) :
    Discovers h (h.deliver now pkt contactPubkey decrypted response).1
      (h.deliver now pkt contactPubkey decrypted response).2 := by
  cases response with
  | none => exact .none rfl rfl
  | some payload =>
    simp only [deliver]
    split
    · exact .none rfl rfl
    split
    · exact .none rfl rfl
    split
    · exact .none rfl rfl
    · exact onBinaryResponse_discovers ..

theorem discoveredTag_of_ofPath {e : ResponseEvent} (he : ofPath e = true) :
    discoveredTag e = none := by
  cases e with
  | contactPathUpdated contact => rfl
  | reciprocal packet => rfl
  | waiter contactPubkey tag response => cases he
  | pathDiscovery tag info => cases he
  | binaryResponse tag data requestType => cases he

theorem call_discovers (h : ProtocolResponses Seed) (now : ℚ) (noise : Bytes) (pkt : Packet) :
    Discovers h (h.call c now noise pkt).1 (h.call c now noise pkt).2.1 := by
  cases hopen : h.openResponse c pkt with
  | none =>
    rw [call, hopen]
    exact .none rfl rfl
  | some opened =>
    obtain ⟨contact, secret, decrypted, response⟩ := opened
    obtain ⟨contacts, learned, hlearned, hcall⟩ := call_of_open hopen now noise
    have hquiet : learned.filterMap discoveredTag = [] :=
      List.filterMap_eq_nil_iff.mpr fun e he => discoveredTag_of_ofPath (hlearned e he)
    rw [hcall]
    cases deliver_discovers h now pkt contact.publicKey decrypted response with
    | none hevents htags =>
      refine .none ?_ htags
      rw [List.filterMap_append, hquiet, hevents, List.nil_append]
    | one hpending hevents htags =>
      refine .one hpending ?_ htags
      rw [List.filterMap_append, hquiet, hevents, List.nil_append]

/-- A response with the tag of a discovery is reported as its answer exactly if the tag is pending,
nothing waits for the response of this contact and it does not look like a login reply. -/
theorem discovered_call_iff {contact : Contact} {secret : Bytes}
    (hopen : h.openResponse c pkt = some (contact, secret, decrypted, some payload))
    (hpath : pkt.getPayloadType = payloadTypePath) (hlen : 4 ≤ payload.length) (now : ℚ)
    (noise : Bytes) :
    ((h.call c now noise pkt).2.1.filterMap discoveredTag = [Bytes.toNatLE (payload.take 4)] ∧
        ∀ tag data, .binaryResponse tag data none ∉ (h.call c now noise pkt).2.1) ↔
      Bytes.toNatLE (payload.take 4) ∈ h.pendingDiscoveryTags ∧
        (contact.publicKey, Bytes.toNatLE (payload.take 4)) ∉ h.responseWaiters ∧
        ¬ isLoginReply (payload.drop 4) := by
  obtain ⟨contacts, learned, hlearned, hcall⟩ := call_of_open hopen now noise
  have hquiet : learned.filterMap discoveredTag = [] :=
    List.filterMap_eq_nil_iff.mpr fun e he => discoveredTag_of_ofPath (hlearned e he)
  have hevents : (h.call c now noise pkt).2.1 =
      learned ++ (h.deliver now pkt contact.publicKey decrypted (some payload)).2 := by
    rw [hcall]
  rw [hevents, List.filterMap_append, hquiet, List.nil_append]
  by_cases hwaiter : (contact.publicKey, Bytes.toNatLE (payload.take 4)) ∈ h.responseWaiters
  · rw [deliver_waiter hlen hwaiter]
    exact iff_of_false (fun hd => by cases hd.1) fun hd => hd.2.1 hwaiter
  rw [deliver_binary hlen hwaiter]
  by_cases hlogin : isLoginReply (payload.drop 4) = true
  · rw [if_pos hlogin]
    exact iff_of_false (fun hd => by cases hd.1) fun hd => hd.2.2 hlogin
  rw [if_neg hlogin]
  by_cases hdiscovery : h.AnswersDiscovery pkt payload
  · obtain ⟨info, hinfo⟩ : ∃ info, (h.onBinaryResponse now (payload.take 4) (payload.drop 4)
        (pathInfo pkt contact.publicKey decrypted)).2 = [.pathDiscovery (payload.take 4) info] :=
      onBinaryResponse_discovery hdiscovery (payload.drop 4)
    rw [hinfo]
    refine iff_of_true ⟨rfl, fun tag data hmem => ?_⟩ ⟨hdiscovery.2, hwaiter, hlogin⟩
    rcases List.mem_append.mp hmem with hmem | hmem
    · cases hlearned _ hmem
    · cases List.mem_singleton.mp hmem
  · rw [onBinaryResponse_of_not_discovery hdiscovery]
    exact iff_of_false (fun hd => by cases hd.1) fun hd => hdiscovery ⟨hpath, hd.1⟩

end ProtocolResponses

namespace DiscoveryNode

variable {Seed : Type} {c : Crypto Seed} {n n' : DiscoveryNode Seed}

/-- What a task can do to the discoveries. -/
inductive Moves (n n' : DiscoveryNode Seed) : Prop where
  | quiet (hlast : n.lastUniqueTimestamp ≤ n'.lastUniqueTimestamp)
    (hsending : n'.sending = n.sending) (htrace : n'.trace = n.trace)
    (htags : n'.responses.pendingDiscoveryTags = n.responses.pendingDiscoveryTags)
    (hwaiters : ∀ key tag, (key, tag) ∈ n'.responses.responseWaiters →
      (key, tag) ∈ n.responses.responseWaiters ∨
        n.lastUniqueTimestamp < tag ∧ tag ≤ n'.lastUniqueTimestamp)
  | handed {tag : ℕ} (hlast : n.lastUniqueTimestamp < tag)
    (heq : n' = { n with
      lastUniqueTimestamp := tag
      sending := insert tag n.sending
      trace := n.trace ++ [.handed tag] })
  | returned {tag : ℕ} {success : Bool} (hsending : tag ∈ n.sending)
    (heq : n' = n.sendReturns tag success)
  | received {h : ProtocolResponses Seed} {events : List ResponseEvent}
    (hdiscovers : n.responses.Discovers h events)
    (hwaiters : h.responseWaiters ⊆ n.responses.responseWaiters)
    (heq : n' = { n with responses := h, trace := n.trace ++ events.map .response })

theorem moves_of_step {a : DiscoveryAction} (h : n.step c a = some n') : n.Moves n' := by
  cases a with
  | sendPathDiscoveryReq pubKey clock random =>
    cases h
    have hlt := n.lt_getTimestamp clock
    unfold sendPathDiscoveryReq
    split
    · exact .quiet le_rfl rfl rfl rfl fun key tag hmem => Or.inl hmem
    dsimp only
    split
    · exact .quiet hlt.le rfl rfl rfl fun key tag hmem => Or.inl hmem
    · exact .handed hlt rfl
  | sendReturns tag success =>
    simp only [step, Option.ite_none_right_eq_some] at h
    obtain ⟨hmem, heq⟩ := h
    exact .returned hmem (Option.some.inj heq).symm
  | sendRaises tag =>
    simp only [step, Option.ite_none_right_eq_some] at h
    obtain ⟨hmem, heq⟩ := h
    exact .returned hmem (Option.some.inj heq).symm
  | receive now noise pkt =>
    cases h
    refine .received (n.responses.call_discovers now noise pkt) (fun waiter hmem => ?_) rfl
    exact (n.responses.call_takes now noise pkt).registered (.waiter waiter.1 waiter.2) hmem
  | setResponseCallback pubKey clock =>
    cases h
    refine .quiet (n.lt_getTimestamp clock).le rfl rfl rfl fun key tag hmem => ?_
    dsimp only at hmem
    split at hmem
    · rcases Finset.mem_insert.mp hmem with heq | hmem
      · cases heq
        exact Or.inr ⟨n.lt_getTimestamp clock, le_rfl⟩
      · exact Or.inl hmem
    · exact Or.inl hmem
  | clearResponseCallback pubKey tag =>
    cases h
    exact .quiet le_rfl rfl rfl rfl fun key tag hmem => Or.inl (Finset.mem_of_mem_erase hmem)
  | setBinaryRequests requests =>
    cases h
    exact .quiet le_rfl rfl rfl rfl fun key tag hmem => Or.inl hmem
  | setContacts contacts =>
    cases h
    exact .quiet le_rfl rfl rfl rfl fun key tag hmem => Or.inl hmem
  | takeTimestamp clock =>
    cases h
    exact .quiet (n.lt_getTimestamp clock).le rfl rfl rfl fun key tag hmem => Or.inl hmem

/-- A tag is used once, and pending from the return of its send to its answer. -/
structure Consistent (n : DiscoveryNode Seed) : Prop where
  handed_le : ∀ tag, .handed tag ∈ n.trace → tag ≤ n.lastUniqueTimestamp
  sending : ∀ tag ∈ n.sending, .handed tag ∈ n.trace ∧ .sent tag ∉ n.trace ∧ .failed tag ∉ n.trace
  settled : ∀ tag, .sent tag ∈ n.trace ∨ .failed tag ∈ n.trace → .handed tag ∈ n.trace
  failed : ∀ tag, .failed tag ∈ n.trace → .sent tag ∉ n.trace
  waiters : ∀ key tag, (key, tag) ∈ n.responses.responseWaiters →
    tag ≤ n.lastUniqueTimestamp ∧ .handed tag ∉ n.trace
  pending : ∀ tag, tag ∈ n.responses.pendingDiscoveryTags ↔
    .sent tag ∈ n.trace ∧ tag ∉ discovered n.trace
  answered : ∀ tag ∈ discovered n.trace, .sent tag ∈ n.trace
  once : (discovered n.trace).Nodup

theorem Started.consistent (h : n.Started) : n.Consistent := by
  obtain ⟨hsending, htrace, htags, hwaiters⟩ := h
  refine ⟨?_, ?_, ?_, ?_, ?_, ?_, ?_, ?_⟩ <;>
    simp [hsending, htrace, htags, hwaiters, discovered]

theorem Consistent.quiet (hn : n.Consistent)
    (hlast : n.lastUniqueTimestamp ≤ n'.lastUniqueTimestamp) (hsending : n'.sending = n.sending)
    (htrace : n'.trace = n.trace)
    (htags : n'.responses.pendingDiscoveryTags = n.responses.pendingDiscoveryTags)
    (hwaiters : ∀ key tag, (key, tag) ∈ n'.responses.responseWaiters →
      (key, tag) ∈ n.responses.responseWaiters ∨
        n.lastUniqueTimestamp < tag ∧ tag ≤ n'.lastUniqueTimestamp) : n'.Consistent := by
  have hfresh : ∀ key tag, (key, tag) ∈ n'.responses.responseWaiters →
      tag ≤ n'.lastUniqueTimestamp ∧ .handed tag ∉ n.trace := by
    intro key tag hmem
    rcases hwaiters key tag hmem with hmem | ⟨hlt, hle⟩
    · obtain ⟨hle, hnot⟩ := hn.waiters key tag hmem
      exact ⟨hle.trans hlast, hnot⟩
    · exact ⟨hle, fun hhanded => absurd (hn.handed_le tag hhanded) (not_le.mpr hlt)⟩
  obtain ⟨hhanded, hsend, hsettled, hfailed, -, hpending, hanswered, honce⟩ := hn
  constructor
  · rw [htrace]
    exact fun tag hmem => (hhanded tag hmem).trans hlast
  · rwa [htrace, hsending]
  · rwa [htrace]
  · rwa [htrace]
  · rwa [htrace]
  · rwa [htrace, htags]
  · rwa [htrace]
  · rwa [htrace]

theorem Consistent.handed (hn : n.Consistent) {tag : ℕ} (hlast : n.lastUniqueTimestamp < tag) :
    Consistent { n with
      lastUniqueTimestamp := tag
      sending := insert tag n.sending
      trace := n.trace ++ [.handed tag] } := by
  have hnew : .handed tag ∉ n.trace := fun hmem => absurd (hn.handed_le tag hmem) (not_le.mpr hlast)
  have hdiscovered : discovered (n.trace ++ [.handed tag]) = discovered n.trace := by
    simp [discovered]
  constructor <;> simp only [List.mem_append, List.mem_singleton, DiscoveryEvent.handed.injEq,
    reduceCtorEq, or_false, hdiscovered]
  · rintro t (hmem | rfl)
    · exact (hn.handed_le t hmem).trans hlast.le
    · exact le_rfl
  · intro t hmem
    rcases Finset.mem_insert.mp hmem with rfl | hmem
    · exact ⟨Or.inr rfl, fun h => hnew (hn.settled t (Or.inl h)),
        fun h => hnew (hn.settled t (Or.inr h))⟩
    · obtain ⟨hhanded, hnot⟩ := hn.sending t hmem
      exact ⟨Or.inl hhanded, hnot⟩
  · exact fun t hmem => Or.inl (hn.settled t hmem)
  · exact hn.failed
  · intro key t hmem
    obtain ⟨hle, hnot⟩ := hn.waiters key t hmem
    refine ⟨hle.trans hlast.le, ?_⟩
    rintro (hmem | rfl)
    · exact hnot hmem
    · omega
  · exact hn.pending
  · exact hn.answered
  · exact hn.once

theorem Consistent.sent (hn : n.Consistent) {tag : ℕ} (hsending : tag ∈ n.sending) :
    Consistent (n.sendReturns tag true) := by
  obtain ⟨htag, hunsent, hunfailed⟩ := hn.sending tag hsending
  have hunanswered : tag ∉ discovered n.trace := fun hmem => hunsent (hn.answered tag hmem)
  have hdiscovered : discovered (n.trace ++ [.sent tag]) = discovered n.trace := by
    simp [discovered]
  rw [sendReturns, if_pos rfl]
  constructor <;> simp only [List.mem_append, List.mem_singleton, DiscoveryEvent.sent.injEq,
    reduceCtorEq, or_false, hdiscovered]
  · exact hn.handed_le
  · intro t hmem
    obtain ⟨hne, hmem⟩ := Finset.mem_erase.mp hmem
    obtain ⟨hhanded, hsent, hfailed⟩ := hn.sending t hmem
    exact ⟨hhanded, not_or.mpr ⟨hsent, hne⟩, hfailed⟩
  · rintro t ((hmem | rfl) | hmem)
    · exact hn.settled t (Or.inl hmem)
    · exact htag
    · exact hn.settled t (Or.inr hmem)
  · rintro t hmem (hsent | rfl)
    · exact hn.failed t hmem hsent
    · exact hunfailed hmem
  · exact hn.waiters
  · intro t
    rw [Finset.mem_insert, hn.pending]
    constructor
    · rintro (rfl | ⟨hsent, hnot⟩)
      · exact ⟨Or.inr rfl, hunanswered⟩
      · exact ⟨Or.inl hsent, hnot⟩
    · rintro ⟨hsent | rfl, hnot⟩
      · exact Or.inr ⟨hsent, hnot⟩
      · exact Or.inl rfl
  · exact fun t hmem => Or.inl (hn.answered t hmem)
  · exact hn.once

theorem Consistent.failedSend (hn : n.Consistent) {tag : ℕ} (hsending : tag ∈ n.sending) :
    Consistent (n.sendReturns tag false) := by
  obtain ⟨htag, hunsent, -⟩ := hn.sending tag hsending
  have hdiscovered : discovered (n.trace ++ [.failed tag]) = discovered n.trace := by
    simp [discovered]
  rw [sendReturns, if_neg Bool.false_ne_true]
  constructor <;> simp only [List.mem_append, List.mem_singleton, DiscoveryEvent.failed.injEq,
    reduceCtorEq, or_false, hdiscovered]
  · exact hn.handed_le
  · intro t hmem
    obtain ⟨hne, hmem⟩ := Finset.mem_erase.mp hmem
    obtain ⟨hhanded, hsent, hfailed⟩ := hn.sending t hmem
    exact ⟨hhanded, hsent, not_or.mpr ⟨hfailed, hne⟩⟩
  · rintro t (hmem | hmem | rfl)
    · exact hn.settled t (Or.inl hmem)
    · exact hn.settled t (Or.inr hmem)
    · exact htag
  · rintro t (hmem | rfl)
    · exact hn.failed t hmem
    · exact hunsent
  · exact hn.waiters
  · exact hn.pending
  · exact hn.answered
  · exact hn.once

theorem Consistent.received (hn : n.Consistent) {h : ProtocolResponses Seed}
    {events : List ResponseEvent} (hdiscovers : n.responses.Discovers h events)
    (hwaiters : h.responseWaiters ⊆ n.responses.responseWaiters) :
    Consistent { n with responses := h, trace := n.trace ++ events.map .response } := by
  have hdiscovered : discovered (n.trace ++ events.map .response) =
      discovered n.trace ++ events.filterMap discoveredTag := by
    rw [discovered_append, discovered_map]
  have hstill : ∀ {e : DiscoveryEvent}, (∀ r, e ≠ .response r) →
      (e ∈ n.trace ++ events.map .response ↔ e ∈ n.trace) := by
    intro e he
    rw [List.mem_append, or_iff_left]
    rintro hmem
    obtain ⟨r, -, rfl⟩ := List.mem_map.mp hmem
    exact he r rfl
  have hanswered : (∀ t, t ∈ h.pendingDiscoveryTags ↔
        .sent t ∈ n.trace ∧ t ∉ discovered n.trace ++ events.filterMap discoveredTag) ∧
      (∀ t ∈ discovered n.trace ++ events.filterMap discoveredTag, .sent t ∈ n.trace) ∧
      (discovered n.trace ++ events.filterMap discoveredTag).Nodup := by
    cases hdiscovers with
    | none hevents htags =>
      rw [hevents, htags, List.append_nil]
      exact ⟨hn.pending, hn.answered, hn.once⟩
    | @one tag hpending hevents htags =>
      obtain ⟨hsent, hnot⟩ := (hn.pending tag).mp hpending
      rw [hevents, htags]
      refine ⟨fun t => ?_, fun t hmem => ?_, ?_⟩
      · rw [Finset.mem_erase, hn.pending, List.mem_append, List.mem_singleton, not_or]
        tauto
      · rcases List.mem_append.mp hmem with hmem | hmem
        · exact hn.answered t hmem
        · rwa [List.mem_singleton.mp hmem]
      · exact hn.once.append (List.nodup_singleton tag) (List.disjoint_singleton.mpr hnot)
  constructor <;> simp only [hstill, ne_eq, reduceCtorEq, not_false_eq_true, implies_true,
    hdiscovered]
  · exact hn.handed_le
  · exact hn.sending
  · exact hn.settled
  · exact hn.failed
  · exact fun key t hmem => hn.waiters key t (hwaiters hmem)
  · exact hanswered.1
  · exact hanswered.2.1
  · exact hanswered.2.2

theorem Consistent.step (hn : n.Consistent) (h : n.Moves n') : n'.Consistent := by
  cases h with
  | quiet hlast hsending htrace htags hwaiters =>
    exact hn.quiet hlast hsending htrace htags hwaiters
  | handed hlast heq => exact heq ▸ hn.handed hlast
  | @returned tag success hsending heq =>
    subst heq
    cases success with
    | true => exact hn.sent hsending
    | false => exact hn.failedSend hsending
  | received hdiscovers hwaiters heq => exact heq ▸ hn.received hdiscovers hwaiters

theorem Started.consistent_run {start : DiscoveryNode Seed} {as : List DiscoveryAction}
    (hstart : start.Started) (hrun : Machine.run (step c) start as = some n) : n.Consistent :=
  Machine.run_invariant (fun _ _ _ hn hstep => hn.step (moves_of_step hstep)) hstart.consistent hrun

/-- A path return with the tag of a request is reported as its answer exactly if the send has come
back, the answer was not there before and the response does not look like a login reply. -/
theorem discovery_answered_iff {start : DiscoveryNode Seed} {as : List DiscoveryAction}
    (hstart : start.Started) (hrun : Machine.run (step c) start as = some n) :
    (∀ {pkt : Packet} {contact : Contact} {secret decrypted payload : Bytes},
      n.responses.openResponse c pkt = some (contact, secret, decrypted, some payload) →
      pkt.getPayloadType = payloadTypePath → 4 ≤ payload.length →
      .handed (Bytes.toNatLE (payload.take 4)) ∈ n.trace → ∀ now noise,
        ((n.responses.call c now noise pkt).2.1.filterMap discoveredTag =
              [Bytes.toNatLE (payload.take 4)] ∧
            ∀ tag data, .binaryResponse tag data none ∉
              (n.responses.call c now noise pkt).2.1) ↔
          .sent (Bytes.toNatLE (payload.take 4)) ∈ n.trace ∧
            Bytes.toNatLE (payload.take 4) ∉ discovered n.trace ∧
            ¬ isLoginReply (payload.drop 4)) ∧
      (∀ tag, tag ∈ n.responses.pendingDiscoveryTags ↔
        .sent tag ∈ n.trace ∧ tag ∉ discovered n.trace) ∧
      (∀ tag, .failed tag ∈ n.trace → .sent tag ∉ n.trace) ∧
      (discovered n.trace).Nodup := by
  have hn := hstart.consistent_run hrun
  refine ⟨?_, hn.pending, hn.failed, hn.once⟩
  intro pkt contact secret decrypted payload hopen hpath hlen hhanded now noise
  rw [ProtocolResponses.discovered_call_iff hopen hpath hlen, hn.pending, and_assoc]
  have hwaiter : (contact.publicKey, Bytes.toNatLE (payload.take 4)) ∉
      n.responses.responseWaiters := fun hmem => (hn.waiters _ _ hmem).2 hhanded
  exact and_congr_right fun _ => and_congr_right fun _ => and_iff_right hwaiter

open ProtocolResponses (requester pathReply)

/-- A node with one contact, before it has asked for anything. -/
def discoverer : DiscoveryNode Bytes :=
  { responses := { requester with pendingBinaryRequests := Dict.empty } }

/-- The request for the contact, in the second that is the tag of `pathReply`. -/
def discover : DiscoveryAction :=
  .sendPathDiscoveryReq (xorCrypto.publicKey [0xA0]) 0x04030201 0

/-- A response during the send goes to the requests, none of which waits for it; one that begins
with a one is lost at this length. -/
theorem discovery_missed :
    (Machine.run (step xorCrypto) discoverer
        [discover, .receive 0 [] (pathReply [7, 9]), .sendReturns 0x04030201 true]).map
          (fun n => (n.trace.contains
            (.response (.binaryResponse [1, 2, 3, 4] ([7, 9] ++ List.replicate 7 0) none)),
            discovered n.trace, n.responses.pendingDiscoveryTags)) =
        some (true, [], {0x04030201}) ∧
      (Machine.run (step xorCrypto) discoverer
        [discover, .sendReturns 0x04030201 true, .receive 0 [] (pathReply [1, 9])]).map
          (fun n => (discovered n.trace, n.responses.pendingDiscoveryTags)) =
        some ([], {0x04030201}) := by
  decide +kernel

/-- The node when the send of its request has come back. -/
def discoverySent : DiscoveryNode Bytes :=
  { discoverer with
    responses := { discoverer.responses with pendingDiscoveryTags := {0x04030201} }
    lastUniqueTimestamp := 0x04030201
    trace := [.handed 0x04030201, .sent 0x04030201] }

/-- A response after the send is the answer. -/
theorem discovery_answered_iff_pathReply :
    (discoverySent.responses.call xorCrypto 0 [] (pathReply [7, 9])).2.1.filterMap discoveredTag =
      [0x04030201] := by
  have hstart : discoverer.Started := ⟨rfl, rfl, rfl, rfl⟩
  have hrun : Machine.run (step xorCrypto) discoverer [discover, .sendReturns 0x04030201 true] =
      some discoverySent := rfl
  have hopen : discoverySent.responses.openResponse xorCrypto (pathReply [7, 9]) =
      some ({ publicKey := xorCrypto.publicKey [0xA0] }, 0x10 :: List.replicate 31 0,
        [0x01, 0x55, 0x01, 1, 2, 3, 4, 7, 9] ++ List.replicate 7 0,
        some ([1, 2, 3, 4, 7, 9] ++ List.replicate 7 0)) := by
    decide +kernel
  have hanswered := (discovery_answered_iff hstart hrun).1 hopen rfl (by decide) (by decide) 0 []
  exact (hanswered.mpr ⟨by decide, by decide, by decide⟩).1

end DiscoveryNode

end OpenHop
