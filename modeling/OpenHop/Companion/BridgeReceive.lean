import OpenHop.Companion.BridgeAck
import OpenHop.Companion.FrameServer

/-! # Packets at the bridge

The bridge looks up the handler of a packet in a table by payload type. Path returns pass
through three handlers one after the other, for responses, for logins and for
acknowledgements; responses go to the handler for logins, which passes on what is not for
it.
-/

namespace OpenHop

/-- `MAX_PENDING_ACK_CRCS` -/
def maxPendingAckCrcs : ℕ := 64

/-- The readings of the two clocks, `time.time()` and `time.monotonic()`. -/
structure Clocks where
  time : ℚ
  monotonic : ℚ

/-- What a packet makes happen at the bridge. -/
inductive BridgeEvent where
  | response (e : ResponseEvent)
  | loginCallback (contactPubkey : Bytes) (success : Bool) (data : LoginReply)
  | sendConfirmed (crc tripMs : ℕ)
  deriving DecidableEq

/-- The handlers in the bridge's table. -/
inductive BridgeHandler where
  | ack
  | text
  | advert
  | path
  | loginServer
  | groupText
  | loginResponse
  | rawCustom
  deriving DecidableEq

/-- The tables of the bridge. Logins wait under the full key; a password, under the first byte
of one. -/
structure CompanionBridge (Seed : Type) where
  responses : ProtocolResponses Seed
  pendingLogins : Finset Bytes := ∅
  activeLoginPasswords : Finset UInt8 := ∅
  pendingAckCrcs : Dict ℕ ℚ := Dict.empty
  keyed : responses.contacts.Keyed

theorem ProtocolResponses.keyed_call {Seed : Type} {c : Crypto Seed} {h : ProtocolResponses Seed}
    (hkeyed : h.contacts.Keyed) (now : ℚ) (noise : Bytes) (pkt : Packet) :
    (h.call c now noise pkt).1.contacts.Keyed ∧
      (h.call c now noise pkt).1.contacts.contacts.keys = h.contacts.contacts.keys := by
  rcases h.call_contacts (c := c) now noise pkt with hsame | ⟨contact, -, decrypted, -, stored, -,
    -, hstored, hupdate⟩
  · rw [hsame]
    exact ⟨hkeyed, rfl⟩
  · have hkey := hkeyed _ _ hstored
    have hpresent : h.contacts.contacts.contains stored.publicKey = true := by
      rw [hkey]
      exact Option.isSome_of_eq_some hstored
    rw [hupdate, ContactStore.update, if_neg (not_not.mpr hpresent)]
    refine ⟨hkeyed.put _, ?_⟩
    rw [ContactStore.put, Dict.keys_set_of_mem (Dict.contains_iff.mp hpresent)]

namespace CompanionBridge

variable {Seed : Type} (c : Crypto Seed)

/-- A code that is sent again counts as the newest; the oldest ones go when there are too many. -/
def trackPendingAck (b : CompanionBridge Seed) (now : ℚ) (ackCrc : ℕ) : CompanionBridge Seed :=
  let pending := b.pendingAckCrcs.setLast ackCrc now
  { b with pendingAckCrcs := Dict.popFirst^[pending.size - maxPendingAckCrcs] pending }

theorem get?_trackPendingAck (b : CompanionBridge Seed) (now : ℚ) (ackCrc : ℕ) :
    (b.trackPendingAck now ackCrc).pendingAckCrcs.get? ackCrc = some now := by
  refine Dict.get?_of_mem ?_
  simp only [trackPendingAck, Dict.entries_iterate_popFirst, Dict.size, Dict.entries_setLast,
    List.length_append, List.length_singleton, maxPendingAckCrcs]
  rw [List.drop_append_of_le_length (by omega)]
  exact List.mem_append_right _ List.mem_cons_self

def tryConfirmSend (b : CompanionBridge Seed) (now : ℚ) (crc : ℕ) :
    CompanionBridge Seed × List BridgeEvent :=
  match b.pendingAckCrcs.get? crc with
  | none => (b, [])
  | some sentAt =>
    ({ b with pendingAckCrcs := b.pendingAckCrcs.erase crc },
      [.sendConfirmed crc (FrameServer.roundHalfEven ((now - sentAt) * 1000)).toNat])

/-- Whether the tag is that of a request that waits, after the expired ones are dropped. -/
def hasPendingRequestTag (b : CompanionBridge Seed) (now : ℚ) (tag : ℕ) (contactPubkey : Bytes) :
    CompanionBridge Seed × Bool :=
  let responses := b.responses.cleanupExpiredBinaryRequests now
  ({ b with responses := responses, keyed := b.keyed },
    responses.pendingBinaryRequests.contains (Bytes.le 4 tag) ||
      decide ((contactPubkey, tag) ∈ responses.responseWaiters))

def isForeignRequestReply (b : CompanionBridge Seed) (now : ℚ) (contactPubkey : Bytes) :
    Option LoginReply → CompanionBridge Seed × Bool
  | none => (b, false)
  | some data => b.hasPendingRequestTag now data.timestamp contactPubkey

def hasPendingLoginForHash (b : CompanionBridge Seed) (lookupHash : UInt8) : Bool :=
  decide (lookupHash ∈ b.activeLoginPasswords) ||
    decide (∃ key ∈ b.pendingLogins, key.head? = some lookupHash)

def callResponses (b : CompanionBridge Seed) (now : Clocks) (noise : Bytes) (pkt : Packet) :
    CompanionBridge Seed × List BridgeEvent × Bool :=
  ({ b with
      responses := (b.responses.call c now.time noise pkt).1
      keyed := (ProtocolResponses.keyed_call b.keyed now.time noise pkt).1 },
    (b.responses.call c now.time noise pkt).2.1.map .response,
    (b.responses.call c now.time noise pkt).2.2)

def forwardToProtocolHandler (b : CompanionBridge Seed) (now : Clocks) (noise : Bytes)
    (pkt : Packet) : CompanionBridge Seed × List BridgeEvent × Bool :=
  if pkt.getPayloadType = payloadTypePath then (b, [], false) else b.callResponses c now noise pkt

/-- Where the encrypted part of a packet starts, and the first byte of the key that the login it
answers went to. The local key behind the destination marks the layout of anonymous requests. -/
def loginLayout (b : CompanionBridge Seed) (payload : Bytes) : ℕ × UInt8 :=
  if 34 ≤ payload.length ∧ (payload.take 33).drop 1 = c.publicKey b.responses.localIdentity then
    (33, payload.getD 0 0)
  else (2, payload.getD 1 0)

/-- The first contact whose secret opens the packet, with the login reply in it. -/
def decryptLogin (b : CompanionBridge Seed) (pkt : Packet) :
    Option (Contact × Option LoginReply) :=
  let layout := b.loginLayout c pkt.payload
  (iterDecryptBySrcHash c b.responses.contacts.contacts.values layout.2 b.responses.localIdentity
    (pkt.payload.drop layout.1)).findSome? fun (contact, _, plaintext) =>
      (LoginReply.decryptResponse pkt.getPayloadType plaintext).map fun data => (contact, data)

/-- `LoginResponseHandler.__call__` -/
def loginResponse (b : CompanionBridge Seed) (now : Clocks) (noise : Bytes) (pkt : Packet) :
    CompanionBridge Seed × List BridgeEvent × Bool :=
  if pkt.payload.length < 4 then (b, [], false)
  else if pkt.payload.head? ≠ (c.publicKey b.responses.localIdentity).head? then (b, [], false)
  else if ¬ b.hasPendingLoginForHash (b.loginLayout c pkt.payload).2 then
    b.forwardToProtocolHandler c now noise pkt
  else
    match b.decryptLogin c pkt with
    | none => (b, [], false)
    | some (contact, response) =>
      let (b', foreign) := b.isForeignRequestReply now.time contact.publicKey response
      if foreign then b'.forwardToProtocolHandler c now noise pkt
      else if contact.publicKey ∉ b'.pendingLogins then
        b'.forwardToProtocolHandler c now noise pkt
      else
        match response with
        | none => (b', [], true)
        | some data =>
          ({ b' with
              activeLoginPasswords :=
                b'.activeLoginPasswords.erase (b.loginLayout c pkt.payload).2 },
            [.loginCallback contact.publicKey data.success data], true)

def callAck (b : CompanionBridge Seed) (now : Clocks) (pkt : Packet) :
    CompanionBridge Seed × List BridgeEvent :=
  match BridgeAckHandler.discreteAck pkt with
  | none => (b, [])
  | some crc => b.tryConfirmSend now.monotonic crc

def pathAck (b : CompanionBridge Seed) (now : Clocks) (pkt : Packet) :
    CompanionBridge Seed × List BridgeEvent × Bool :=
  match BridgeAckHandler.processPathAckVariants c b.responses.contacts.contacts.values
    b.responses.localIdentity pkt with
  | none => (b, [], false)
  | some crc =>
    ((b.tryConfirmSend now.monotonic crc).1, (b.tryConfirmSend now.monotonic crc).2, true)

/-- `PathHandler.__call__` -/
def callPath (b : CompanionBridge Seed) (now : Clocks) (noise : Bytes) (pkt : Packet) :
    CompanionBridge Seed × List BridgeEvent × Bool :=
  let answered := b.callResponses c now noise pkt
  let loggedIn := answered.1.loginResponse c now noise pkt
  let acked := loggedIn.1.pathAck c now pkt
  (acked.1, answered.2.1 ++ loggedIn.2.1 ++ acked.2.1,
    answered.2.2 || loggedIn.2.2 || acked.2.2)

/-- `_handlers` -/
def handlers : List (ℕ × BridgeHandler) :=
  [(payloadTypeAck, .ack), (payloadTypeTxtMsg, .text), (payloadTypeAdvert, .advert),
    (payloadTypePath, .path), (payloadTypeAnonReq, .loginServer), (payloadTypeGrpTxt, .groupText),
    (payloadTypeResponse, .loginResponse), (payloadTypeRawCustom, .rawCustom)]

/-- What happens for a packet, and whether it was for this node. The handlers that have to do with
neither responses, logins nor acknowledgements leave these tables alone. -/
def processReceivedPacket (b : CompanionBridge Seed) (now : Clocks) (noise : Bytes) (pkt : Packet) :
    CompanionBridge Seed × List BridgeEvent × Bool :=
  match handlers.lookup pkt.getPayloadType with
  | some .ack => ((b.callAck now pkt).1, (b.callAck now pkt).2, false)
  | some .path => b.callPath c now noise pkt
  | some .loginResponse => b.loginResponse c now noise pkt
  | some _ | none => (b, [], false)

def confirmed : BridgeEvent → Option ℕ
  | .sendConfirmed crc _ => some crc
  | _ => none

def readCrc (b : CompanionBridge Seed) (pkt : Packet) : Option ℕ :=
  if pkt.getPayloadType = payloadTypeAck then BridgeAckHandler.discreteAck pkt
  else if pkt.getPayloadType = payloadTypePath then
    BridgeAckHandler.processPathAckVariants c b.responses.contacts.contacts.values
      b.responses.localIdentity pkt
  else none

/-- From one state to another the code that was read, if any, is taken out and confirmed if it was
waited for. Nothing changes that the reading depends on. -/
structure Reads (b b' : CompanionBridge Seed) (read : Option ℕ) (events : List BridgeEvent) :
    Prop where
  pending : ∀ crc, b'.pendingAckCrcs.get? crc =
    if read = some crc then none else b.pendingAckCrcs.get? crc
  confirms : events.filterMap confirmed = read.toList.filter b.pendingAckCrcs.contains
  identity : b'.responses.localIdentity = b.responses.localIdentity
  keys : b'.responses.contacts.contacts.keys = b.responses.contacts.contacts.keys

section

variable {c} {b b₁ b₂ : CompanionBridge Seed} {read : Option ℕ} {es es' : List BridgeEvent}

theorem Reads.refl (b : CompanionBridge Seed) : Reads b b none [] where
  pending _ := rfl
  confirms := rfl
  identity := rfl
  keys := rfl

theorem Reads.trans (first : Reads b b₁ none es) (second : Reads b₁ b₂ read es') :
    Reads b b₂ read (es ++ es') := by
  have hpending : ∀ crc, b₁.pendingAckCrcs.get? crc = b.pendingAckCrcs.get? crc := first.pending
  refine ⟨fun crc => ?_, ?_, second.identity.trans first.identity, second.keys.trans first.keys⟩
  · rw [second.pending, hpending]
  · rw [List.filterMap_append, first.confirms, second.confirms]
    have hcontains : b₁.pendingAckCrcs.contains = b.pendingAckCrcs.contains := by
      funext crc
      rw [Dict.contains, hpending, Dict.contains]
    rw [hcontains]
    rfl

theorem Reads.readCrc_eq (h : Reads b b₁ read es) (pkt : Packet) :
    b₁.readCrc c pkt = b.readCrc c pkt := by
  have hplain : ∀ payload,
      BridgeAckHandler.plaintexts c b₁.responses.contacts.contacts.values
          b₁.responses.localIdentity payload =
        BridgeAckHandler.plaintexts c b.responses.contacts.contacts.values
          b.responses.localIdentity payload := by
    intro payload
    rw [h.identity]
    refine BridgeAckHandler.plaintexts_congr ?_ _ payload
    rw [b₁.keyed.publicKeys, b.keyed.publicKeys, h.keys]
  unfold readCrc
  rw [BridgeAckHandler.bridge_eq, BridgeAckHandler.bridge_eq, hplain, h.identity]

theorem reads_tryConfirmSend (b : CompanionBridge Seed) (now : ℚ) (crc : ℕ) :
    Reads b (b.tryConfirmSend now crc).1 (some crc) (b.tryConfirmSend now crc).2 := by
  unfold tryConfirmSend
  cases hget : b.pendingAckCrcs.get? crc with
  | none =>
    refine ⟨fun crc' => ?_, ?_, rfl, rfl⟩
    · dsimp only
      split
      · rename_i heq
        cases heq
        exact hget
      · rfl
    · simp [Dict.contains, hget]
  | some sentAt =>
    refine ⟨fun crc' => ?_, ?_, rfl, rfl⟩
    · simp only [Dict.get?_erase, Option.some.injEq, eq_comm]
    · simp [Dict.contains, hget, confirmed]

theorem reads_callResponses (b : CompanionBridge Seed) (now : Clocks) (noise : Bytes)
    (pkt : Packet) :
    Reads b (b.callResponses c now noise pkt).1 none (b.callResponses c now noise pkt).2.1 where
  pending _ := rfl
  confirms := by
    refine List.filterMap_eq_nil_iff.mpr fun e he => ?_
    obtain ⟨e', -, rfl⟩ := List.mem_map.mp he
    rfl
  identity := b.responses.call_localIdentity now.time noise pkt
  keys := (ProtocolResponses.keyed_call b.keyed now.time noise pkt).2

theorem reads_forwardToProtocolHandler (b : CompanionBridge Seed) (now : Clocks) (noise : Bytes)
    (pkt : Packet) :
    Reads b (b.forwardToProtocolHandler c now noise pkt).1 none
      (b.forwardToProtocolHandler c now noise pkt).2.1 := by
  unfold forwardToProtocolHandler
  split
  · exact Reads.refl b
  · exact reads_callResponses b now noise pkt

theorem reads_isForeignRequestReply (b : CompanionBridge Seed) (now : ℚ) (contactPubkey : Bytes)
    (response : Option LoginReply) :
    Reads b (b.isForeignRequestReply now contactPubkey response).1 none [] := by
  cases response with
  | none => exact Reads.refl b
  | some data => exact ⟨fun _ => rfl, rfl, rfl, rfl⟩

theorem reads_loginResponse (b : CompanionBridge Seed) (now : Clocks) (noise : Bytes)
    (pkt : Packet) :
    Reads b (b.loginResponse c now noise pkt).1 none (b.loginResponse c now noise pkt).2.1 := by
  unfold loginResponse
  split
  · exact Reads.refl b
  split
  · exact Reads.refl b
  split
  · exact reads_forwardToProtocolHandler b now noise pkt
  split
  · exact Reads.refl b
  · rename_i contact response _
    have hprobe := reads_isForeignRequestReply b now.time contact.publicKey response
    dsimp only
    split
    · exact hprobe.trans (reads_forwardToProtocolHandler _ now noise pkt)
    split
    · exact hprobe.trans (reads_forwardToProtocolHandler _ now noise pkt)
    cases response with
    | none => exact hprobe
    | some data => exact hprobe.trans ⟨fun _ => rfl, rfl, rfl, rfl⟩

theorem reads_pathAck (b : CompanionBridge Seed) (now : Clocks) {pkt : Packet}
    (hpath : pkt.getPayloadType = payloadTypePath) :
    Reads b (b.pathAck c now pkt).1 (b.readCrc c pkt) (b.pathAck c now pkt).2.1 := by
  have hread : b.readCrc c pkt = BridgeAckHandler.processPathAckVariants c
      b.responses.contacts.contacts.values b.responses.localIdentity pkt := by
    rw [readCrc, hpath, if_neg (by decide), if_pos rfl]
  rw [hread, pathAck]
  cases BridgeAckHandler.processPathAckVariants c b.responses.contacts.contacts.values
      b.responses.localIdentity pkt with
  | none => exact Reads.refl b
  | some crc => exact reads_tryConfirmSend b now.monotonic crc

theorem reads_callPath (b : CompanionBridge Seed) (now : Clocks) (noise : Bytes) {pkt : Packet}
    (hpath : pkt.getPayloadType = payloadTypePath) :
    Reads b (b.callPath c now noise pkt).1 (b.readCrc c pkt) (b.callPath c now noise pkt).2.1 := by
  have hanswered := reads_callResponses (c := c) b now noise pkt
  have hlogin := hanswered.trans (reads_loginResponse (c := c) _ now noise pkt)
  have hacked := hlogin.trans (reads_pathAck (c := c) _ now hpath)
  rw [hlogin.readCrc_eq] at hacked
  exact hacked

theorem handlers_cases (t : ℕ) :
    t = payloadTypeAck ∧ handlers.lookup t = some .ack ∨
      t = payloadTypePath ∧ handlers.lookup t = some .path ∨
      t = payloadTypeResponse ∧ handlers.lookup t = some .loginResponse ∨
      (t ≠ payloadTypeAck ∧ t ≠ payloadTypePath ∧ t ≠ payloadTypeResponse) ∧
        handlers.lookup t ≠ some .ack ∧ handlers.lookup t ≠ some .path ∧
        handlers.lookup t ≠ some .loginResponse := by
  by_cases hack : t = payloadTypeAck
  · subst hack
    exact Or.inl ⟨rfl, rfl⟩
  by_cases hpath : t = payloadTypePath
  · subst hpath
    exact Or.inr (Or.inl ⟨rfl, rfl⟩)
  by_cases hresponse : t = payloadTypeResponse
  · subst hresponse
    exact Or.inr (Or.inr (Or.inl ⟨rfl, rfl⟩))
  have hmem : ∀ handler, handlers.lookup t = some handler → (t, handler) ∈ handlers := by
    intro handler h
    obtain ⟨before, after, hsplit, -⟩ := List.lookup_eq_some_iff.mp h
    rw [hsplit]
    exact List.mem_append_right _ List.mem_cons_self
  refine Or.inr (Or.inr (Or.inr ⟨⟨hack, hpath, hresponse⟩, ?_, ?_, ?_⟩))
  · exact fun h => hack (by simpa [handlers] using hmem _ h)
  · exact fun h => hpath (by simpa [handlers] using hmem _ h)
  · exact fun h => hresponse (by simpa [handlers] using hmem _ h)

theorem reads_processReceivedPacket (b : CompanionBridge Seed) (now : Clocks) (noise : Bytes)
    (pkt : Packet) :
    Reads b (b.processReceivedPacket c now noise pkt).1 (b.readCrc c pkt)
      (b.processReceivedPacket c now noise pkt).2.1 := by
  unfold processReceivedPacket
  rcases handlers_cases pkt.getPayloadType with ⟨htype, hlookup⟩ | ⟨htype, hlookup⟩ |
    ⟨htype, hlookup⟩ | ⟨⟨hack, hpath, -⟩, hnack, hnpath, hnlogin⟩
  · have hread : b.readCrc c pkt = BridgeAckHandler.discreteAck pkt := by
      rw [readCrc, htype, if_pos rfl]
    rw [hlookup, hread]
    dsimp only
    unfold callAck
    cases BridgeAckHandler.discreteAck pkt with
    | none => exact Reads.refl b
    | some crc => exact reads_tryConfirmSend b now.monotonic crc
  · rw [hlookup]
    exact reads_callPath b now noise htype
  · have hread : b.readCrc c pkt = none := by
      rw [readCrc, htype, if_neg (by decide), if_neg (by decide)]
    rw [hlookup, hread]
    exact reads_loginResponse b now noise pkt
  · have hread : b.readCrc c pkt = none := by
      rw [readCrc, if_neg hack, if_neg hpath]
    rw [hread]
    split
    · exact absurd ‹_› hnack
    · exact absurd ‹_› hnpath
    · exact absurd ‹_› hnlogin
    · exact Reads.refl b
    · exact Reads.refl b

end

end CompanionBridge

end OpenHop
