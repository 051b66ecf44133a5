import OpenHop.Companion.BridgeReceive

/-! # Login replies and other responses

A login reply begins with the clock of the server, every other response with the tag of its
request, which is from the clock of the client. The bridge tells one from the other by
looking whether a request with that tag waits.
-/

namespace OpenHop

open PacketBuilder

variable {Seed : Type} {c : Crypto Seed}

def replyBody (encoded : ℕ) (path reply : Bytes) : Bytes :=
  UInt8.ofNat encoded :: (path ++ UInt8.ofNat payloadTypeResponse :: reply)

/-- The packets that carry a login reply: by itself or in the return of a path of a given length. -/
inductive CarriesReply (c : Crypto Seed) (secret : Bytes) (dest src : UInt8) (reply : Bytes)
    (encoded : ℕ) : ℕ → Bytes → Prop where
  | response : CarriesReply c secret dest src reply encoded payloadTypeResponse
      (dest :: src :: c.encryptThenMac (secret.take 16) secret reply)
  | pathReturn {path : Bytes} (h : PathFits path encoded) :
    CarriesReply c secret dest src reply encoded payloadTypePath
      (dest :: src :: c.encryptThenMac (secret.take 16) secret (replyBody encoded path reply))

theorem createDatagram_ok {destKey secret plaintext : Bytes} {localIdentity : Seed}
    {route : RouteName} {dest src : UInt8} {p : Packet} (hdest : destKey.head? = some dest)
    (hsrc : (c.publicKey localIdentity).head? = some src)
    (h : createDatagram c payloadTypeResponse destKey localIdentity secret plaintext route =
      .ok p) :
    p.getPayloadType = payloadTypeResponse ∧
      p.payload = dest :: src :: c.encryptThenMac (secret.take 16) secret plaintext := by
  unfold createDatagram at h
  rw [hashByte_of_head? hdest, hashByte_of_head? hsrc] at h
  exact createPacket_carries (by decide) h

theorem Packet.applyPathHashMode_carries {p q : Packet} {mode : ℕ} {mark : Bool}
    (h : p.applyPathHashMode mode mark = .ok q) :
    q.payload = p.payload ∧ q.getPayloadType = p.getPayloadType := by
  unfold Packet.applyPathHashMode at h
  split at h
  · cases h
  split at h
  · cases h
    exact ⟨rfl, rfl⟩
  split at h
  · cases h
    exact ⟨rfl, rfl⟩
  · obtain ⟨pathLen, -, h⟩ := bind_eq_ok.mp h
    cases h
    exact ⟨rfl, rfl⟩

namespace LoginServerHandler

variable {h : LoginServerHandler Seed} {permissions currentTime : ℕ}
  {random reply clientPubkey secret : Bytes} {request p : Packet} {dest src : UInt8}

/-- The reply as the client reads it. -/
def replyFields (permissions currentTime : ℕ) (random : Bytes) : LoginReply where
  timestamp := currentTime
  responseCode := respServerLoginOk
  keepAliveInterval := 0
  adminCode := if aclIsAdmin permissions then 1 else 0
  permissions := UInt8.ofNat permissions
  randomBlob := random
  firmwareVerLevel := some firmwareVerLevel

theorem replyData_ok (hreply : replyData permissions currentTime random = .ok reply) :
    currentTime < 256 ^ 4 ∧ reply = Bytes.le 4 currentTime ++ (respServerLoginOk :: 0 ::
      (if aclIsAdmin permissions then 1 else 0) :: UInt8.ofNat permissions ::
        (random ++ [firmwareVerLevel])) := by
  unfold replyData at hreply
  obtain ⟨time, htime, hreply⟩ := bind_eq_ok.mp hreply
  obtain ⟨permissionsByte, hbyte, hreply⟩ := bind_eq_ok.mp hreply
  obtain ⟨-, rfl⟩ := Packet.byte_eq_ok.mp hbyte
  cases hreply
  unfold packUInt32 at htime
  split at htime
  · rename_i d hd
    cases htime
    obtain ⟨hlt, rfl⟩ := Bytes.ofNatLE?_eq_some.mp hd
    exact ⟨hlt, by simp⟩
  · cases htime

theorem decryptResponse_reply (hreply : replyData permissions currentTime random = .ok reply)
    (hrandom : random.length = 4) (rest : Bytes) :
    LoginReply.decryptResponse payloadTypeResponse (reply ++ rest) =
      some (some (replyFields permissions currentTime random)) := by
  obtain ⟨hlt, rfl⟩ := replyData_ok hreply
  obtain ⟨r₀, r₁, r₂, r₃, rfl⟩ := List.length_eq_four.mp hrandom
  have htime : Bytes.toNatLE (((Bytes.le 4 currentTime ++ (respServerLoginOk :: 0 ::
      (if aclIsAdmin permissions then 1 else 0) :: UInt8.ofNat permissions ::
        ([r₀, r₁, r₂, r₃] ++ [firmwareVerLevel]))) ++ rest).take 4) = currentTime := by
    rw [List.append_assoc, List.take_left' (Bytes.length_le 4 currentTime),
      Bytes.toNatLE_le 4 _ hlt]
  rw [LoginReply.decryptResponse, if_neg (by simp [Bytes.le]), if_neg (by decide)]
  simp only [Option.map_some, Option.bind_some]
  rw [if_neg (by simp [Bytes.le]), LoginReply.ofBytes, htime, replyFields]
  simp [Bytes.le]

theorem createPathReply_ok {localIdentity : Seed} (hdest : clientPubkey.head? = some dest)
    (hsrc : (c.publicKey localIdentity).head? = some src) (hreply : reply ≠ [])
    (hp : createPathReply c localIdentity clientPubkey secret request reply = .ok p) :
    ∃ path, PathFits path request.pathLen ∧
      p.payload = dest :: src :: c.encryptThenMac (secret.take 16) secret
        (replyBody request.pathLen path reply) ∧
      p.getPayloadType = payloadTypePath := by
  unfold createPathReply at hp
  rw [hashByte_of_head? hdest, hashByte_of_head? hsrc, ok_bind, ok_bind] at hp
  by_cases hlen : request.pathLen > 0
  · simp only [hlen, if_true] at hp
    obtain ⟨-, hfits, hpayload, htype⟩ := createPathReturn_ok hp
    rw [pathReturnExtra, if_pos hreply] at hpayload
    exact ⟨_, hfits, hpayload, htype⟩
  · simp only [hlen, if_false] at hp
    obtain ⟨-, hfits, hpayload, htype⟩ := createPathReturn_ok hp
    rw [pathReturnExtra, if_pos hreply] at hpayload
    rw [Nat.eq_zero_of_not_pos hlen]
    exact ⟨[], hfits, hpayload, htype⟩

theorem carriesReply_of_buildLoginResponse (hdest : clientPubkey.head? = some dest)
    (hsrc : (c.publicKey h.localIdentity).head? = some src) (hreply : reply ≠ [])
    (hp : h.buildLoginResponse c clientPubkey secret request reply = .ok p) :
    CarriesReply c secret dest src reply request.pathLen p.getPayloadType p.payload := by
  have hfinish : ∀ {pkt : Packet},
      (do if pkt.isRouteFlood then
            let pkt ← pkt.applyPathHashMode (request.incomingHashSize - 1) true
            TextMessageHandler.scopedReply c pkt request
          else return pkt) = Except.ok p →
        p.payload = pkt.payload ∧ p.getPayloadType = pkt.getPayloadType := by
    intro pkt hpkt
    split at hpkt
    · obtain ⟨marked, hmarked, hpkt⟩ := bind_eq_ok.mp hpkt
      obtain ⟨hpayload, htype⟩ := scopedReply_carries hpkt
      obtain ⟨hpayload', htype'⟩ := Packet.applyPathHashMode_carries hmarked
      exact ⟨hpayload.trans hpayload', htype.trans htype'⟩
    · cases hpkt
      exact ⟨rfl, rfl⟩
  unfold buildLoginResponse at hp
  split at hp
  · obtain ⟨pkt, hpkt, hp⟩ := bind_eq_ok.mp hp
    rw [(hfinish hp).1, (hfinish hp).2]
    have hpath := createPathReply_ok hdest hsrc hreply hpkt
    obtain ⟨path, hfits, hpayload, htype⟩ := hpath
    rw [hpayload, htype]
    exact .pathReturn hfits
  split at hp
  · obtain ⟨datagram, hdatagram, hp⟩ := bind_eq_ok.mp hp
    obtain ⟨pkt, hpkt, hp⟩ := bind_eq_ok.mp hp
    obtain ⟨htype, hpayload⟩ := createDatagram_ok hdest hsrc hdatagram
    cases hpkt
    rw [(hfinish hp).1, (hfinish hp).2]
    change CarriesReply c secret dest src reply request.pathLen datagram.getPayloadType
      datagram.payload
    rw [htype, hpayload]
    exact .response
  · obtain ⟨datagram, hdatagram, hp⟩ := bind_eq_ok.mp hp
    obtain ⟨htype, hpayload⟩ := createDatagram_ok hdest hsrc hdatagram
    rw [(hfinish hp).1, (hfinish hp).2, htype, hpayload]
    exact .response

theorem response_call {plaintext : Bytes}
    (hopen : openAnonRequest c h.localIdentity request.payload =
      some (clientPubkey, secret, plaintext))
    (hsend : (h.call c request currentTime random).response = some p) :
    ∃ asked reply, (h.call c request currentTime random).calls = [asked] ∧
      replyData (h.authenticate asked).2 currentTime random = .ok reply ∧
      h.buildLoginResponse c clientPubkey secret request reply = .ok p := by
  unfold call at hsend ⊢
  rw [hopen] at hsend ⊢
  dsimp only at hsend ⊢
  cases hparse : h.parseLogin plaintext with
  | none =>
    rw [hparse] at hsend
    cases hsend
  | some parsed =>
    obtain ⟨timestamp, syncSince, password⟩ := parsed
    rw [hparse] at hsend
    dsimp only at hsend ⊢
    generalize (⟨clientPubkey, secret, password, timestamp,
      if h.takesSyncSince then syncSince else none⟩ : AuthenticateCall) = asked at hsend ⊢
    split at hsend
    · unfold sendLoginResponse at hsend
      cases hreply : replyData (h.authenticate asked).2 currentTime random with
      | error e =>
        rw [hreply] at hsend
        cases hsend
      | ok reply =>
        rw [hreply] at hsend
        exact ⟨asked, reply, rfl, hreply, toOption_eq_some.mp hsend⟩
    · cases hsend

end LoginServerHandler

namespace CompanionBridge

variable {b : CompanionBridge Seed} {r : Packet} {key : Bytes} {contact : Contact}
  {data : LoginReply}

theorem hasPendingRequestTag_iff (b : CompanionBridge Seed) (now : ℚ) (tag : ℕ) (key : Bytes) :
    (b.hasPendingRequestTag now tag key).2 = true ↔
      b.responses.Pending now (.waiter key tag) ∨
        b.responses.Pending now (.binary (Bytes.le 4 tag)) := by
  have hfresh : ((b.responses.cleanupExpiredBinaryRequests now).pendingBinaryRequests.contains
      (Bytes.le 4 tag)) = true ↔ b.responses.Pending now (.binary (Bytes.le 4 tag)) := by
    rw [Dict.contains, Option.isSome_iff_exists]
    simp only [ProtocolResponses.get?_cleanup_eq_some_iff, ProtocolResponses.Pending]
  rw [hasPendingRequestTag, Bool.or_eq_true, hfresh, decide_eq_true_eq, or_comm]
  rfl

/-- The login handler takes a packet to come from the contact with a key. -/
def LoginFrom (c : Crypto Seed) (b : CompanionBridge Seed) (key : Bytes) (r : Packet) : Prop :=
  b.loginLayout c r.payload = (2, r.payload.getD 1 0) ∧
    (b.decryptLogin c r).map (·.1.publicKey) = some key

/-- The callback of the login gets the reply, and nothing happens that answers another request. -/
def Undiverted (other : ResponseEvent → Bool) (key : Bytes) (data : LoginReply)
    (events : List BridgeEvent) : Prop :=
  .loginCallback key data.success data ∈ events ∧
    ∀ e, .response e ∈ events → other e = false

/-- The events that complete another request. -/
def completesOther : ResponseEvent → Bool
  | .waiter .. | .pathDiscovery .. | .binaryResponse _ _ (some _) => true
  | _ => false

/-- The events that complete another request or report a response as unmatched. -/
def answersOther : ResponseEvent → Bool
  | .waiter .. | .pathDiscovery .. | .binaryResponse .. => true
  | _ => false

theorem quiet_of_ofPath {e : ResponseEvent} (h : ProtocolResponses.ofPath e = true) :
    completesOther e = false ∧ answersOther e = false := by
  cases e with
  | contactPathUpdated contact => exact ⟨rfl, rfl⟩
  | reciprocal packet => exact ⟨rfl, rfl⟩
  | waiter contactPubkey tag response => cases h
  | pathDiscovery tag info => cases h
  | binaryResponse tag data requestType => cases h

/-- A reply of the contact whose login waits is passed to the callback, unless a request waits for
its tag. -/
theorem events_loginResponse (hlong : 4 ≤ r.payload.length)
    (hdest : r.payload.head? = (c.publicKey b.responses.localIdentity).head?)
    (hlogin : b.decryptLogin c r = some (contact, some data))
    (hpending : contact.publicKey ∈ b.pendingLogins)
    (hhash : contact.publicKey.head? = some (b.loginLayout c r.payload).2) (now : Clocks)
    (noise : Bytes) :
    (b.loginResponse c now noise r).2.1 =
      if (b.hasPendingRequestTag now.time data.timestamp contact.publicKey).2 then
        (CompanionBridge.forwardToProtocolHandler c
          (b.hasPendingRequestTag now.time data.timestamp contact.publicKey).1 now noise r).2.1
      else [.loginCallback contact.publicKey data.success data] := by
  have hgate : b.hasPendingLoginForHash (b.loginLayout c r.payload).2 = true := by
    rw [hasPendingLoginForHash, Bool.or_eq_true, decide_eq_true_eq, decide_eq_true_eq]
    exact Or.inr ⟨contact.publicKey, hpending, hhash⟩
  unfold loginResponse
  rw [if_neg (not_lt.mpr hlong), if_neg (not_not.mpr hdest), if_neg (not_not.mpr hgate), hlogin]
  have hstill : contact.publicKey ∈
      (b.hasPendingRequestTag now.time data.timestamp contact.publicKey).1.pendingLogins := hpending
  dsimp only [isForeignRequestReply]
  by_cases hforeign :
      (b.hasPendingRequestTag now.time data.timestamp contact.publicKey).2 = true
  · rw [if_pos hforeign, if_pos hforeign]
  · rw [if_neg hforeign, if_neg hforeign, if_neg (not_not.mpr hstill)]

/-- A request waits for a tag, of the contact or of any. -/
def Awaited (h : ProtocolResponses Seed) (now : ℚ) (key tag : Bytes) : Prop :=
  h.Pending now (.waiter key (Bytes.toNatLE tag)) ∨ h.Pending now (.binary tag)

/-- Nothing happens that answers another request, and no request with the tag is left. -/
def Passes (other : ResponseEvent → Bool) (now : ℚ) (key tag : Bytes)
    (d : ProtocolResponses Seed × List ResponseEvent) : Prop :=
  ¬ Awaited d.1 now key tag ∧ ∀ e ∈ d.2, other e = false

section

variable {payload : Bytes}

theorem not_passes_of_mem {other : ResponseEvent → Bool} {now : ℚ} {key tag : Bytes}
    {d : ProtocolResponses Seed × List ResponseEvent} {e : ResponseEvent} (he : e ∈ d.2)
    (hother : other e = true) : ¬ Passes other now key tag d := by
  rintro ⟨-, hquiet⟩
  rw [hquiet e he] at hother
  cases hother

theorem binary_passes_iff {h : ProtocolResponses Seed} {key tag : Bytes}
    (hwaiter : (key, Bytes.toNatLE tag) ∉ h.responseWaiters) (other : ResponseEvent → Bool)
    (now : ℚ) (e : ResponseEvent) :
    Passes other now key tag
        ({ h.cleanupExpiredBinaryRequests now with
            pendingBinaryRequests :=
              (h.cleanupExpiredBinaryRequests now).pendingBinaryRequests.erase tag }, [e]) ↔
      other e = false := by
  rw [Passes, List.forall_mem_singleton, and_iff_right_iff_imp]
  rintro - (hw | ⟨info, hinfo, -⟩)
  · exact hwaiter hw
  · rw [Dict.get?_erase, if_pos rfl] at hinfo
    cases hinfo

theorem awaited_iff_binary {h : ProtocolResponses Seed} {key tag : Bytes}
    (hwaiter : (key, Bytes.toNatLE tag) ∉ h.responseWaiters) (now : ℚ) :
    Awaited h now key tag ↔ ∃ info,
      (h.cleanupExpiredBinaryRequests now).pendingBinaryRequests.get? tag = some info := by
  simp only [ProtocolResponses.get?_cleanup_eq_some_iff]
  exact or_iff_right hwaiter

theorem deliver_passes_iff (h : ProtocolResponses Seed) (now : ℚ) (key decrypted : Bytes)
    (hpath : r.getPayloadType = payloadTypePath)
    (hlen : 4 ≤ payload.length) :
    (Passes completesOther now key (payload.take 4)
        (h.deliver now r key decrypted (some payload)) ↔
      ¬ Awaited h now key (payload.take 4) ∧
        (Bytes.toNatLE (payload.take 4) ∈ h.pendingDiscoveryTags →
          isLoginReply (payload.drop 4))) ∧
    (Passes answersOther now key (payload.take 4)
        (h.deliver now r key decrypted (some payload)) ↔
      ¬ Awaited h now key (payload.take 4) ∧ isLoginReply (payload.drop 4)) := by
  by_cases hwaiter : (key, Bytes.toNatLE (payload.take 4)) ∈ h.responseWaiters
  · -- the waiter gets it
    have hawaited : Awaited h now key (payload.take 4) := Or.inl hwaiter
    have hmem : .waiter key (Bytes.toNatLE (payload.take 4))
        (parseProtocolResponse h.cls payload) ∈
          (h.deliver now r key decrypted (some payload)).2 := by
      rw [ProtocolResponses.deliver_waiter hlen hwaiter]
      exact List.mem_singleton_self _
    exact ⟨iff_of_false (not_passes_of_mem hmem rfl) fun hq => hq.1 hawaited,
      iff_of_false (not_passes_of_mem hmem rfl) fun hq => hq.1 hawaited⟩
  rw [ProtocolResponses.deliver_binary hlen hwaiter]
  by_cases hlogin : isLoginReply (payload.drop 4)
  · -- it looks like what it is
    rw [if_pos hlogin]
    simp [Passes, hlogin]
  rw [if_neg hlogin]
  by_cases hdiscovery : h.AnswersDiscovery r payload
  · obtain ⟨info, hmem⟩ : ∃ info, .pathDiscovery (payload.take 4) info ∈
        (h.onBinaryResponse now (payload.take 4) (payload.drop 4)
          (ProtocolResponses.pathInfo r key decrypted)).2 := by
      obtain ⟨info, hevents⟩ :=
        ProtocolResponses.onBinaryResponse_discovery hdiscovery (payload.drop 4)
      rw [hevents]
      exact ⟨info, List.mem_singleton_self _⟩
    exact ⟨iff_of_false (not_passes_of_mem hmem rfl) fun hq => hlogin (hq.2 hdiscovery.2),
      iff_of_false (not_passes_of_mem hmem rfl) fun hq => hlogin hq.2⟩
  · have hnot : Bytes.toNatLE (payload.take 4) ∉ h.pendingDiscoveryTags :=
      fun hmem => hdiscovery ⟨hpath, hmem⟩
    rw [ProtocolResponses.onBinaryResponse_of_not_discovery hdiscovery,
      binary_passes_iff hwaiter, binary_passes_iff hwaiter]
    constructor
    · rw [awaited_iff_binary hwaiter]
      cases (h.cleanupExpiredBinaryRequests now).pendingBinaryRequests.get? (payload.take 4) with
      | none => simp [completesOther, hnot]
      | some info => simp [completesOther]
    · simp [answersOther, hlogin]

end

theorem head_of_mem_iterDecryptBySrcHash {contacts : List Contact} {srcHash : UInt8}
    {localIdentity : Seed} {encrypted : Bytes} {opened : Contact × Bytes × Bytes}
    (h : opened ∈ iterDecryptBySrcHash c contacts srcHash localIdentity encrypted) :
    opened.1.publicKey.head? = some srcHash := by
  obtain ⟨contact, -, hcontact⟩ := List.mem_filterMap.mp h
  split at hcontact
  · cases hcontact
  · rename_i hmatch
    obtain ⟨opened', -, rfl⟩ := Option.map_eq_some_iff.mp hcontact
    rw [not_or, not_not, not_not] at hmatch
    exact hmatch.2

theorem LoginFrom.of_reads {b₁ : CompanionBridge Seed} {read : Option ℕ} {es : List BridgeEvent}
    (h : b.LoginFrom c key r) (hreads : Reads b b₁ read es) : b₁.LoginFrom c key r := by
  have hlayout : ∀ payload, b₁.loginLayout c payload = b.loginLayout c payload := by
    intro payload
    rw [loginLayout, loginLayout, hreads.identity]
  have hkeys : b₁.responses.contacts.contacts.values.map (·.publicKey) =
      b.responses.contacts.contacts.values.map (·.publicKey) := by
    rw [b₁.keyed.publicKeys, b.keyed.publicKeys, hreads.keys]
  have hsender : ∀ b : CompanionBridge Seed, (b.decryptLogin c r).map (·.1.publicKey) =
      ((iterDecryptBySrcHash c b.responses.contacts.contacts.values (b.loginLayout c r.payload).2
        b.responses.localIdentity (r.payload.drop (b.loginLayout c r.payload).1)).map
          (fun opened => (opened.1.publicKey, opened.2))).findSome? fun opened =>
        (LoginReply.decryptResponse r.getPayloadType opened.2.2).map fun _ => opened.1 := by
    intro b
    rw [decryptLogin, List.map_findSome?, List.findSome?_map]
    congr 1
    funext opened
    simp only [Function.comp_apply, Option.map_map]
    rfl
  refine ⟨(hlayout _).trans h.1, ?_⟩
  rw [hsender, hlayout, hreads.identity,
    BridgeAckHandler.iterDecryptBySrcHash_congr (c := c) hkeys, ← hsender]
  exact h.2

section

open LoginServerHandler

variable {permissions currentTime encoded : ℕ} {random reply secret : Bytes} {dest src : UInt8}

def replyPadding (encoded : ℕ) : Bytes :=
  List.replicate ((16 - (PathUtils.getPathByteLen encoded + 15) % 16) % 16) 0

theorem layout_replyBody {path : Bytes} (hpath : PathFits path encoded)
    (hreply : reply.length = 13) :
    PathEnvelope.Layout (zeroPad (replyBody encoded path reply))
      { pathLenByte := encoded, path := path, extraType := payloadTypeResponse,
        extra := reply ++ replyPadding encoded } (UInt8.ofNat payloadTypeResponse) := by
  have hlen : (replyBody encoded path reply).length = PathUtils.getPathByteLen encoded + 15 := by
    simp only [replyBody, List.length_cons, List.length_append, hpath.2, hreply]
  refine ⟨?_, hpath, rfl⟩
  rw [zeroPad, hlen]
  simp [replyBody, replyPadding, cipherBlockSize]

theorem length_reply (hreply : replyData permissions currentTime random = .ok reply)
    (hrandom : random.length = 4) : reply.length = 13 := by
  obtain ⟨-, rfl⟩ := replyData_ok hreply
  simp [hrandom]

theorem take_reply (hreply : replyData permissions currentTime random = .ok reply) (rest : Bytes) :
    (reply ++ rest).take 4 = Bytes.le 4 currentTime := by
  obtain ⟨-, rfl⟩ := replyData_ok hreply
  rw [List.append_assoc, List.take_left' (Bytes.length_le 4 currentTime)]

theorem read_replyBody (hreply : replyData permissions currentTime random = .ok reply)
    (hrandom : random.length = 4) {path : Bytes} (hpath : PathFits path encoded) :
    LoginReply.decryptResponse payloadTypePath (zeroPad (replyBody encoded path reply)) =
        some (some (replyFields permissions currentTime random)) ∧
      ProtocolResponses.responsePayload payloadTypePath (zeroPad (replyBody encoded path reply)) =
        some (some (reply ++ replyPadding encoded)) := by
  have hlen := length_reply hreply hrandom
  have hlayout := layout_replyBody hpath hlen
  have hne : reply ++ replyPadding encoded ≠ [] := by
    refine List.append_ne_nil_of_left_ne_nil (List.ne_nil_of_length_pos ?_) _
    omega
  rw [LoginReply.decryptResponse_eq_unwrap, hlayout.loginReply_unwrap,
    ProtocolResponses.responsePayload_eq_unwrap, hlayout.protocolResponses_unwrap]
  simp only [Option.bind_some, Option.map_some]
  rw [if_pos ⟨trivial, hne⟩, if_pos ⟨trivial, hne⟩]
  exact ⟨decryptResponse_reply hreply hrandom _, rfl⟩

theorem LoginFrom.opened {body : Bytes} (hfrom : b.LoginFrom c key r)
    (hsecret : c.sharedSecret (c.privateKey b.responses.localIdentity) key = some secret)
    (hbody : body ≠ [])
    (hpayload : r.payload = dest :: src :: c.encryptThenMac (secret.take 16) secret body) :
    ∃ contact before after,
      iterDecryptBySrcHash c b.responses.contacts.contacts.values src b.responses.localIdentity
          (c.encryptThenMac (secret.take 16) secret body) =
        before ++ (contact, secret, zeroPad body) :: after ∧
      (∀ opened ∈ before, LoginReply.decryptResponse r.getPayloadType opened.2.2 = none) ∧
      contact.publicKey = key ∧ key.head? = some src ∧
      (b.decryptLogin c r) = (LoginReply.decryptResponse r.getPayloadType (zeroPad body)).map
        fun data => (contact, data) := by
  obtain ⟨hlayout, hsender⟩ := hfrom
  obtain ⟨⟨contact, data⟩, hlogin, rfl⟩ := Option.map_eq_some_iff.mp hsender
  have hopen := hlogin
  rw [decryptLogin, hlayout, hpayload] at hopen
  obtain ⟨before, ⟨contact', secret', plaintext⟩, after, hsplit, hfound, hbefore⟩ :=
    List.findSome?_eq_some_iff.mp hopen
  obtain ⟨data', hdata, heq⟩ := Option.map_eq_some_iff.mp hfound
  cases heq
  have hmem : (contact, secret', plaintext) ∈ iterDecryptBySrcHash c
      b.responses.contacts.contacts.values src b.responses.localIdentity
      (c.encryptThenMac (secret.take 16) secret body) := by
    have hmem := List.mem_append_right before
      (List.mem_cons_self (a := (contact, secret', plaintext)) (l := after))
    rw [← hsplit] at hmem
    exact hmem
  have hdecrypt := decryptFrom_of_mem_iterDecryptBySrcHash hmem
  rw [decryptFrom_encryptThenMac hsecret hbody] at hdecrypt
  obtain ⟨rfl, rfl⟩ := Prod.mk.inj (Option.some.inj hdecrypt)
  refine ⟨contact, before, after, hsplit, ?_, rfl, head_of_mem_iterDecryptBySrcHash hmem, ?_⟩
  · intro opened hopened
    exact Option.map_eq_none_iff.mp (hbefore opened hopened)
  · rw [hlogin, hdata, Option.map_some]

theorem openResponse_of_opened {body : Bytes} {contact : Contact} {response : Option Bytes}
    {before after : List (Contact × Bytes × Bytes)}
    (hpath : r.getPayloadType = payloadTypePath) (hwell : r.WellFormed)
    (hdest : (c.publicKey b.responses.localIdentity).head? = some dest)
    (hpayload : r.payload = dest :: src :: c.encryptThenMac (secret.take 16) secret body)
    (hbody : body ≠ [])
    (hsplit : iterDecryptBySrcHash c b.responses.contacts.contacts.values src
      b.responses.localIdentity (c.encryptThenMac (secret.take 16) secret body) =
        before ++ (contact, secret, zeroPad body) :: after)
    (hbefore : ∀ opened ∈ before,
      LoginReply.decryptResponse r.getPayloadType opened.2.2 = none)
    (hresponse : ProtocolResponses.responsePayload payloadTypePath (zeroPad body) = some response) :
    b.responses.openResponse c r = some (contact, secret, zeroPad body, response) := by
  have hwhole : r.getPayload = r.payload := by
    rw [Packet.getPayload, hwell.payload_length, List.take_length]
  have hcipher := c.length_encryptThenMac (secret.take 16) secret body
  have hpos : 0 < body.length := List.length_pos_iff.mpr hbody
  simp only [cipherMacSize, cipherBlockSize] at hcipher
  have hclosed : ∀ plaintext, LoginReply.decryptResponse payloadTypePath plaintext = none →
      ProtocolResponses.responsePayload payloadTypePath plaintext = none := by
    intro plaintext hnone
    unfold LoginReply.decryptResponse at hnone
    cases plaintext with
    | nil => rfl
    | cons x rest =>
      rw [← LoginReply.unwrapPath_eq]
      exact Option.map_eq_none_iff.mp hnone
  unfold ProtocolResponses.openResponse
  rw [hpayload, if_neg (by simp only [List.length_cons]; omega)]
  dsimp only
  rw [hdest, if_neg (not_not.mpr rfl), ProtocolResponses.decryptProtocolResponse, hwhole, hpayload,
    if_neg (by simp only [List.length_cons]; omega)]
  simp only [List.drop_succ_cons, List.drop_zero]
  rw [if_neg (by simp only [cipherMacSize, cipherBlockSize]; omega), hsplit,
    List.findSome?_eq_some_iff]
  refine ⟨before, _, after, rfl, ?_, ?_⟩
  · simp only [hpath, hresponse, Option.map_some]
  · intro opened hopened
    have hnone := hbefore opened hopened
    rw [hpath] at hnone ⊢
    rw [hclosed _ hnone]
    rfl

theorem events_pathAck (b : CompanionBridge Seed) (now : Clocks) (r : Packet) :
    ∀ e ∈ (b.pathAck c now r).2.1, ∃ crc tripMs, e = .sendConfirmed crc tripMs := by
  intro e he
  unfold pathAck at he
  split at he
  · cases he
  · dsimp only [tryConfirmSend] at he
    split at he
    · cases he
    · exact ⟨_, _, List.mem_singleton.mp he⟩

theorem undiverted_response_iff {contact : Contact} (other : ResponseEvent → Bool)
    (htype : r.getPayloadType = payloadTypeResponse) (hlong : 4 ≤ r.payload.length)
    (hdest : r.payload.head? = (c.publicKey b.responses.localIdentity).head?)
    (hlogin : b.decryptLogin c r = some (contact, some data))
    (hpending : contact.publicKey ∈ b.pendingLogins)
    (hhash : contact.publicKey.head? = some (b.loginLayout c r.payload).2) (now : Clocks)
    (noise : Bytes) :
    Undiverted other contact.publicKey data (b.processReceivedPacket c now noise r).2.1 ↔
      ¬ (b.hasPendingRequestTag now.time data.timestamp contact.publicKey).2 = true := by
  have hevents : (b.processReceivedPacket c now noise r).2.1 =
      (b.loginResponse c now noise r).2.1 := by
    rw [processReceivedPacket, htype]
    rfl
  rw [hevents, events_loginResponse hlong hdest hlogin hpending hhash now noise]
  split
  · rename_i hforeign
    refine iff_of_false ?_ (not_not.mpr hforeign)
    rintro ⟨hcallback, -⟩
    rw [forwardToProtocolHandler, htype, if_neg (by decide), callResponses] at hcallback
    obtain ⟨e, -, he⟩ := List.mem_map.mp hcallback
    cases he
  · rename_i hown
    refine iff_of_true ⟨List.mem_singleton_self _, fun e he => ?_⟩ hown
    cases List.mem_singleton.mp he

theorem events_path (b : CompanionBridge Seed) (htype : r.getPayloadType = payloadTypePath)
    (now : Clocks) (noise : Bytes) :
    ∃ acked, (∀ e ∈ acked, ∃ crc tripMs, e = .sendConfirmed crc tripMs) ∧
      (b.processReceivedPacket c now noise r).2.1 = (b.callResponses c now noise r).2.1 ++
        ((b.callResponses c now noise r).1.loginResponse c now noise r).2.1 ++ acked := by
  have hacked := events_pathAck (c := c)
    ((b.callResponses c now noise r).1.loginResponse c now noise r).1 now r
  refine ⟨_, hacked, ?_⟩
  rw [processReceivedPacket, htype]
  rfl

/-- The callback is called where the reply is not forwarded. Nothing else can answer another
request than what was delivered to the handler for responses. -/
theorem undiverted_events_iff {other : ResponseEvent → Bool}
    {learned delivered : List ResponseEvent} {acked : List BridgeEvent}
    (hlearned : ∀ e ∈ learned, other e = false)
    (hacked : ∀ e ∈ acked, ∃ crc tripMs, e = .sendConfirmed crc tripMs) (forwarded : Bool) :
    Undiverted other key data ((learned ++ delivered).map .response ++
        (if forwarded then [] else [.loginCallback key data.success data]) ++ acked) ↔
      ¬ forwarded = true ∧ ∀ e ∈ delivered, other e = false := by
  have hcallback : .loginCallback key data.success data ∉ acked := by
    intro hmem
    obtain ⟨crc, tripMs, he⟩ := hacked _ hmem
    cases he
  have hresponse : ∀ e, .response e ∉ acked := by
    intro e hmem
    obtain ⟨crc, tripMs, he⟩ := hacked _ hmem
    cases he
  simp only [Undiverted, List.mem_append, List.mem_map, hcallback, hresponse, or_false]
  cases forwarded with
  | true => simp
  | false =>
    have hquiet : (∀ e, e ∈ learned ∨ e ∈ delivered → other e = false) ↔
        ∀ e ∈ delivered, other e = false := by
      constructor
      · intro h e he
        exact h e (Or.inr he)
      · rintro h e (he | he)
        · exact hlearned e he
        · exact h e he
    simpa using hquiet

/-- A reply in a path return is passed on if the handler for responses leaves it alone and no
request with its tag. -/
theorem undiverted_path_iff {contact : Contact} {response opened : Bytes}
    {other : ResponseEvent → Bool}
    (hother : ∀ e, ProtocolResponses.ofPath e = true → other e = false)
    (htype : r.getPayloadType = payloadTypePath) (hlong : 4 ≤ r.payload.length)
    (hdest : r.payload.head? = (c.publicKey b.responses.localIdentity).head?) (now : Clocks)
    (noise : Bytes)
    (hopen : b.responses.openResponse c r = some (contact, secret, opened, some response))
    (hlogin : ∃ contact₁, (b.callResponses c now noise r).1.decryptLogin c r =
      some (contact₁, some data) ∧ contact₁.publicKey = contact.publicKey)
    (hpending : contact.publicKey ∈ b.pendingLogins)
    (hhash : contact.publicKey.head? = some (b.loginLayout c r.payload).2)
    (htag : response.take 4 = Bytes.le 4 data.timestamp) (hlt : data.timestamp < 256 ^ 4) :
    Undiverted other contact.publicKey data (b.processReceivedPacket c now noise r).2.1 ↔
      Passes other now.time contact.publicKey (response.take 4)
        (b.responses.deliver now.time r contact.publicKey opened (some response)) := by
  obtain ⟨contact₁, hlogin, hkey⟩ := hlogin
  have hreads := reads_callResponses (c := c) b now noise r
  obtain ⟨contacts, learned, hlearned, hcall⟩ :=
    ProtocolResponses.call_of_open hopen now.time noise
  generalize hd : b.responses.deliver now.time r contact.publicKey opened (some response) = d at *
  have hforeign : ((b.callResponses c now noise r).1.hasPendingRequestTag now.time data.timestamp
      contact.publicKey).2 = true ↔ Awaited d.1 now.time contact.publicKey (response.take 4) := by
    have hresponses : (b.callResponses c now noise r).1.responses =
        { d.1 with contacts := contacts } := congrArg Prod.fst hcall
    rw [hasPendingRequestTag_iff, hresponses, Awaited, htag, Bytes.toNatLE_le 4 _ hlt]
    rfl
  have hlogged : ((b.callResponses c now noise r).1.loginResponse c now noise r).2.1 =
      if ((b.callResponses c now noise r).1.hasPendingRequestTag now.time data.timestamp
        contact.publicKey).2 then []
      else [.loginCallback contact.publicKey data.success data] := by
    have hlayout : (b.callResponses c now noise r).1.loginLayout c r.payload =
        b.loginLayout c r.payload := by
      rw [loginLayout, loginLayout, hreads.identity]
    rw [events_loginResponse hlong (by rw [hreads.identity, hdest]) hlogin
      (by rw [hkey]; exact hpending) (by rw [hkey, hlayout, hhash]), hkey,
      forwardToProtocolHandler, htype, if_pos rfl]
  have hanswered : (b.callResponses c now noise r).2.1 = (learned ++ d.2).map .response :=
    congrArg (fun called => called.2.1.map BridgeEvent.response) hcall
  obtain ⟨acked, hacked, hevents⟩ := events_path b htype now noise
  rw [hevents, hlogged, hanswered,
    undiverted_events_iff (fun e he => hother e (hlearned e he)) hacked, hforeign, Passes]

theorem isLoginReply_reply (hreply : replyData permissions currentTime random = .ok reply)
    (hrandom : random.length = 4) (encoded : ℕ) :
    isLoginReply ((reply ++ replyPadding encoded).drop 4) = true ↔
      PathUtils.getPathByteLen encoded % 16 = 1 := by
  obtain ⟨-, rfl⟩ := replyData_ok hreply
  rw [List.append_assoc, List.drop_left' (Bytes.length_le 4 currentTime), isLoginReply]
  simp only [respServerLoginOk, replyPadding, List.cons_append, List.length_cons,
    List.length_append, hrandom, List.length_nil, List.length_replicate, List.head?_cons,
    beq_self_eq_true, Bool.true_or, Bool.and_true, beq_iff_eq]
  omega

theorem sharedSecret_of_openAnonRequest {server : Seed} {payload clientPubkey plaintext : Bytes}
    (h : openAnonRequest c server payload = some (clientPubkey, secret, plaintext)) :
    c.sharedSecret (c.privateKey server) clientPubkey = some secret := by
  unfold openAnonRequest at h
  split at h
  · cases h
  split at h
  · cases h
  obtain ⟨secret', hsecret, h⟩ := Option.bind_eq_some_iff.mp h
  obtain ⟨plaintext', -, h⟩ := Option.map_eq_some_iff.mp h
  cases h
  exact hsecret

theorem length_envelope_ge (dest src : UInt8) (secret body : Bytes) :
    4 ≤ (dest :: src :: c.encryptThenMac (secret.take 16) secret body).length := by
  rw [List.length_cons, List.length_cons, c.length_encryptThenMac, cipherMacSize]
  omega

theorem undiverted_reply_iff (hreply : replyData permissions currentTime random = .ok reply)
    (hrandom : random.length = 4)
    (hsecret : c.sharedSecret (c.privateKey b.responses.localIdentity) key = some secret)
    (hdest : (c.publicKey b.responses.localIdentity).head? = some dest)
    (htype : r.getPayloadType = payloadTypeResponse)
    (hpayload : r.payload = dest :: src :: c.encryptThenMac (secret.take 16) secret reply)
    (hpending : key ∈ b.pendingLogins) (hfrom : b.LoginFrom c key r)
    (other : ResponseEvent → Bool) (now : Clocks) (noise : Bytes) :
    Undiverted other key (replyFields permissions currentTime random)
        (b.processReceivedPacket c now noise r).2.1 ↔
      ¬ Awaited b.responses now.time key (Bytes.le 4 currentTime) := by
  have hlen := length_reply hreply hrandom
  have hne : reply ≠ [] := List.ne_nil_of_length_pos (by omega)
  have hlt := (replyData_ok hreply).1
  obtain ⟨contact, -, -, -, -, hkey, hhead, hlogin⟩ := hfrom.opened hsecret hne hpayload
  obtain ⟨zeros, -, hzeros⟩ := exists_zeroPad_eq reply
  rw [htype, hzeros, decryptResponse_reply hreply hrandom, Option.map_some] at hlogin
  rw [← hkey] at hpending hhead ⊢
  rw [undiverted_response_iff other htype (by rw [hpayload]; exact length_envelope_ge ..)
    (by rw [hpayload, hdest]; rfl) hlogin hpending (by rw [hfrom.1, hhead, hpayload]; rfl)
    now noise, hasPendingRequestTag_iff, Awaited, Bytes.toNatLE_le 4 _ hlt]
  rfl

theorem undiverted_replyBody_iff (hreply : replyData permissions currentTime random = .ok reply)
    (hrandom : random.length = 4)
    (hsecret : c.sharedSecret (c.privateKey b.responses.localIdentity) key = some secret)
    (hdest : (c.publicKey b.responses.localIdentity).head? = some dest)
    (htype : r.getPayloadType = payloadTypePath) (hwell : r.WellFormed) {path : Bytes}
    (hpath : PathFits path encoded)
    (hpayload : r.payload = dest :: src :: c.encryptThenMac (secret.take 16) secret
      (replyBody encoded path reply))
    (hpending : key ∈ b.pendingLogins) (hfrom : b.LoginFrom c key r)
    {other : ResponseEvent → Bool}
    (hother : ∀ e, ProtocolResponses.ofPath e = true → other e = false) (now : Clocks)
    (noise : Bytes) :
    Undiverted other key (replyFields permissions currentTime random)
        (b.processReceivedPacket c now noise r).2.1 ↔
      Passes other now.time key ((reply ++ replyPadding encoded).take 4)
        (b.responses.deliver now.time r key (zeroPad (replyBody encoded path reply))
          (some (reply ++ replyPadding encoded))) := by
  have hlt := (replyData_ok hreply).1
  have htag := take_reply hreply (replyPadding encoded)
  have hbody : replyBody encoded path reply ≠ [] := List.cons_ne_nil _ _
  obtain ⟨contact, before, after, hsplit, hbefore, hkey, hhead, -⟩ :=
    hfrom.opened hsecret hbody hpayload
  obtain ⟨hread, hresponse⟩ := read_replyBody hreply hrandom hpath
  have hopened := openResponse_of_opened htype hwell hdest hpayload hbody hsplit hbefore hresponse
  have hreads := reads_callResponses (c := c) b now noise r
  obtain ⟨contact₁, -, -, -, -, hkey₁, -, hlogin⟩ :=
    (hfrom.of_reads hreads).opened (by rw [hreads.identity]; exact hsecret) hbody hpayload
  rw [htype, hread, Option.map_some] at hlogin
  rw [← hkey] at hpending hhead hkey₁ ⊢
  exact undiverted_path_iff hother htype (by rw [hpayload]; exact length_envelope_ge ..)
    (by rw [hpayload, hdest]; rfl) now noise hopened ⟨contact₁, hlogin, hkey₁⟩ hpending
    (by rw [hfrom.1, hhead, hpayload]; rfl) htag hlt

/-- A reply of the server to a login that waits is passed to its callback and to nothing else, as
long as no request waits for a tag that equals the server's clock and, in a path return, the handler
for responses takes it for a login reply. -/
theorem login_reply_iff {h : LoginServerHandler Seed} {request p r : Packet}
    {plaintext : Bytes}
    (hopen : openAnonRequest c h.localIdentity request.payload =
      some (c.publicKey b.responses.localIdentity, secret, plaintext))
    (hrandom : random.length = 4)
    (hsend : (h.call c request currentTime random).response = some p)
    (hwell : r.WellFormed) (hpayload : r.payload = p.payload)
    (htype : r.getPayloadType = p.getPayloadType)
    (hpending : c.publicKey h.localIdentity ∈ b.pendingLogins)
    (hfrom : b.LoginFrom c (c.publicKey h.localIdentity) r) (now : Clocks) (noise : Bytes) :
    ∃ asked, (h.call c request currentTime random).calls = [asked] ∧
      (r.getPayloadType = payloadTypeResponse ∧
        (∀ other, Undiverted other (c.publicKey h.localIdentity)
            (replyFields (h.authenticate asked).2 currentTime random)
            (b.processReceivedPacket c now noise r).2.1 ↔
          ¬ Awaited b.responses now.time (c.publicKey h.localIdentity) (Bytes.le 4 currentTime)) ∨
      r.getPayloadType = payloadTypePath ∧
        (Undiverted completesOther (c.publicKey h.localIdentity)
            (replyFields (h.authenticate asked).2 currentTime random)
            (b.processReceivedPacket c now noise r).2.1 ↔
          ¬ Awaited b.responses now.time (c.publicKey h.localIdentity) (Bytes.le 4 currentTime) ∧
            (currentTime ∈ b.responses.pendingDiscoveryTags →
              PathUtils.getPathByteLen request.pathLen % 16 = 1)) ∧
        (Undiverted answersOther (c.publicKey h.localIdentity)
            (replyFields (h.authenticate asked).2 currentTime random)
            (b.processReceivedPacket c now noise r).2.1 ↔
          ¬ Awaited b.responses now.time (c.publicKey h.localIdentity) (Bytes.le 4 currentTime) ∧
            PathUtils.getPathByteLen request.pathLen % 16 = 1)) := by
  obtain ⟨asked, reply, hcalls, hreply, hbuilt⟩ := response_call hopen hsend
  refine ⟨asked, hcalls, ?_⟩
  have hlen := length_reply hreply hrandom
  have hne : reply ≠ [] := List.ne_nil_of_length_pos (by omega)
  obtain ⟨dest, hdest⟩ := c.exists_head_publicKey b.responses.localIdentity
  obtain ⟨src, hsrc⟩ := c.exists_head_publicKey h.localIdentity
  have hsecret := sharedSecret_of_openAnonRequest hopen
  rw [c.sharedSecret_comm] at hsecret
  have hcarries := carriesReply_of_buildLoginResponse hdest hsrc hne hbuilt
  rw [← hpayload, ← htype] at hcarries
  generalize hrtype : r.getPayloadType = t at hcarries ⊢
  generalize hrpayload : r.payload = d at hcarries
  cases hcarries with
  | response =>
    refine Or.inl ⟨rfl, fun other => ?_⟩
    exact undiverted_reply_iff hreply hrandom hsecret hdest hrtype hrpayload hpending hfrom other
      now noise
  | @pathReturn path hpath =>
    refine Or.inr ⟨rfl, ?_⟩
    have hresponded : 4 ≤ (reply ++ replyPadding request.pathLen).length := by
      rw [List.length_append]
      omega
    obtain ⟨hcompletes, hanswers⟩ := deliver_passes_iff b.responses now.time
      (c.publicKey h.localIdentity) (zeroPad (replyBody request.pathLen path reply)) hrtype
      hresponded
    have hcompleted := undiverted_replyBody_iff hreply hrandom hsecret hdest hrtype hwell hpath
      hrpayload hpending hfrom (fun e he => (quiet_of_ofPath he).1) now noise
    have hanswered := undiverted_replyBody_iff hreply hrandom hsecret hdest hrtype hwell hpath
      hrpayload hpending hfrom (fun e he => (quiet_of_ofPath he).2) now noise
    rw [hcompleted, hanswered, hcompletes, hanswers, take_reply hreply,
      Bytes.toNatLE_le 4 _ (replyData_ok hreply).1, isLoginReply_reply hreply hrandom]
    exact ⟨Iff.rfl, Iff.rfl⟩

end

open AnonRequestHandler (roomServer roomServerContact)

/-- A client that waits for a login at the room server, with the binary requests it waits for. -/
def roomClient (requests : Dict Bytes BinaryRequest) : CompanionBridge Bytes :=
  { responses :=
      { localIdentity := [0xA0]
        cls := { isSpace := fun ch => ch = ' ', isPrintable := fun _ => true }
        contacts := ContactStore.put {} roomServerContact
        pendingBinaryRequests := requests }
    pendingLogins := {xorCrypto.publicKey [0xB0]}
    keyed := ContactStore.Keyed.put (by intro key contact h; cases h) roomServerContact }

/-- The login of the client with the password of the room, as a flood or directly. -/
def roomLogin (header : ℕ) : Packet :=
  { header := header
    payload := 0xB0 :: (xorCrypto.publicKey [0xA0] ++ xorCrypto.encryptThenMac
      (0x10 :: List.replicate 15 0) (0x10 :: List.replicate 31 0)
        (Bytes.le 4 1000 ++ Bytes.le 4 7 ++ Utf8.encode ['p', 'w']))
    payloadLen := 51 }

/-- The reply to the flooded login. -/
def roomPathReply : Packet :=
  { header := 33
    payload := [0xA0, 0xB0, 0, 0, 16, 1, 208, 7, 0, 0, 0, 0, 1, 3, 1, 2, 3, 4, 2, 0]
    payloadLen := 20
    pathHashModeApplied := true }

/-- The reply to the direct login. -/
def roomReply : Packet :=
  { header := 5
    payload := [0xA0, 0xB0, 0, 0, 192, 7, 0, 0, 0, 0, 1, 3, 1, 2, 3, 4, 2, 0, 0, 0]
    payloadLen := 20
    pathHashModeApplied := true }

theorem response_roomLogin :
    (roomServer.loginHandler.call xorCrypto (roomLogin 29) 2000 [1, 2, 3, 4]).response =
        some roomPathReply ∧
      (roomServer.loginHandler.call xorCrypto (roomLogin 30) 2000 [1, 2, 3, 4]).response =
        some roomReply := by
  decide +kernel

/-- A request with the server's clock for its tag is completed by the reply to the login. -/
theorem login_reply_diverted :
    (roomServer.loginHandler.call xorCrypto (roomLogin 30) 2000 [1, 2, 3, 4]).response =
        some roomReply ∧
      (roomClient (Dict.empty.set [208, 7, 0, 0] ⟨1, 60⟩)).LoginFrom xorCrypto
        (xorCrypto.publicKey [0xB0]) roomReply ∧
      ((roomClient (Dict.empty.set [208, 7, 0, 0] ⟨1, 60⟩)).processReceivedPacket xorCrypto
        ⟨50, 50⟩ [] roomReply).2.1 =
        [.response (.binaryResponse [208, 7, 0, 0] [0, 0, 1, 3, 1, 2, 3, 4, 2, 0, 0, 0]
          (some 1))] := by
  refine ⟨response_roomLogin.2, ⟨?_, ?_⟩, ?_⟩ <;> decide +kernel

/-- With no request pending the flooded login is answered and nothing else. -/
theorem login_reply_iff_room :
    Undiverted completesOther (xorCrypto.publicKey [0xB0])
      (LoginServerHandler.replyFields 3 2000 [1, 2, 3, 4])
      ((roomClient Dict.empty).processReceivedPacket xorCrypto ⟨50, 50⟩ [] roomPathReply).2.1 := by
  have hopen : openAnonRequest xorCrypto roomServer.loginHandler.localIdentity
      (roomLogin 29).payload = some (xorCrypto.publicKey [0xA0], 0x10 :: List.replicate 31 0,
        zeroPad (Bytes.le 4 1000 ++ Bytes.le 4 7 ++ Utf8.encode ['p', 'w'])) :=
    openAnonRequest_encryptThenMac rfl (by decide +kernel) (by decide)
  have hwell : roomPathReply.WellFormed :=
    ⟨⟨rfl, rfl, by decide, by decide, by decide, by decide⟩, rfl, fun _ => rfl, rfl⟩
  have hfrom : (roomClient Dict.empty).LoginFrom xorCrypto (xorCrypto.publicKey [0xB0])
      roomPathReply := by
    constructor <;> decide +kernel
  obtain ⟨asked, hcalls, hreply⟩ := login_reply_iff (b := roomClient Dict.empty) hopen rfl
    response_roomLogin.1 hwell rfl rfl (Finset.mem_singleton_self _) hfrom ⟨50, 50⟩ []
  rcases hreply with ⟨hresponse, -⟩ | ⟨-, hcompletes, -⟩
  · cases hresponse
  · refine hcompletes.mpr ⟨?_, fun htag => ?_⟩
    · rintro (hwaiter | ⟨info, hinfo, -⟩)
      · cases hwaiter
      · cases hinfo
    · cases htag

end CompanionBridge

end OpenHop
