import OpenHop.Node.TextMessage
import OpenHop.Protocol.LoginPacket

/-! # Logins on a server

A server opens anonymous requests with the key they carry. A room server takes each of them
for a login; a repeater looks at the byte behind the timestamp, which is the first of a
password or the number of a discovery request.
-/

namespace OpenHop

/-- What the application is asked to check. -/
structure AuthenticateCall where
  clientPubkey : Bytes
  sharedSecret : Bytes
  password : List Char
  timestamp : ℕ
  syncSince : Option ℕ
  deriving DecidableEq

/-- `takesSyncSince` tells whether the application's function has that parameter. -/
structure LoginServerHandler (Seed : Type) where
  localIdentity : Seed
  isRoomServer : Bool := false
  takesSyncSince : Bool := true
  authenticate : AuthenticateCall → Bool × ℕ
  getOutPath : Option (Bytes → Option (Bytes × ℤ)) := none

/-- Whether a request was for this node, the calls made for it, the client whose stored path is
forgotten and the packet sent in answer. -/
structure LoginOutcome where
  forUs : Bool
  calls : List AuthenticateCall := []
  clearedOutPath : Option Bytes := none
  response : Option Packet := none
  deriving DecidableEq

/-- The sender's key, the shared secret and the plaintext of a request for this node. -/
def openAnonRequest {Seed : Type} (c : Crypto Seed) (localIdentity : Seed) (payload : Bytes) :
    Option (Bytes × Bytes × Bytes) :=
  if payload.length < 34 then none
  else if payload.head? ≠ (c.publicKey localIdentity).head? then none
  else
    let clientPubkey := (payload.take 33).drop 1
    (c.sharedSecret (c.privateKey localIdentity) clientPubkey).bind fun sharedSecret =>
      (c.macThenDecrypt (sharedSecret.take 16) sharedSecret (payload.drop 33)).map fun plaintext =>
        (clientPubkey, sharedSecret, plaintext)

namespace LoginServerHandler

variable {Seed : Type} (c : Crypto Seed)

/-- `RESP_SERVER_LOGIN_OK`, as the server sends it. -/
def respServerLoginOk : UInt8 := 0x00

/-- `FIRMWARE_VER_LEVEL` -/
def firmwareVerLevel : UInt8 := 2

def aclIsAdmin (permissions : ℕ) : Bool := permissions &&& 0x03 == 3

/-- The timestamp, the sync time of a room login and the password, if the plaintext is complete. -/
def parseLogin (h : LoginServerHandler Seed) (plaintext : Bytes) :
    Option (ℕ × Option ℕ × List Char) :=
  if plaintext.length < 4 then none
  else
    let clientTimestamp := Bytes.toNatLE (plaintext.take 4)
    if h.isRoomServer then
      if plaintext.length < 8 then none
      else
        some (clientTimestamp, some (Bytes.toNatLE ((plaintext.take 8).drop 4)),
          Utf8.decodeIgnore ((plaintext.drop 8).takeWhile (· ≠ 0)))
    else
      some (clientTimestamp, none, Utf8.decodeIgnore ((plaintext.drop 4).takeWhile (· ≠ 0)))

/-- A stored path to the client, cut to its declared length; one that is too short is not used. -/
def lookupOutPath (h : LoginServerHandler Seed) (clientPubkey : Bytes) : Option (Bytes × ℕ) := do
  let getOutPath ← h.getOutPath
  let (pathBytes, rawPathLen) ← getOutPath clientPubkey
  if rawPathLen < 0 ∨ ¬ PathUtils.isValidPathLen rawPathLen.toNat then none
  else
    let expected := PathUtils.getPathByteLen rawPathLen.toNat
    if pathBytes.length < expected then none
    else some (pathBytes.take expected, rawPathLen.toNat)

/-- The reply: time, code, keep-alive, admin flag, permissions, four random bytes and version. -/
def replyData (permissions currentTime : ℕ) (random : Bytes) : Except PacketError Bytes := do
  let time ← PacketBuilder.packUInt32 currentTime
  let permissionsByte ← Packet.byte permissions
  return time ++ [respServerLoginOk, 0, if aclIsAdmin permissions then 1 else 0] ++
    permissionsByte ++ random ++ [firmwareVerLevel]

def createPathReply (localIdentity : Seed) (clientPubkey sharedSecret : Bytes) (request : Packet)
    (reply : Bytes) : Except PacketError Packet := do
  let clientHash ← PacketBuilder.hashByte clientPubkey
  let serverHash ← PacketBuilder.hashByte (c.publicKey localIdentity)
  let (path, encoded) :=
    if request.pathLen > 0 then
      (request.path.take (PathUtils.getPathByteLen request.pathLen), some request.pathLen)
    else ([], none)
  PacketBuilder.createPathReturn c clientHash serverHash sharedSecret path payloadTypeResponse
    reply encoded []

def buildLoginResponse (h : LoginServerHandler Seed) (clientPubkey sharedSecret : Bytes)
    (request : Packet) (reply : Bytes) : Except PacketError Packet := do
  let pkt ← if request.isRouteFlood then
      createPathReply c h.localIdentity clientPubkey sharedSecret request reply
    else
      match h.lookupOutPath clientPubkey with
      | some (path, encoded) => do
        let pkt ← PacketBuilder.createDatagram c payloadTypeResponse clientPubkey h.localIdentity
          sharedSecret reply
        pkt.setPath (path.take maxPathSize) (some encoded)
      | none =>
        PacketBuilder.createDatagram c payloadTypeResponse clientPubkey h.localIdentity sharedSecret
          reply .flood
  if pkt.isRouteFlood then
    let pkt ← pkt.applyPathHashMode (request.incomingHashSize - 1) true
    TextMessageHandler.scopedReply c pkt request
  else return pkt

/-- A client whose login came as a flood is forgotten with its path, even if no reply follows. -/
def sendLoginResponse (h : LoginServerHandler Seed) (clientPubkey sharedSecret : Bytes)
    (request : Packet) (permissions currentTime : ℕ) (random : Bytes) :
    Option Bytes × Option Packet :=
  match replyData permissions currentTime random with
  | .error _ => (none, none)
  | .ok reply =>
    (if request.isRouteFlood then some clientPubkey else none,
      (h.buildLoginResponse c clientPubkey sharedSecret request reply).toOption)

/-- A failure to build the answer leaves the login as it was. -/
def call (h : LoginServerHandler Seed) (packet : Packet) (currentTime : ℕ) (random : Bytes) :
    LoginOutcome :=
  match openAnonRequest c h.localIdentity packet.payload with
  | none => { forUs := false }
  | some (clientPubkey, sharedSecret, plaintext) =>
    match h.parseLogin plaintext with
    | none => { forUs := true }
    | some (clientTimestamp, syncSince, password) =>
      let request : AuthenticateCall :=
        { clientPubkey := clientPubkey
          sharedSecret := sharedSecret
          password := password
          timestamp := clientTimestamp
          syncSince := if h.takesSyncSince then syncSince else none }
      let (success, permissions) := h.authenticate request
      let (cleared, response) :=
        if success then
          h.sendLoginResponse c clientPubkey sharedSecret packet permissions currentTime random
        else (none, none)
      { forUs := true, calls := [request], clearedOutPath := cleared, response := response }

end LoginServerHandler

/-- A window of fixed length that admits a number of replies. -/
structure AnonRateLimiter where
  maximum : ℕ := 4
  secs : ℚ := 180
  startTimestamp : ℚ := 0
  count : ℕ := 0
  deriving DecidableEq

def AnonRateLimiter.allow (l : AnonRateLimiter) (now : ℚ) : Bool × AnonRateLimiter :=
  if now < l.startTimestamp + l.secs then
    (decide (l.count + 1 ≤ l.maximum), { l with count := l.count + 1 })
  else (true, { l with startTimestamp := now, count := 1 })

/-- The requests that are answered with data of the application. -/
inductive Discovery where
  | regions | owner | basic
  deriving DecidableEq

def Discovery.ofSubtype (subtype : ℕ) : Option Discovery :=
  if subtype = 0x01 then some .regions
  else if subtype = 0x02 then some .owner
  else if subtype = 0x03 then some .basic
  else none

/-- What the application tells anyone who asks. -/
structure PublicInfo where
  regionNames : List Char := []
  nodeName : List Char := []
  ownerInfo : List Char := []
  features : ℕ := 0
  deriving DecidableEq

inductive AnonOutcome where
  | notForUs
  | ignored
  | login (outcome : LoginOutcome)
  | discovery (kind : Discovery) (response : Option Packet)
  deriving DecidableEq

/-- The calls to the application that a request leads to. -/
def AnonOutcome.calls : AnonOutcome → List AuthenticateCall
  | .login outcome => outcome.calls
  | _ => []

structure AnonRequestHandler (Seed : Type) where
  localIdentity : Seed
  loginHandler : LoginServerHandler Seed
  anonLimiter : AnonRateLimiter := {}
  info : PublicInfo := {}

namespace AnonRequestHandler

variable {Seed : Type} (c : Crypto Seed)

/-- Names that do not fit are cut at the last comma, if there is one behind the first byte. -/
def trimNames (names : Bytes) : Bytes :=
  let maxNames := maxPacketPayload - 24
  if names.length > maxNames then
    let names := names.take maxNames
    let cut := (names.reverse.dropWhile (· ≠ ','.toUInt8)).reverse.dropLast
    if cut ≠ [] then cut else names
  else names

def discoveryBody (info : PublicInfo) : Discovery → Bytes
  | .regions => trimNames (Utf8.encode info.regionNames)
  | .owner => Utf8.encode (info.nodeName ++ '\n' :: info.ownerInfo)
  | .basic => [UInt8.ofNat (info.features &&& 0xFF)]

def handleDiscovery (h : AnonRequestHandler Seed) (packet : Packet)
    (clientPubkey sharedSecret : Bytes) (kind : Discovery) (plaintext : Bytes) (clock : ℕ) :
    Except PacketError Packet := do
  let replyPathByte := (plaintext.getD 5 0).toNat
  let replyPathLen := replyPathByte &&& 0x3F
  let hashSize := (replyPathByte >>> 6) + 1
  let pathBytes := (plaintext.drop 6).take (replyPathLen * hashSize)
  let reply := plaintext.take 4 ++ Bytes.le 4 (clock % 2 ^ 32) ++ discoveryBody h.info kind
  let pkt ← if packet.isRouteFlood then do
      let pkt ← LoginServerHandler.createPathReply c h.localIdentity clientPubkey sharedSecret
        packet reply
      pkt.applyPathHashMode (packet.incomingHashSize - 1) true
    else do
      let pkt ← PacketBuilder.createDatagram c payloadTypeResponse clientPubkey h.localIdentity
        sharedSecret reply
      if 0 < replyPathLen ∧ pathBytes ≠ [] then
        let encoded ← PathUtils.encodePathLen hashSize replyPathLen
        pkt.setPath pathBytes (some encoded)
      else pure pkt
  TextMessageHandler.scopedReply c pkt packet

/-- What a request leads to, and the limiter after it. -/
def call (h : AnonRequestHandler Seed) (packet : Packet) (now : ℚ) (currentTime : ℕ)
    (random : Bytes) : AnonRateLimiter × AnonOutcome :=
  match openAnonRequest c h.localIdentity packet.payload with
  | none => (h.anonLimiter, .notForUs)
  | some (clientPubkey, sharedSecret, plaintext) =>
    let login := AnonOutcome.login (h.loginHandler.call c packet currentTime random)
    -- the byte is part of the sync time where the server is a room
    if h.loginHandler.isRoomServer then (h.anonLimiter, login)
    else
      match plaintext[4]? with
      | none => (h.anonLimiter, login)
      | some subtype =>
        if subtype = 0x00 ∨ subtype ≥ 0x20 then (h.anonLimiter, login)
        else
          match Discovery.ofSubtype subtype.toNat with
          | none => (h.anonLimiter, .ignored)
          | some kind =>
            if ¬ packet.isRouteDirect then (h.anonLimiter, .ignored)
            else
              let (allowed, limiter) := h.anonLimiter.allow now
              if allowed then
                (limiter, .discovery kind (h.handleDiscovery c packet clientPubkey sharedSecret kind
                  plaintext currentTime).toOption)
              else (limiter, .ignored)

end AnonRequestHandler

section

variable {Seed : Type} {c : Crypto Seed}

theorem openAnonRequest_encryptThenMac {client server : Seed} {secret plaintext : Bytes}
    {destHash : UInt8} (hdest : (c.publicKey server).head? = some destHash)
    (hsecret : c.sharedSecret (c.privateKey server) (c.publicKey client) = some secret)
    (hplain : plaintext ≠ []) :
    openAnonRequest c server (destHash :: (c.publicKey client ++
        c.encryptThenMac (secret.take 16) secret plaintext)) =
      some (c.publicKey client, secret, zeroPad plaintext) := by
  have hkey : (c.publicKey client).length = 32 := c.length_publicKey client
  have hcipher := c.length_encryptThenMac (secret.take 16) secret plaintext
  simp only [cipherMacSize, cipherBlockSize] at hcipher
  have hlen : ¬ (destHash :: (c.publicKey client ++
      c.encryptThenMac (secret.take 16) secret plaintext)).length < 34 := by
    rw [List.length_cons, List.length_append, hkey, hcipher]
    omega
  unfold openAnonRequest
  rw [if_neg hlen, hdest, if_neg (by simp)]
  simp only [List.take_succ_cons, List.drop_succ_cons, List.drop_zero, List.take_left' hkey,
    List.drop_left' hkey, hsecret, Option.bind_some, c.macThenDecrypt_encryptThenMac _ _ hplain,
    Option.map_some]

variable {contact : Contact} {password : List Char} {timestamp : ℕ}

theorem zero_notMem_take_encode (h : '\x00' ∉ password) (n : ℕ) :
    0 ∉ (Utf8.encode password).take n :=
  fun hmem => Utf8.zero_notMem_encode h (List.mem_of_mem_take hmem)

/-- The server finds the fields of a login of its own kind, and the password ends where the
padding begins. -/
theorem LoginServerHandler.parseLogin_append (h : LoginServerHandler Seed)
    (hroom : h.isRoomServer = decide (contact.advType = PacketBuilder.contactTypeRoomServer))
    (hts : timestamp < 256 ^ 4) (hsync : contact.syncSince < 256 ^ 4)
    (hnul : '\x00' ∉ password) (n : ℕ) :
    h.parseLogin (Bytes.le 4 timestamp ++ (PacketBuilder.loginSync contact ++
        (Utf8.encode password).take 15) ++ List.replicate n 0) =
      some (timestamp, if h.isRoomServer then some contact.syncSince else none,
        Utf8.fit 15 password) := by
  have htext : Utf8.decodeIgnore (((Utf8.encode password).take 15 ++ List.replicate n 0).takeWhile
      (· ≠ 0)) = Utf8.fit 15 password := by
    rw [Bytes.takeWhile_append_zeros (zero_notMem_take_encode hnul 15),
      Utf8.decodeIgnore_take_encode]
  have htime : Bytes.toNatLE (Bytes.le 4 timestamp) = timestamp := Bytes.toNatLE_le 4 _ hts
  rw [List.append_assoc, List.append_assoc]
  unfold parseLogin PacketBuilder.loginSync
  cases hkind : h.isRoomServer with
  | false =>
    rw [hkind, eq_comm, decide_eq_false_iff_not] at hroom
    rw [if_neg hroom, List.nil_append, List.take_left' (Bytes.length_le 4 timestamp),
      List.drop_left' (Bytes.length_le 4 timestamp), if_neg (by simp), htime, htext]
    rfl
  | true =>
    rw [hkind, eq_comm, decide_eq_true_iff] at hroom
    have hsince : Bytes.toNatLE (Bytes.le 4 contact.syncSince) = contact.syncSince :=
      Bytes.toNatLE_le 4 _ hsync
    have hboth : (Bytes.le 4 timestamp ++ Bytes.le 4 contact.syncSince).length = 8 := by simp
    have hlong : ¬ (Bytes.le 4 timestamp ++ (Bytes.le 4 contact.syncSince ++
        ((Utf8.encode password).take 15 ++ List.replicate n 0))).length < 8 := by
      simp only [List.length_append, Bytes.length_le]
      omega
    rw [if_pos hroom, if_neg (by simp), List.take_left' (Bytes.length_le 4 timestamp), htime,
      ← List.append_assoc (Bytes.le 4 timestamp), List.take_left' hboth, List.drop_left' hboth,
      List.drop_left' (Bytes.length_le 4 timestamp), hsince, htext, List.append_assoc]
    dsimp only
    rw [if_pos rfl]
    exact if_neg hlong

theorem LoginServerHandler.calls_call (h : LoginServerHandler Seed) {q : Packet}
    {clientPubkey secret plaintext : Bytes} {syncSince : Option ℕ}
    (hopen : openAnonRequest c h.localIdentity q.payload = some (clientPubkey, secret, plaintext))
    (hparse : h.parseLogin plaintext = some (timestamp, syncSince, password)) (currentTime : ℕ)
    (random : Bytes) :
    (h.call c q currentTime random).calls =
      [⟨clientPubkey, secret, password, timestamp,
        if h.takesSyncSince then syncSince else none⟩] := by
  unfold call
  rw [hopen]
  dsimp only
  rw [hparse]

theorem AnonRequestHandler.call_login (h : AnonRequestHandler Seed) {q : Packet}
    {clientPubkey secret plaintext : Bytes}
    (hopen : openAnonRequest c h.localIdentity q.payload = some (clientPubkey, secret, plaintext))
    (hsubtype : h.loginHandler.isRoomServer = true ∨
      ∀ b ∈ plaintext[4]?, b = 0x00 ∨ b ≥ 0x20) (now : ℚ) (currentTime : ℕ) (random : Bytes) :
    (h.call c q now currentTime random).2 =
      .login (h.loginHandler.call c q currentTime random) := by
  unfold call
  rw [hopen]
  dsimp only
  split
  · rfl
  · rename_i hroom
    have hbyte := hsubtype.resolve_left hroom
    split
    · rfl
    · rename_i b hb
      rw [if_pos (hbyte b hb)]

/-- On a repeater the byte that tells a login is the first of the password or of the padding. -/
theorem subtype_login (hnul : '\x00' ∉ password)
    (hfirst : ∀ b ∈ (Utf8.encode password).head?, ¬ (0x01 ≤ b ∧ b ≤ 0x1F))
    (timestamp n : ℕ) :
    ∀ b ∈ (Bytes.le 4 timestamp ++ ((Utf8.encode password).take 15 ++ List.replicate n 0))[4]?,
      b = 0x00 ∨ b ≥ 0x20 := by
  intro b hb
  rw [List.getElem?_append_right (by simp), Bytes.length_le, Nat.sub_self,
    ← List.head?_eq_getElem?] at hb
  cases hbytes : Utf8.encode password with
  | nil =>
    rw [hbytes, List.take_nil, List.nil_append, List.head?_replicate] at hb
    left
    split at hb
    · cases hb
    · exact (Option.mem_some.mp hb).symm
  | cons x rest =>
    rw [hbytes] at hb hfirst
    have hx : b = x := (Option.mem_some.mp hb).symm
    have hzero : (0 : UInt8) ∉ Utf8.encode password := Utf8.zero_notMem_encode hnul
    rw [hbytes] at hzero
    have hne : x ≠ 0 := fun h0 => hzero (h0 ▸ List.mem_cons_self)
    have hrange := hfirst x rfl
    right
    subst hx
    have hpos : 0 < b.toNat := Nat.pos_of_ne_zero fun h0 => hne (UInt8.toNat_inj.mp h0)
    rw [ge_iff_le, UInt8.le_iff_toNat_le]
    simp only [UInt8.le_iff_toNat_le, UInt8.reduceToNat] at hrange ⊢
    omega

end

namespace AnonRequestHandler

variable {Seed : Type} {c : Crypto Seed}

/-- A login is written, read and opened by the server it is for, and asks the application once, for
the sender and as much of the password as fits. -/
theorem login_roundTrip (h : AnonRequestHandler Seed) {client server : Seed} {contact : Contact}
    {password : List Char} {timestamp : ℕ} {secret : Bytes}
    (hanon : h.localIdentity = server) (hlogin : h.loginHandler.localIdentity = server)
    (hkey : contact.publicKey = c.publicKey server)
    (hroom : h.loginHandler.isRoomServer =
      decide (contact.advType = PacketBuilder.contactTypeRoomServer))
    (hsecret : c.sharedSecret (c.privateKey client) contact.publicKey = some secret)
    (hpath : PacketBuilder.StoredPath contact) (hts : timestamp < 2 ^ 32)
    (hsync : contact.syncSince < 2 ^ 32) (hnul : '\x00' ∉ password)
    (hfirst : ∀ b ∈ (Utf8.encode password).head?, ¬ (0x01 ≤ b ∧ b ≤ 0x1F)) :
    ∃ p d cut, PacketBuilder.createLoginPacket c contact client password timestamp = .ok p ∧
      p.writeTo = .ok d ∧ (∀ frame : Packet, frame.readFrom d = .ok (frame.receive p)) ∧
      Utf8.LongestPrefix 15 password cut ∧
      ∀ q : Packet, q.payload = p.payload → ∀ now currentTime random,
        (h.call c q now currentTime random).2.calls =
          [{ clientPubkey := c.publicKey client
             sharedSecret := secret
             password := cut
             timestamp := timestamp
             syncSince :=
               if h.loginHandler.takesSyncSince ∧ h.loginHandler.isRoomServer then
                 some contact.syncSince
               else none }] := by
  obtain ⟨destHash, hdest⟩ : ∃ b, (c.publicKey server).head? = some b := by
    cases hk : c.publicKey server with
    | nil => exact absurd (c.length_publicKey server) (by rw [hk]; decide)
    | cons b rest => exact ⟨b, rfl⟩
  obtain ⟨p, hp, hwell, hpayload⟩ :
      ∃ p, PacketBuilder.createLoginPacket c contact client password timestamp = .ok p ∧ _ :=
    PacketBuilder.createLoginPacket_spec hsecret (hkey ▸ hdest) hpath hts (fun _ => hsync)
  refine ⟨p, p.encode, Utf8.fit 15 password, hp,
    Packet.writeTo_eq_ok.mpr ⟨hwell.toWritable, rfl⟩,
    fun frame => Packet.readFrom_encode frame hwell, Utf8.fit_longest 15 password, ?_⟩
  intro q hq now currentTime random
  rw [hkey, c.sharedSecret_comm] at hsecret
  have hplain : Bytes.le 4 timestamp ++ (PacketBuilder.loginSync contact ++
      (Utf8.encode password).take 15) ≠ [] := by
    simp [Bytes.le]
  have hopen := openAnonRequest_encryptThenMac hdest hsecret hplain
  rw [← hpayload, ← hq, zeroPad] at hopen
  have hparse := h.loginHandler.parseLogin_append hroom hts hsync hnul
  rw [h.call_login (hanon ▸ hopen) ?_, AnonOutcome.calls,
    h.loginHandler.calls_call (hlogin ▸ hopen) (hparse _)]
  · cases h.loginHandler.takesSyncSince <;> simp
  · cases hkind : h.loginHandler.isRoomServer with
    | true => exact Or.inl rfl
    | false =>
      rw [hkind, eq_comm, decide_eq_false_iff_not] at hroom
      rw [PacketBuilder.loginSync, if_neg hroom, List.nil_append, List.append_assoc]
      exact Or.inr (subtype_login hnul hfirst timestamp _)

/-- A room server that takes one password. -/
def roomServer : AnonRequestHandler Bytes :=
  { localIdentity := [0xB0]
    loginHandler :=
      { localIdentity := [0xB0]
        isRoomServer := true
        authenticate := fun call => (call.password = ['p', 'w'], 3) } }

def roomServerContact : Contact :=
  { publicKey := xorCrypto.publicKey [0xB0], advType := 3, syncSince := 7 }

theorem login_roundTrip_room :
    ∃ p call, PacketBuilder.createLoginPacket xorCrypto roomServerContact [0xA0] ['p', 'w'] 1000 =
        .ok p ∧
      (roomServer.call xorCrypto p 0 2000 [1, 2, 3, 4]).2.calls = [call] ∧
      call.clientPubkey = xorCrypto.publicKey [0xA0] ∧ call.timestamp = 1000 ∧
      call.syncSince = some 7 ∧ Utf8.LongestPrefix 15 ['p', 'w'] call.password := by
  have hpath : PacketBuilder.StoredPath roomServerContact := Or.inl (by decide)
  obtain ⟨secret, hsecret⟩ : ∃ secret, xorCrypto.sharedSecret (xorCrypto.privateKey [0xA0])
      roomServerContact.publicKey = some secret := ⟨_, rfl⟩
  have hfirst : ∀ b ∈ (Utf8.encode ['p', 'w']).head?, ¬ ((0x01 : UInt8) ≤ b ∧ b ≤ 0x1F) := by
    have hhead : (Utf8.encode ['p', 'w']).head? = some 0x70 := by decide
    intro b hb
    obtain rfl : 0x70 = b := Option.some.inj (hhead.symm.trans hb)
    decide
  obtain ⟨p, _, cut, hp, -, -, hcut, hcalls⟩ :=
    login_roundTrip roomServer rfl rfl rfl rfl hsecret hpath (by decide : 1000 < 2 ^ 32) (by decide)
      (by decide : '\x00' ∉ ['p', 'w']) hfirst
  exact ⟨p, _, hp, hcalls p rfl 0 2000 [1, 2, 3, 4], rfl, rfl, rfl, hcut⟩

end AnonRequestHandler

end OpenHop
