import OpenHop.Protocol.PacketBuilder

/-! # Login packets

A login names its sender by the whole public key, so that the server need not know it, and
is encrypted for the server. Room servers get the time of the last post seen in front of the
password, repeaters get the password alone.
-/

namespace OpenHop.PacketBuilder

/-- `CONTACT_TYPE_ROOM_SERVER` -/
def contactTypeRoomServer : ℕ := 3

variable {Seed : Type} (c : Crypto Seed)

def createAnonReq (destKey : Bytes) (localIdentity : Seed) (sharedSecret plaintext : Bytes)
    (route : RouteName := .transportFlood) : Except PacketError Packet := do
  let destHash ← hashByte destKey
  let cipher := c.encryptThenMac (sharedSecret.take 16) sharedSecret plaintext
  createPacket (createHeader payloadTypeAnonReq route)
    (destHash :: (c.publicKey localIdentity ++ cipher))

def createDatagram (ptype : ℕ) (destKey : Bytes) (localIdentity : Seed) (secret plaintext : Bytes)
    (route : RouteName := .direct) : Except PacketError Packet := do
  if ptype ≠ payloadTypeTxtMsg ∧ ptype ≠ payloadTypeReq ∧ ptype ≠ payloadTypeResponse then
    Except.error (.invalidPayloadType ptype)
  let destHash ← hashByte destKey
  let srcHash ← hashByte (c.publicKey localIdentity)
  let cipher := c.encryptThenMac (secret.take 16) secret plaintext
  createPacket (createHeader ptype route) (destHash :: srcHash :: cipher)

def loginPlaintext (contact : Contact) (password : List Char) (timestamp : ℕ) :
    Except PacketError Bytes := do
  let passwordBytes := (Utf8.encode password).take 15
  if contact.advType = contactTypeRoomServer then
    let syncSince ← packUInt32 contact.syncSince
    packTimestampData timestamp [.bytes syncSince, .bytes passwordBytes]
  else packTimestampData timestamp [.bytes passwordBytes]

def createLoginPacket (contact : Contact) (localIdentity : Seed) (password : List Char)
    (timestamp : ℕ) : Except PacketError Packet := do
  let plaintext ← loginPlaintext contact password timestamp
  let (sharedSecret, _) ← calcSharedSecretAndKey c contact localIdentity
  let route := if contact.outPathLen < 0 then RouteName.flood else .direct
  let pkt ← createAnonReq c contact.publicKey localIdentity sharedSecret plaintext route
  if 0 < contact.outPathLen ∧ contact.outPath ≠ [] then
    setRoutingPath pkt contact true contact.outPath
  else return pkt

section

variable {c} {contact : Contact} {localIdentity : Seed} {password : List Char} {timestamp : ℕ}

def loginSync (contact : Contact) : Bytes :=
  if contact.advType = contactTypeRoomServer then Bytes.le 4 contact.syncSince else []

theorem length_loginSync_le (contact : Contact) : (loginSync contact).length ≤ 4 := by
  unfold loginSync
  split <;> simp

theorem loginPlaintext_eq (hts : timestamp < 256 ^ 4)
    (hsync : contact.advType = contactTypeRoomServer → contact.syncSince < 256 ^ 4) :
    loginPlaintext contact password timestamp =
      .ok (Bytes.le 4 timestamp ++ (loginSync contact ++ (Utf8.encode password).take 15)) := by
  unfold loginPlaintext loginSync
  split
  · rename_i hroom
    rw [packUInt32_of_lt (hsync hroom), ok_bind, packTimestampData_eq hts _ rfl]
    simp
  · rw [packTimestampData_eq hts _ rfl]
    simp

/-- A path to a contact that is as long as its length byte says, or none. -/
def StoredPath (contact : Contact) : Prop :=
  contact.outPathLen < 0 ∨ PathFits contact.outPath contact.outPathLen.toNat

theorem setRoutingPath_stored {pkt : Packet} (hpkt : pkt.WellFormed)
    (hpath : PathFits contact.outPath contact.outPathLen.toNat) (hlen : 0 ≤ contact.outPathLen) :
    ∃ p, setRoutingPath pkt contact true contact.outPath = .ok p ∧ p.WellFormed ∧
      p.payload = pkt.payload := by
  obtain ⟨hvalid, hsize⟩ := hpath
  have hbytes : contact.outPath.length ≤ maxPathSize := by
    rw [hsize]
    exact ((PathUtils.isValidPathLen_iff _).mp hvalid).2
  unfold setRoutingPath
  split
  · exact ⟨_, rfl, hpkt.withPath (by decide) (by decide), rfl⟩
  · rw [List.take_of_length_le hbytes]
    dsimp only
    rw [if_pos ⟨rfl, hlen, hvalid, hsize.ge⟩]
    exact ⟨_, rfl, hpkt.withPath hvalid hsize.symm, rfl⟩

theorem createAnonReq_spec {destKey plaintext : Bytes} {destHash : UInt8}
    (hdest : destKey.head? = some destHash) (hlen : plaintext.length ≤ 128)
    (localIdentity : Seed) (sharedSecret : Bytes) (route : RouteName) :
    ∃ p, createAnonReq c destKey localIdentity sharedSecret plaintext route = .ok p ∧
      p.WellFormed ∧ p.payload = destHash :: (c.publicKey localIdentity ++
        c.encryptThenMac (sharedSecret.take 16) sharedSecret plaintext) := by
  have hsize : (destHash :: (c.publicKey localIdentity ++
      c.encryptThenMac (sharedSecret.take 16) sharedSecret plaintext)).length ≤
        maxPacketPayload := by
    simp only [List.length_cons, List.length_append, c.length_publicKey, c.length_encryptThenMac,
      pubKeySize, cipherMacSize, cipherBlockSize, maxPacketPayload]
    omega
  obtain ⟨p, hp, hpayload, -, hwell⟩ :=
    createPacket_spec payloadTypeAnonReq (by decide) route false hsize
  refine ⟨p, ?_, hwell, hpayload⟩
  cases destKey with
  | nil => cases hdest
  | cons b key =>
    cases hdest
    exact hp

theorem createLoginPacket_spec {secret : Bytes} {destHash : UInt8}
    (hsecret : c.sharedSecret (c.privateKey localIdentity) contact.publicKey = some secret)
    (hdest : contact.publicKey.head? = some destHash) (hpath : StoredPath contact)
    (hts : timestamp < 256 ^ 4)
    (hsync : contact.advType = contactTypeRoomServer → contact.syncSince < 256 ^ 4) :
    ∃ p, createLoginPacket c contact localIdentity password timestamp = .ok p ∧ p.WellFormed ∧
      p.payload = destHash :: (c.publicKey localIdentity ++
        c.encryptThenMac (secret.take 16) secret (Bytes.le 4 timestamp ++
          (loginSync contact ++ (Utf8.encode password).take 15))) := by
  have hlen : (Bytes.le 4 timestamp ++
      (loginSync contact ++ (Utf8.encode password).take 15)).length ≤ 128 := by
    have := length_loginSync_le contact
    simp only [List.length_append, Bytes.length_le, List.length_take]
    omega
  obtain ⟨pkt, hpkt, hwell, hpayload⟩ := createAnonReq_spec (c := c) hdest hlen localIdentity secret
    (if contact.outPathLen < 0 then RouteName.flood else .direct)
  have hbuilt : createLoginPacket c contact localIdentity password timestamp =
      if 0 < contact.outPathLen ∧ contact.outPath ≠ [] then
        setRoutingPath pkt contact true contact.outPath
      else .ok pkt := by
    simp only [createLoginPacket, loginPlaintext_eq hts hsync, calcSharedSecretAndKey, hsecret,
      ok_bind, hpkt]
    rfl
  rw [hbuilt]
  split
  · rename_i hpos
    have hfits := hpath.resolve_left (by omega)
    obtain ⟨p, hp, hpwell, hppayload⟩ := setRoutingPath_stored hwell hfits hpos.1.le
    exact ⟨p, hp, hpwell, hppayload.trans hpayload⟩
  · exact ⟨pkt, rfl, hwell, hpayload⟩

end

end OpenHop.PacketBuilder
