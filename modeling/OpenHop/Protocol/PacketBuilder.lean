import OpenHop.Data.Utf8
import OpenHop.Protocol.Contact
import OpenHop.Protocol.Crypto
import OpenHop.Protocol.Wire

/-! # Building packets

Text messages are encrypted for one contact and come with the code that their
acknowledgement will carry. Acknowledgements are built as plain packets, inside a
multipart packet or inside an encrypted path return.
-/

namespace OpenHop.PacketBuilder

/-- The route names callers pass; any other name stands for the default. -/
inductive RouteName where
  | transportFlood | flood | direct | transportDirect | other
  deriving DecidableEq

def getRouteTypeValue (route : RouteName) (hasRoutingPath : Bool) : ℕ :=
  match route with
  | .transportFlood => routeTypeTransportFlood
  | .flood => routeTypeFlood
  | .direct => routeTypeDirect
  | .transportDirect => routeTypeTransportDirect
  | .other => if hasRoutingPath then routeTypeDirect else routeTypeFlood

def createHeader (payloadType : ℕ) (route : RouteName := .direct) (hasRoutingPath : Bool := false)
    (version : ℕ := payloadVer1) : ℕ :=
  (getRouteTypeValue route hasRoutingPath &&& phRouteMask) ||| (payloadType <<< phTypeShift)
    ||| (version <<< phVerShift)

def createPacket (header : ℕ) (payload : Bytes) : Except PacketError Packet := do
  Packet.validatePayloadSize payload.length
  return { header := header, payload := payload, payloadLen := payload.length }

/-- `struct.pack("<I", n)` -/
def packUInt32 (n : ℕ) : Except PacketError Bytes :=
  match Bytes.ofNatLE? 4 n with
  | some d => .ok d
  | none => .error .structError

inductive DataPart where
  | int (n : ℕ)
  | bytes (d : Bytes)
  | str (cs : List Char)

def DataPart.pack : DataPart → Except PacketError Bytes
  | .int n => Packet.byte n
  | .bytes d => .ok d
  | .str cs => .ok (Utf8.encode cs)

def packTimestampData (timestamp : ℕ) (parts : List DataPart) : Except PacketError Bytes := do
  let head ← match Bytes.ofNatLE? 4 timestamp with
    | some d => Except.ok d
    | none => .error .structError
  let packed ← parts.mapM DataPart.pack
  return head ++ packed.flatten

def hashByte (pubkey : Bytes) : Except PacketError UInt8 :=
  match pubkey with
  | [] => .error .emptyPubKey
  | b :: _ => .ok b

/-- An entry of a routing path as callers write it: a number or a hex string. -/
inductive PathItem where
  | int (n : ℤ)
  | hex (s : List Char)

def hexDigit? (ch : Char) : Option ℕ :=
  if '0' ≤ ch ∧ ch ≤ '9' then some (ch.toNat - '0'.toNat)
  else if 'a' ≤ ch ∧ ch ≤ 'f' then some (ch.toNat - 'a'.toNat + 10)
  else if 'A' ≤ ch ∧ ch ≤ 'F' then some (ch.toNat - 'A'.toNat + 10)
  else none

def validatePathItem (index : ℕ) : PathItem → Except PacketError UInt8
  | .hex (hi :: lo :: _) =>
    match hexDigit? hi, hexDigit? lo with
    | some h, some l => .ok (UInt8.ofNat (16 * h + l))
    | _, _ => .error (.pathItemNotHex index)
  | .hex _ => .error (.pathItemTooShort index)
  | .int n =>
    if 0 ≤ n ∧ n ≤ 255 then .ok (UInt8.ofNat n.toNat) else .error (.pathItemOutOfRange index n)

def validateRoutingPath (routingPath : List PathItem) : Except PacketError Bytes :=
  if routingPath.length > maxPathSize then .error (.routingPathTooLong routingPath.length)
  else routingPath.zipIdx.mapM fun (item, index) => validatePathItem index item

variable {Seed : Type} (c : Crypto Seed)

def calcSharedSecretAndKey (contact : Contact) (localIdentity : Seed) :
    Except PacketError (Bytes × Bytes) :=
  match c.sharedSecret (c.privateKey localIdentity) contact.publicKey with
  | some secret => .ok (secret, secret.take 16)
  | none => .error .badPublicKey

def createEncryptedPayload (contact : Contact) (localIdentity : Seed) (plaintext : Bytes) :
    Except PacketError Bytes := do
  let (secret, aesKey) ← calcSharedSecretAndKey c contact localIdentity
  let encrypted := c.encryptThenMac aesKey secret plaintext
  let dest ← hashByte contact.publicKey
  let src ← hashByte (c.publicKey localIdentity)
  return dest :: src :: encrypted

def textFlags (txtType attempt : ℕ) : ℕ := (txtType <<< 2) ||| (attempt &&& 0x03)

def isCli (txtType : ℕ) : Bool := txtType == txtTypeCliData || txtType == txtTypeCliCommand

/-- The text is limited, and a little more so when the attempt is sent along. -/
def checkTextLen (txtType attempt textLen : ℕ) : Except PacketError Unit :=
  if textLen > maxTextLen then .error (.textTooLong textLen maxTextLen)
  else if ¬ isCli txtType ∧ attempt > 3 ∧ textLen > maxTextLen - 2 then
    .error (.textTooLong textLen (maxTextLen - 2))
  else .ok ()

/-- A retry past the third repeats its low bits, so the whole attempt follows the text. -/
def textTail (txtType attempt : ℕ) : Bytes :=
  if attempt > 3 ∧ ¬ isCli txtType then [0, UInt8.ofNat attempt] else []

/-- Put the routing path on a packet, under the contact's own path length if it fits. -/
def setRoutingPath (pkt : Packet) (contact : Contact) (stored : Bool) (routingPath : Bytes) :
    Except PacketError Packet :=
  if routingPath = [] then .ok { pkt with pathLen := 0, path := [] }
  else
    let routingPath := routingPath.take maxPathSize
    if stored ∧ 0 ≤ contact.outPathLen ∧ PathUtils.isValidPathLen contact.outPathLen.toNat
        ∧ PathUtils.getPathByteLen contact.outPathLen.toNat ≤ routingPath.length then
      pkt.setPath routingPath (some contact.outPathLen.toNat)
    else if routingPath.length = 64 then pkt.setPath (routingPath.take 63)
    else pkt.setPath routingPath

/-- The packet and the code its acknowledgement will carry. -/
def createTextMessage (contact : Contact) (localIdentity : Seed) (message : List Char) (attempt : ℕ)
    (messageType : RouteName) (outPath : Option (List PathItem)) (txtType timestamp : ℕ) :
    Except PacketError (Packet × ℕ) := do
  let attemptFull := attempt &&& 0xFF
  let txtType := txtType &&& 0x3F
  let flagsByte := textFlags txtType attemptFull
  -- the text is a C string
  let message := message.takeWhile (· ≠ '\x00')
  checkTextLen txtType attemptFull (Utf8.encode message).length
  let signedSenderPrefix :=
    if txtType = txtTypeSignedPlain then (c.publicKey localIdentity).take 4 else []
  let plaintext ← packTimestampData timestamp
    [.int flagsByte, .bytes signedSenderPrefix, .str message, .bytes (textTail txtType attemptFull)]
  let payload ← createEncryptedPayload c contact localIdentity plaintext
  let crcInput ← packTimestampData timestamp
    [.int flagsByte, .bytes signedSenderPrefix, .str message]
  -- plain text is acknowledged under the sender's key, signed text under the recipient's
  let ackKey :=
    if txtType = txtTypeSignedPlain then contact.publicKey else c.publicKey localIdentity
  let ackCrc := Bytes.toNatLE ((c.sha256 (crcInput ++ ackKey)).take 4)
  let routingPath ← validateRoutingPath
    (outPath.getD (contact.outPath.map fun b => .int b.toNat))
  let header := createHeader payloadTypeTxtMsg messageType (!routingPath.isEmpty)
  let pkt ← setRoutingPath { header := header } contact outPath.isNone routingPath
  return ({ pkt with payload := payload, payloadLen := payload.length }, ackCrc)

/-- The hash that acknowledges a plain text: four bytes that count, the extended attempt and a
random byte that keep packets apart. -/
def calcTextAckHash (pubkey : Bytes) (timestamp flagsByte : ℕ) (text : Bytes) (extAttempt : UInt8)
    (lastByte : UInt8) : Except PacketError Bytes := do
  let temp ← packTimestampData timestamp [.int (flagsByte &&& 0xFF), .bytes text]
  return (c.sha256 (temp ++ pubkey)).take 4 ++ [extAttempt, lastByte]

/-- Put an acknowledgement's route on its packet; an empty path counts as none. -/
def withAckPath (pkt : Packet) (path : Bytes) (pathLenEncoded : Option ℕ) :
    Except PacketError Packet :=
  if path = [] then .ok pkt else pkt.setPath path pathLenEncoded

def createAckFromBytes (ackBytes : Bytes) (path : Bytes := []) (pathLenEncoded : Option ℕ := none)
    (route : RouteName := .direct) : Except PacketError Packet := do
  let pkt ← createPacket (createHeader payloadTypeAck route (!path.isEmpty)) ackBytes
  withAckPath pkt path pathLenEncoded

def createMultiAck (ackBytes : Bytes) (remaining : ℕ := 1) (path : Bytes := [])
    (pathLenEncoded : Option ℕ := none) : Except PacketError Packet := do
  let wrapper := UInt8.ofNat (((remaining &&& 0x0F) <<< 4) ||| payloadTypeAck)
  let pkt ← createPacket (createHeader payloadTypeMultipart .direct (!path.isEmpty))
    (wrapper :: ackBytes)
  withAckPath pkt path pathLenEncoded

/-- The length byte of a returned path, which must say how wide its hashes are. -/
def pathReturnLen (path : Bytes) : Option ℕ → Except PacketError ℕ
  | none => if path = [] then .ok 0 else .error (.pathLenRequired path.length)
  | some encoded =>
    if ¬ PathUtils.isValidPathLen encoded then .error (.invalidPathLen encoded)
    else if path.length ≠ PathUtils.getPathByteLen encoded then
      .error (.pathLenMismatch (PathUtils.getPathByteLen encoded) path.length)
    else .ok encoded

/-- An encrypted path return. Without an extra, `noise` keeps packets for one path apart. -/
def createPathReturn (destHash srcHash : UInt8) (secret path : Bytes) (extraType : ℕ)
    (extra : Bytes) (pathLenEncoded : Option ℕ) (noise : Bytes) : Except PacketError Packet := do
  if path.length + extra.length + 5 > maxPacketPayload - 2 - cipherBlockSize then
    Except.error .pathExtraTooLong
  let firstByte ← Packet.byte (← pathReturnLen path pathLenEncoded)
  let rest ← if extra ≠ [] then do
      let extraTypeByte ← Packet.byte extraType
      pure (extraTypeByte ++ extra)
    else pure (0xFF :: noise)
  let inner := firstByte ++ path ++ rest
  let cipher := c.encryptThenMac (secret.take 16) secret inner
  createPacket (createHeader payloadTypePath .flood) (destHash :: srcHash :: cipher)

section

variable {c} {contact : Contact} {localIdentity : Seed} {message : List Char}
  {attempt txtType timestamp : ℕ} {messageType : RouteName} {outPath : Option (List PathItem)}

theorem textFlags_eq (txtType attempt : ℕ) :
    textFlags txtType attempt = 4 * txtType + attempt % 4 := by
  have hand : attempt &&& 0x03 = attempt % 4 := Nat.and_two_pow_sub_one_eq_mod attempt 2
  rw [textFlags, hand, Nat.shiftLeft_eq, Nat.mul_comm]
  exact (Nat.two_pow_add_eq_or_of_lt (show attempt % 4 < 2 ^ 2 by omega) txtType).symm

theorem textFlags_lt (htype : txtType < 64) (attempt : ℕ) : textFlags txtType attempt < 256 := by
  rw [textFlags_eq]
  omega

/-- Timestamp, flags, author prefix and text: what is hashed for the acknowledgement. -/
def ackSpan (timestamp flags : ℕ) (author text : Bytes) : Bytes :=
  Bytes.le 4 timestamp ++ UInt8.ofNat flags :: (author ++ text)

/-! The parts of a span are found again, whatever follows it. -/

theorem ackSpan_append (timestamp flags : ℕ) (author text rest : Bytes) :
    ackSpan timestamp flags author text ++ rest =
      Bytes.le 4 timestamp ++ UInt8.ofNat flags :: (author ++ (text ++ rest)) := by
  simp [ackSpan]

theorem take_ackSpan {author text rest : Bytes} (hts : timestamp < 256 ^ 4) (flags : ℕ) :
    Bytes.toNatLE ((ackSpan timestamp flags author text ++ rest).take 4) = timestamp := by
  rw [ackSpan_append, List.take_left' (Bytes.length_le 4 timestamp),
    Bytes.toNatLE_le 4 timestamp hts]

theorem getD_ackSpan {author text rest : Bytes} {flags : ℕ} (hflags : flags < 256) :
    ((ackSpan timestamp flags author text ++ rest).getD 4 0).toNat = flags := by
  rw [ackSpan_append, List.getD_eq_getElem?_getD, List.getElem?_append_right (by simp)]
  simp [Nat.mod_eq_of_lt hflags]

theorem drop_ackSpan {author text rest : Bytes} (flags : ℕ) :
    (ackSpan timestamp flags author text ++ rest).drop 5 = author ++ (text ++ rest) := by
  rw [ackSpan_append]
  simp [List.drop_append]

theorem length_ackSpan_append (timestamp flags : ℕ) (author text rest : Bytes) :
    (ackSpan timestamp flags author text ++ rest).length =
      5 + author.length + (text ++ rest).length := by
  rw [ackSpan_append]
  simp only [List.length_append, List.length_cons, Bytes.length_le]
  omega

theorem packUInt32_of_lt {n : ℕ} (h : n < 256 ^ 4) : packUInt32 n = .ok (Bytes.le 4 n) := by
  rw [packUInt32, Bytes.ofNatLE?_eq_some.mpr ⟨h, rfl⟩]

theorem packTimestampData_ok {parts : List DataPart} {d : Bytes}
    (h : packTimestampData timestamp parts = .ok d) :
    timestamp < 256 ^ 4 ∧ ∃ packed, parts.mapM DataPart.pack = .ok packed ∧
      d = Bytes.le 4 timestamp ++ packed.flatten := by
  unfold packTimestampData at h
  cases hle : Bytes.ofNatLE? 4 timestamp with
  | none =>
    rw [hle] at h
    cases h
  | some head =>
    rw [hle] at h
    obtain ⟨hlt, rfl⟩ := Bytes.ofNatLE?_eq_some.mp hle
    simp only [ok_bind, bind_eq_ok, pure_eq_ok, Except.ok.injEq] at h
    obtain ⟨packed, hpacked, rfl⟩ := h
    exact ⟨hlt, packed, hpacked, rfl⟩

theorem packTimestampData_eq (hts : timestamp < 256 ^ 4) (parts : List DataPart)
    {packed : List Bytes} (h : parts.mapM DataPart.pack = .ok packed) :
    packTimestampData timestamp parts = .ok (Bytes.le 4 timestamp ++ packed.flatten) := by
  have hle : Bytes.ofNatLE? 4 timestamp = some (Bytes.le 4 timestamp) :=
    Bytes.ofNatLE?_eq_some.mpr ⟨hts, rfl⟩
  simp [packTimestampData, hle, h]

theorem byte_of_lt {n : ℕ} (h : n < 256) : Packet.byte n = .ok [UInt8.ofNat n] :=
  Packet.byte_eq_ok.mpr ⟨h, rfl⟩

theorem packTimestampData_bytes (hts : timestamp < 256 ^ 4) {flags : ℕ} (hflags : flags < 256)
    (text : Bytes) :
    packTimestampData timestamp [.int flags, .bytes text] =
      .ok (ackSpan timestamp flags [] text) := by
  have hparts : [DataPart.int flags, .bytes text].mapM DataPart.pack =
      .ok [[UInt8.ofNat flags], text] := by
    simp [List.mapM_cons, DataPart.pack, byte_of_lt hflags]
  rw [packTimestampData_eq hts _ hparts]
  simp [ackSpan]

theorem mapM_pack_text {flags : ℕ} (hflags : flags < 256) (author : Bytes) (text : List Char)
    (rest : List Bytes) :
    (DataPart.int flags :: .bytes author :: .str text :: rest.map .bytes).mapM DataPart.pack =
      .ok ([UInt8.ofNat flags] :: author :: Utf8.encode text :: rest) := by
  have hrest : (rest.map DataPart.bytes).mapM DataPart.pack = .ok rest := by
    induction rest with
    | nil => rfl
    | cons d rest ih => simp [List.mapM_cons, DataPart.pack, ih]
  simp [List.mapM_cons, DataPart.pack, byte_of_lt hflags, hrest]

theorem createEncryptedPayload_ok {plaintext payload : Bytes}
    (h : createEncryptedPayload c contact localIdentity plaintext = .ok payload) :
    ∃ secret dest src,
      c.sharedSecret (c.privateKey localIdentity) contact.publicKey = some secret ∧
      (c.publicKey localIdentity).head? = some src ∧
      payload = dest :: src :: c.encryptThenMac (secret.take 16) secret plaintext := by
  unfold createEncryptedPayload calcSharedSecretAndKey at h
  cases hsecret : c.sharedSecret (c.privateKey localIdentity) contact.publicKey with
  | none =>
    rw [hsecret] at h
    cases h
  | some secret =>
    rw [hsecret] at h
    simp only [ok_bind, bind_eq_ok, pure_eq_ok, Except.ok.injEq] at h
    obtain ⟨dest, _, src, hsrc, rfl⟩ := h
    refine ⟨secret, dest, src, rfl, ?_, rfl⟩
    unfold hashByte at hsrc
    split at hsrc
    · cases hsrc
    · rename_i b _ hkey
      cases hsrc
      rw [hkey]
      rfl

def authorOf (c : Crypto Seed) (localIdentity : Seed) (txtType : ℕ) : Bytes :=
  if txtType = txtTypeSignedPlain then (c.publicKey localIdentity).take 4 else []

theorem createTextMessage_ok {pkt : Packet} {ackCrc : ℕ}
    (h : createTextMessage c contact localIdentity message attempt messageType outPath txtType
      timestamp = .ok (pkt, ackCrc)) :
    ∃ span secret dest src,
      span = ackSpan timestamp (textFlags (txtType &&& 0x3F) (attempt &&& 0xFF))
        (authorOf c localIdentity (txtType &&& 0x3F))
        (Utf8.encode (message.takeWhile (· ≠ '\x00'))) ∧
      timestamp < 256 ^ 4 ∧
      c.sharedSecret (c.privateKey localIdentity) contact.publicKey = some secret ∧
      (c.publicKey localIdentity).head? = some src ∧
      pkt.payload = dest :: src :: c.encryptThenMac (secret.take 16) secret
        (span ++ textTail (txtType &&& 0x3F) (attempt &&& 0xFF)) ∧
      ackCrc = Bytes.toNatLE ((c.sha256 (span ++
        if txtType &&& 0x3F = txtTypeSignedPlain then contact.publicKey
        else c.publicKey localIdentity)).take 4) := by
  have htype : txtType &&& 0x3F < 64 := Nat.and_lt_two_pow _ (show 0x3F < 2 ^ 6 by decide)
  have hflags := textFlags_lt htype (attempt &&& 0xFF)
  simp only [createTextMessage, bind_eq_ok, pure_eq_ok, Except.ok.injEq, Prod.mk.injEq] at h
  obtain ⟨_, _, plaintext, hplain, payload, hpayload, crcInput, hcrc, _, _, _, _, rfl, rfl⟩ := h
  have hpacked := mapM_pack_text hflags (authorOf c localIdentity (txtType &&& 0x3F))
    (message.takeWhile (· ≠ '\x00'))
  obtain ⟨hts, _, hmap, rfl⟩ := packTimestampData_ok hplain
  obtain ⟨_, _, hmap', rfl⟩ := packTimestampData_ok hcrc
  cases hmap.symm.trans (hpacked [textTail (txtType &&& 0x3F) (attempt &&& 0xFF)])
  cases hmap'.symm.trans (hpacked [])
  obtain ⟨secret, dest, src, hsecret, hsrc, rfl⟩ := createEncryptedPayload_ok hpayload
  refine ⟨_, secret, dest, src, rfl, hts, hsecret, hsrc, ?_, ?_⟩
  · simp [ackSpan, List.append_assoc]
  · simp [ackSpan]

theorem setRoutingPath_eq {p q : Packet} {contact : Contact} {stored : Bool} {path : Bytes}
    (h : setRoutingPath p contact stored path = .ok q) :
    ∃ path' pathLen, q = { p with path := path', pathLen := pathLen } := by
  unfold setRoutingPath at h
  split at h
  · cases h
    exact ⟨_, _, rfl⟩
  dsimp only at h
  split at h
  · exact ⟨_, Packet.setPath_eq h⟩
  split at h
  · exact ⟨_, Packet.setPath_eq h⟩
  · exact ⟨_, Packet.setPath_eq h⟩

/-! Every acknowledgement is well formed, whichever way it is wrapped. -/

theorem createHeader_eq (payloadType : ℕ) (route : RouteName) (hasPath : Bool) :
    createHeader payloadType route hasPath =
      4 * payloadType + getRouteTypeValue route hasPath := by
  have hlt : getRouteTypeValue route hasPath < 2 ^ 2 := by
    cases route <;> cases hasPath <;> decide
  have hmask : getRouteTypeValue route hasPath &&& 3 = getRouteTypeValue route hasPath := by
    rw [Nat.and_two_pow_sub_one_eq_mod _ 2, Nat.mod_eq_of_lt hlt]
  simp only [createHeader, phRouteMask, hmask, payloadVer1, phVerShift, phTypeShift,
    Nat.shiftLeft_eq, Nat.zero_mul, Nat.or_zero]
  rw [Nat.mul_comm payloadType, Nat.or_comm]
  exact (Nat.two_pow_add_eq_or_of_lt hlt payloadType).symm

theorem createPacket_ok {header : ℕ} {payload : Bytes} {p : Packet}
    (h : createPacket header payload = .ok p) :
    payload.length ≤ maxPacketPayload ∧
      p = { header := header, payload := payload, payloadLen := payload.length } := by
  simp only [createPacket, bind_eq_ok, pure_eq_ok, Except.ok.injEq] at h
  obtain ⟨_, hsize, rfl⟩ := h
  exact ⟨Packet.validatePayloadSize_eq_ok.mp hsize, rfl⟩

theorem createPacket_spec (payloadType : ℕ) (htype : payloadType < 16) (route : RouteName)
    (hasPath : Bool) {payload : Bytes} (hlen : payload.length ≤ maxPacketPayload) :
    ∃ p, createPacket (createHeader payloadType route hasPath) payload = .ok p ∧
      p.payload = payload ∧ p.getPayloadType = payloadType ∧ p.WellFormed := by
  have hroute : getRouteTypeValue route hasPath < 4 := by
    cases route <;> cases hasPath <;> decide
  have hsize : Packet.validatePayloadSize payload.length = .ok () :=
    Packet.validatePayloadSize_eq_ok.mpr hlen
  have hempty : PathUtils.isValidPathLen 0 = true ∧ PathUtils.getPathByteLen 0 = 0 := by decide
  have hcode : 0 < 256 ^ 2 := by decide
  rw [createPacket, hsize, createHeader_eq]
  refine ⟨_, rfl, rfl, ?_, ⟨⟨hempty.2, rfl, hlen, ?_, fun _ => ⟨hcode, hcode⟩,
    Nat.zero_lt_succ 255⟩, ?_, fun _ => rfl, hempty.1⟩⟩
  · simp only [Packet.getPayloadType, phTypeShift, phTypeMask, Nat.shiftRight_eq_div_pow]
    rw [Nat.and_two_pow_sub_one_eq_mod _ 4]
    omega
  · show 4 * payloadType + getRouteTypeValue route hasPath < 256
    omega
  · simp only [Packet.getPayloadVer, phVerShift, phVerMask, Nat.shiftRight_eq_div_pow]
    rw [Nat.and_two_pow_sub_one_eq_mod _ 2]
    omega

theorem createPacket_carries {payloadType : ℕ} (htype : payloadType < 16) {route : RouteName}
    {hasPath : Bool} {payload : Bytes} {p : Packet}
    (h : createPacket (createHeader payloadType route hasPath) payload = .ok p) :
    p.getPayloadType = payloadType ∧ p.payload = payload := by
  obtain ⟨hlen, -⟩ := createPacket_ok h
  obtain ⟨q, hq, hpayload, hqtype, -⟩ := createPacket_spec payloadType htype route hasPath hlen
  cases h.symm.trans hq
  exact ⟨hqtype, hpayload⟩

theorem createPacket_wellFormed {payloadType : ℕ} (htype : payloadType < 16) {route : RouteName}
    {hasPath : Bool} {payload : Bytes} {p : Packet}
    (h : createPacket (createHeader payloadType route hasPath) payload = .ok p) :
    p.WellFormed := by
  obtain ⟨hlen, -⟩ := createPacket_ok h
  obtain ⟨q, hq, -, -, hwell⟩ := createPacket_spec payloadType htype route hasPath hlen
  cases h.symm.trans hq
  exact hwell

def PathFits (path : Bytes) (encoded : ℕ) : Prop :=
  PathUtils.isValidPathLen encoded = true ∧ path.length = PathUtils.getPathByteLen encoded

theorem withAckPath_spec {pkt : Packet} (hpkt : pkt.WellFormed) {path : Bytes} {encoded : Option ℕ}
    (hpath : path = [] ∨ ∃ n, encoded = some n ∧ PathFits path n) :
    ∃ p, withAckPath pkt path encoded = .ok p ∧ p.payload = pkt.payload ∧
      p.getPayloadType = pkt.getPayloadType ∧ p.WellFormed := by
  unfold withAckPath
  split
  · exact ⟨pkt, rfl, rfl, rfl, hpkt⟩
  · rename_i hne
    obtain ⟨n, rfl, hvalid, hlen⟩ := hpath.resolve_left hne
    exact ⟨_, rfl, rfl, rfl, hpkt.withPath hvalid hlen.symm⟩

theorem withAckPath_ok {pkt p : Packet} {path : Bytes} {encoded : Option ℕ}
    (h : withAckPath pkt path encoded = .ok p) :
    p.payload = pkt.payload ∧ p.getPayloadType = pkt.getPayloadType := by
  unfold withAckPath at h
  split at h
  · cases h
    exact ⟨rfl, rfl⟩
  cases encoded with
  | some n =>
    cases h
    exact ⟨rfl, rfl⟩
  | none =>
    unfold Packet.setPath at h
    dsimp only at h
    split at h
    · cases h
    · obtain ⟨n, -, h⟩ := bind_eq_ok.mp h
      cases h
      exact ⟨rfl, rfl⟩

theorem createAckFromBytes_ok {ackBytes path : Bytes} {encoded : Option ℕ} {route : RouteName}
    {p : Packet} (h : createAckFromBytes ackBytes path encoded route = .ok p) :
    p.getPayloadType = payloadTypeAck ∧ p.payload = ackBytes := by
  obtain ⟨pkt, hpkt, h⟩ := bind_eq_ok.mp h
  obtain ⟨hpayload, htype⟩ := withAckPath_ok h
  rw [hpayload, htype]
  exact createPacket_carries (by decide) hpkt

theorem createMultiAck_ok {ackBytes path : Bytes} {encoded : Option ℕ} {p : Packet}
    (h : createMultiAck ackBytes 1 path encoded = .ok p) :
    p.getPayloadType = payloadTypeMultipart ∧ p.payload = 0x13 :: ackBytes := by
  obtain ⟨pkt, hpkt, h⟩ := bind_eq_ok.mp h
  obtain ⟨hpayload, htype⟩ := withAckPath_ok h
  rw [hpayload, htype]
  exact createPacket_carries (by decide) hpkt

theorem createAckFromBytes_spec {ackBytes path : Bytes} {encoded : Option ℕ} (route : RouteName)
    (hlen : ackBytes.length ≤ maxPacketPayload)
    (hpath : path = [] ∨ ∃ n, encoded = some n ∧ PathFits path n) :
    ∃ p, createAckFromBytes ackBytes path encoded route = .ok p ∧ p.payload = ackBytes ∧
      p.getPayloadType = payloadTypeAck ∧ p.WellFormed := by
  obtain ⟨pkt, hpkt, rfl, htype, hwell⟩ := createPacket_spec payloadTypeAck
    (by decide) route (!path.isEmpty) hlen
  obtain ⟨p, hp, hpayload, hptype, hpwell⟩ := withAckPath_spec hwell hpath
  refine ⟨p, ?_, hpayload, hptype.trans htype, hpwell⟩
  rw [createAckFromBytes, hpkt]
  exact hp

theorem createMultiAck_spec {ackBytes path : Bytes} {encoded : Option ℕ}
    (hlen : ackBytes.length < maxPacketPayload)
    (hpath : path = [] ∨ ∃ n, encoded = some n ∧ PathFits path n) :
    ∃ p, createMultiAck ackBytes 1 path encoded = .ok p ∧ p.payload = 0x13 :: ackBytes ∧
      p.getPayloadType = payloadTypeMultipart ∧ p.WellFormed := by
  have hlen' : ((0x13 : UInt8) :: ackBytes).length ≤ maxPacketPayload := hlen
  obtain ⟨pkt, hpkt, hpayload, htype, hwell⟩ := createPacket_spec
    payloadTypeMultipart (by decide) .direct (!path.isEmpty) hlen'
  obtain ⟨p, hp, hppayload, hptype, hpwell⟩ := withAckPath_spec hwell hpath
  refine ⟨p, ?_, hppayload.trans hpayload, hptype.trans htype, hpwell⟩
  have hwrap : UInt8.ofNat (((1 &&& 0x0F) <<< 4) ||| payloadTypeAck) = 0x13 := by decide
  rw [createMultiAck, hwrap, hpkt]
  exact hp

def pathReturnBody (encoded : ℕ) (path extra : Bytes) : Bytes :=
  UInt8.ofNat encoded :: (path ++ UInt8.ofNat payloadTypeAck :: extra)

theorem createPathReturn_spec (dest src : UInt8) (secret : Bytes) {path extra : Bytes} {encoded : ℕ}
    (hpath : PathFits path encoded) (hne : extra ≠ []) (hlen : extra.length ≤ 6) (noise : Bytes) :
    ∃ p, createPathReturn c dest src secret path payloadTypeAck extra (some encoded) noise = .ok p ∧
      p.payload = dest :: src :: c.encryptThenMac (secret.take 16) secret
        (pathReturnBody encoded path extra) ∧
      p.getPayloadType = payloadTypePath ∧ p.WellFormed := by
  obtain ⟨hvalid, hpathlen⟩ := hpath
  have hbytes : path.length ≤ 64 := by
    rw [hpathlen]
    exact ((PathUtils.isValidPathLen_iff encoded).mp hvalid).2
  have hbyte := byte_of_lt ((PathUtils.isValidPathLen_lt hvalid).trans (by decide))
  have hpayload : (dest :: src :: c.encryptThenMac (secret.take 16) secret
      (pathReturnBody encoded path extra)).length ≤ maxPacketPayload := by
    simp only [List.length_cons, c.length_encryptThenMac, pathReturnBody, List.length_append,
      cipherMacSize, cipherBlockSize, maxPacketPayload]
    omega
  obtain ⟨p, hp, hppayload, htype, hwell⟩ := createPacket_spec payloadTypePath
    (by decide) .flood false hpayload
  refine ⟨p, ?_, hppayload, htype, hwell⟩
  have hfits : ¬ path.length + extra.length + 5 > maxPacketPayload - 2 - cipherBlockSize := by
    simp only [maxPacketPayload, cipherBlockSize]
    omega
  have hreturn : pathReturnLen path (some encoded) = .ok encoded := by
    simp [pathReturnLen, hvalid, hpathlen]
  have htypeByte : Packet.byte payloadTypeAck = .ok [UInt8.ofNat payloadTypeAck] :=
    byte_of_lt (by decide)
  rw [createPathReturn, if_neg hfits, hreturn]
  simp only [ok_bind, hbyte, if_pos hne, htypeByte, pure_eq_ok]
  simpa [pathReturnBody] using hp

end

end OpenHop.PacketBuilder
