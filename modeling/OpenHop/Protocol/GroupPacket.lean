import OpenHop.Protocol.PacketBuilder

/-! # Group packets

A channel is a shared secret of 32 bytes. Its packets start with one byte of the secret's
digest, by which receivers look for the channel, and are encrypted and authenticated under
the secret.
-/

namespace OpenHop

variable {Seed : Type} (c : Crypto Seed)

/-- The first byte of a digest. -/
def Crypto.digestHead (d : Bytes) : UInt8 := (c.sha256 d).headD 0

def normalizeChannelSecret (secret : Bytes) : Bytes :=
  if secret.length < 32 then secret ++ List.replicate (32 - secret.length) 0 else secret.take 32

def deriveChannelHash (secret : Bytes) : UInt8 :=
  let secret := normalizeChannelSecret secret
  c.digestHead (if (secret.drop 16).take 16 = List.replicate 16 0 then secret.take 16 else secret)

theorem normalizeChannelSecret_of_length {secret : Bytes} (h : secret.length = 32) :
    normalizeChannelSecret secret = secret := by
  rw [normalizeChannelSecret, if_neg (by omega), List.take_of_length_le h.le]

theorem length_normalizeChannelSecret (secret : Bytes) :
    (normalizeChannelSecret secret).length = 32 := by
  unfold normalizeChannelSecret
  split
  · rw [List.length_append, List.length_replicate]
    omega
  · rw [List.length_take]
    omega

theorem take_append_zeros (secret : Bytes) :
    (secret ++ List.replicate 32 0).take 32 = normalizeChannelSecret secret := by
  unfold normalizeChannelSecret
  rw [List.take_append, List.take_replicate]
  split
  · rename_i hlt
    rw [List.take_of_length_le hlt.le, Nat.min_eq_left (Nat.sub_le 32 _)]
  · rename_i hge
    rw [Nat.sub_eq_zero_of_le (not_lt.mp hge), Nat.zero_min, List.replicate_zero, List.append_nil]

/-- A channel as the channel database lists it. -/
structure ChannelConfig where
  name : List Char
  secret : Bytes
  deriving DecidableEq

namespace PacketBuilder

def channelHashInput (secretBytes : Bytes) : Bytes :=
  if 32 ≤ secretBytes.length ∧ (secretBytes.drop 16).take 16 = List.replicate 16 0 then
    secretBytes.take 16
  else if secretBytes.length > 32 then secretBytes.take 32
  else secretBytes

/-- The bytes of a text within a budget; a character split by the cut is dropped. -/
def cutText (maxText : ℕ) (message : List Char) : Bytes :=
  let textBytes := Utf8.encode message
  if textBytes.length > maxText then Utf8.encode (Utf8.decodeIgnore (textBytes.take maxText))
  else textBytes

def senderHead (senderName : List Char) : List Char := senderName ++ [':', ' ']

/-- What the sender's name leaves of the text limit. -/
def groupTextBudget (senderName : List Char) : ℕ :=
  maxTextLen - (Utf8.encode (senderHead senderName)).length

/-- A group text under a given secret. -/
def groupDatagram (secretBytes : Bytes) (message senderName : List Char) (timestamp : ℕ) :
    Except PacketError Packet := do
  let channelHash := c.digestHead (channelHashInput secretBytes)
  let secretBytes := (secretBytes ++ List.replicate 32 0).take 32
  let content := Utf8.encode (senderHead senderName) ++
    cutText (groupTextBudget senderName) message
  let plaintext ← packTimestampData timestamp [.int 0x00, .bytes content]
  let ciphertext := c.aesEncrypt (secretBytes.take 16) plaintext
  let mac := (c.hmacSha256 secretBytes ciphertext).take 2
  createPacket (createHeader payloadTypeGrpTxt .flood) (channelHash :: (mac ++ ciphertext))

def createGroupDatagram (groupName message senderName : List Char)
    (channelsConfig : Option (List ChannelConfig)) (timestamp : ℕ) : Except PacketError Packet :=
  match channelsConfig with
  | none => .error .channelsConfigRequired
  | some channels =>
    match channels.find? fun ch => ch.name = groupName with
    | none => .error (.channelNotFound groupName)
    | some channel => groupDatagram c channel.secret message senderName timestamp

def createGroupDataPacket (ptype : ℕ) (channelHash : UInt8) (plaintext secret : Bytes) :
    Except PacketError Packet :=
  if ptype ≠ payloadTypeGrpTxt ∧ ptype ≠ payloadTypeGrpData then .error (.invalidPayloadType ptype)
  else
    let cipher := c.encryptThenMac (secret.take 16) secret plaintext
    createPacket (createHeader ptype .flood) (channelHash :: cipher)

section

variable {c}

theorem cutText_eq (maxText : ℕ) (message : List Char) :
    cutText maxText message = Utf8.encode (Utf8.fit maxText message) := by
  unfold cutText
  dsimp only
  split
  · rw [Utf8.decodeIgnore_take_encode]
  · rw [Utf8.fit_of_le (by omega)]

theorem digestHead_channelHashInput {secret : Bytes} (h : secret.length = 32) :
    c.digestHead (channelHashInput secret) = deriveChannelHash c secret := by
  simp only [deriveChannelHash, normalizeChannelSecret_of_length h, channelHashInput, h, le_refl,
    true_and, gt_iff_lt, lt_irrefl, if_false]

def groupContent (senderName message : List Char) : List Char :=
  senderHead senderName ++ Utf8.fit (groupTextBudget senderName) message

theorem groupDatagram_eq {secret : Bytes}
    (hhash : c.digestHead (channelHashInput secret) = deriveChannelHash c secret)
    (message senderName : List Char) {timestamp : ℕ} (hts : timestamp < 256 ^ 4) :
    groupDatagram c secret message senderName timestamp =
      createPacket (createHeader payloadTypeGrpTxt .flood)
        (deriveChannelHash c secret ::
          c.encryptThenMac ((normalizeChannelSecret secret).take 16) (normalizeChannelSecret secret)
            (ackSpan timestamp 0 [] (Utf8.encode (groupContent senderName message)))) := by
  simp only [groupDatagram, take_append_zeros, cutText_eq, ← Utf8.encode_append, hhash,
    packTimestampData_bytes hts (by decide : 0 < 256), ok_bind]
  rfl

theorem groupDatagram_ok {secret : Bytes}
    (hhash : c.digestHead (channelHashInput secret) = deriveChannelHash c secret)
    {message senderName : List Char} {timestamp : ℕ} {p : Packet}
    (h : groupDatagram c secret message senderName timestamp = .ok p) :
    timestamp < 256 ^ 4 ∧
      p.getPayload = deriveChannelHash c secret ::
        c.encryptThenMac ((normalizeChannelSecret secret).take 16) (normalizeChannelSecret secret)
          (ackSpan timestamp 0 [] (Utf8.encode (groupContent senderName message))) ∧
      p.getPayloadType = payloadTypeGrpTxt := by
  have hts : timestamp < 256 ^ 4 := by
    simp only [groupDatagram, bind_eq_ok] at h
    obtain ⟨plaintext, hplain, -⟩ := h
    exact (packTimestampData_ok hplain).1
  rw [groupDatagram_eq hhash message senderName hts] at h
  obtain ⟨-, rfl⟩ := createPacket_ok h
  have htype : (createHeader payloadTypeGrpTxt .flood >>> phTypeShift) &&& phTypeMask =
      payloadTypeGrpTxt := by decide
  exact ⟨hts, List.take_length, htype⟩

theorem createGroupDatagram_ok {groupName message senderName : List Char}
    {channelsConfig : Option (List ChannelConfig)} {timestamp : ℕ} {p : Packet}
    (h : createGroupDatagram c groupName message senderName channelsConfig timestamp = .ok p) :
    ∃ channels channel, channelsConfig = some channels ∧
      (channels.find? fun ch => ch.name = groupName) = some channel ∧
      groupDatagram c channel.secret message senderName timestamp = .ok p := by
  unfold createGroupDatagram at h
  split at h
  · cases h
  · rename_i channels
    split at h
    · cases h
    · rename_i channel hfind
      exact ⟨channels, channel, rfl, hfind, h⟩

theorem createGroupDataPacket_ok {channelHash : UInt8} {plaintext secret : Bytes} {p : Packet}
    (h : createGroupDataPacket c payloadTypeGrpData channelHash plaintext secret = .ok p) :
    p.payload = channelHash :: c.encryptThenMac (secret.take 16) secret plaintext ∧
      p.getPayloadType = payloadTypeGrpData ∧ p.getRouteType = routeTypeFlood ∧ p.WellFormed := by
  rw [createGroupDataPacket, if_neg (by decide)] at h
  obtain ⟨hlen, -⟩ := createPacket_ok h
  obtain ⟨q, hq, hpayload, htype, hwell⟩ :=
    createPacket_spec payloadTypeGrpData (by decide) .flood false hlen
  obtain rfl := Except.ok.inj (hq.symm.trans h)
  obtain ⟨-, rfl⟩ := createPacket_ok h
  have hroute : createHeader payloadTypeGrpData .flood &&& phRouteMask = routeTypeFlood := by decide
  exact ⟨hpayload, htype, hroute, hwell⟩

end

end PacketBuilder

end OpenHop
