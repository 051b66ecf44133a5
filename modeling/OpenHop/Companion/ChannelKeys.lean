import OpenHop.Companion.ChannelSend
import OpenHop.Companion.ContactCapacity
import OpenHop.Data.Sha256

/-! # One channel in four derivations

The packet builder, the group text handler, the sender of group data and the helpers of the
protocol each derive a channel's hash byte and its key of 32 bytes from its secret. The keys
are always the same.
-/

namespace OpenHop

variable {Seed : Type} (c : Crypto Seed)

/-- The secret of a channel as a list of channels holds it. -/
inductive ChannelSecret where
  | bytes (d : Bytes)
  | text (s : List Char)

/-- The form stands for the bytes of the secret. -/
def ChannelSecret.Gives : ChannelSecret → Bytes → Prop
  | .bytes d, secret => d = secret
  | .text s, secret => fromHex? s = some secret

namespace PacketBuilder

def secretBytes : ChannelSecret → Option Bytes
  | .bytes d => some d
  | .text s => fromHex? s

/-- The hash and the key that `groupDatagram` computes. -/
def datagramKey (s : ChannelSecret) : Option (UInt8 × Bytes) :=
  (secretBytes s).map fun d =>
    (c.digestHead (channelHashInput d), (d ++ List.replicate 32 0).take 32)

end PacketBuilder

namespace GroupTextHandler

/-- Text that is not hexadecimal is the secret itself; `bytes.fromhex` raises on bytes. -/
def secretBytes : ChannelSecret → Option Bytes
  | .bytes _ => none
  | .text s => some ((fromHex? s).getD (Utf8.encode s))

/-- The hash of `_derive_channel_hash` and the key of `_decrypt_channel_message`. -/
def channelKey (s : ChannelSecret) : Option (UInt8 × Bytes) :=
  (secretBytes s).map fun d =>
    (deriveChannelHash c d,
      if d.length < 32 then d ++ List.replicate (32 - d.length) 0
      else if d.length > 32 then d.take 32
      else d)

/-- The channels that a database lists, none if reading one of them raises. -/
def readChannels (entries : List (List Char × ChannelSecret)) : List ChannelConfig :=
  (entries.mapM fun entry => (secretBytes entry.2).map (ChannelConfig.mk entry.1)).getD []

end GroupTextHandler

/-- The hash and the key in `send_channel_data`. -/
def Inbox.channelDataKey (secret : Bytes) : UInt8 × Bytes :=
  let secretBytes :=
    if secret.length < 32 then secret ++ List.replicate (32 - secret.length) 0 else secret.take 32
  let hashInput :=
    if 32 ≤ secretBytes.length ∧ (secretBytes.drop 16).take 16 = List.replicate 16 0 then
      secretBytes.take 16
    else secretBytes
  (c.digestHead hashInput, secretBytes)

/-- What `derive_channel_hash` and `normalize_channel_secret` return. -/
def channelKey (secret : Bytes) : UInt8 × Bytes :=
  (deriveChannelHash c secret, normalizeChannelSecret secret)

section

variable {c} {secret : Bytes}

theorem PacketBuilder.secretBytes_of_gives {s : ChannelSecret} (h : s.Gives secret) :
    PacketBuilder.secretBytes s = some secret := by
  cases s with
  | bytes d => exact congrArg some h
  | text s => exact h

theorem GroupTextHandler.secretBytes_eq_some_iff {s : ChannelSecret} (h : s.Gives secret) :
    GroupTextHandler.secretBytes s = some secret ↔ ∃ text, s = .text text := by
  cases s with
  | bytes d => simp [GroupTextHandler.secretBytes]
  | text s =>
    have hhex : fromHex? s = some secret := h
    simp [GroupTextHandler.secretBytes, hhex]

theorem GroupTextHandler.channelKey_of_secretBytes {s : ChannelSecret}
    (h : GroupTextHandler.secretBytes s = some secret) :
    GroupTextHandler.channelKey c s = some (OpenHop.channelKey c secret) := by
  have hkey : (if secret.length < 32 then secret ++ List.replicate (32 - secret.length) 0
      else if secret.length > 32 then secret.take 32 else secret) =
      normalizeChannelSecret secret := by
    unfold normalizeChannelSecret
    split
    · rfl
    split
    · rfl
    · rw [List.take_of_length_le (by omega)]
  rw [GroupTextHandler.channelKey, h, Option.map_some, hkey]
  rfl

theorem Inbox.channelDataKey_eq (secret : Bytes) :
    Inbox.channelDataKey c secret = channelKey c secret := by
  have hkey : (if secret.length < 32 then secret ++ List.replicate (32 - secret.length) 0
      else secret.take 32) = normalizeChannelSecret secret := rfl
  unfold Inbox.channelDataKey channelKey deriveChannelHash
  simp only [hkey, length_normalizeChannelSecret, le_refl, true_and]

def hashedSecret (secret : Bytes) : Bytes :=
  let secret := normalizeChannelSecret secret
  if (secret.drop 16).take 16 = List.replicate 16 0 then secret.take 16 else secret

theorem length_hashedSecret (secret : Bytes) :
    (hashedSecret secret).length = 16 ∨ (hashedSecret secret).length = 32 := by
  have hlen := length_normalizeChannelSecret secret
  unfold hashedSecret
  dsimp only
  split
  · rw [List.length_take, hlen]
    exact .inl rfl
  · exact .inr hlen

theorem channelHashInput_of_lt (h : secret.length < 32) :
    PacketBuilder.channelHashInput secret = secret := by
  rw [PacketBuilder.channelHashInput, if_neg (by omega), if_neg (by omega)]

theorem channelHashInput_of_ge (h : 32 ≤ secret.length) :
    PacketBuilder.channelHashInput secret = hashedSecret secret := by
  have hhalf : ((secret.take 32).drop 16).take 16 = (secret.drop 16).take 16 := by
    rw [List.drop_take, List.take_take, Nat.min_self]
  unfold PacketBuilder.channelHashInput hashedSecret normalizeChannelSecret
  simp only [not_lt.mpr h, if_false, h, true_and, hhalf, List.take_take]
  split
  · rfl
  split
  · rfl
  · rw [List.take_of_length_le (by omega)]

theorem hashedSecret_of_length (h : secret.length = 16) : hashedSecret secret = secret := by
  have hpad : normalizeChannelSecret secret = secret ++ List.replicate 16 0 := by
    rw [normalizeChannelSecret, if_pos (by omega), h]
  have hzeros : (List.replicate 16 (0 : UInt8)).take 16 = List.replicate 16 0 := rfl
  rw [hashedSecret, hpad, List.drop_left' h, if_pos hzeros, List.take_left' h]

/-- The builder digests the same bytes as the others for secrets of 16 bytes and of 32 or more,
and for no others. -/
theorem channelHashInput_eq_iff (secret : Bytes) :
    PacketBuilder.channelHashInput secret = hashedSecret secret ↔
      secret.length = 16 ∨ 32 ≤ secret.length := by
  by_cases hlong : 32 ≤ secret.length
  · exact iff_of_true (channelHashInput_of_ge hlong) (.inr hlong)
  rw [channelHashInput_of_lt (not_le.mp hlong), or_iff_left hlong]
  constructor
  · intro heq
    rcases length_hashedSecret secret with hlen | hlen
    · rw [heq, hlen]
    · rw [← heq] at hlen
      exact absurd hlen.ge hlong
  · intro h16
    exact (hashedSecret_of_length h16).symm

/-- A secret with zeros up to 16 bytes, or up to 32 if anything but zeros is behind the first 16. -/
def paddedSecret (secret : Bytes) : Bytes :=
  if (secret.drop 16).all (· = 0) then (secret ++ List.replicate 16 0).take 16
  else secret ++ List.replicate (32 - secret.length) 0

theorem hashedSecret_of_lt (h : secret.length < 32) :
    hashedSecret secret = paddedSecret secret := by
  have hzeros : ((secret ++ List.replicate (32 - secret.length) 0).drop 16).take 16 =
      List.replicate 16 0 ↔ (secret.drop 16).all (· = 0) = true := by
    rw [List.take_of_length_le (by simp; omega), List.eq_replicate_iff, List.drop_append]
    simp only [List.length_append, List.length_drop, List.length_replicate, List.drop_replicate,
      List.mem_append, List.mem_replicate, List.all_eq_true, decide_eq_true_eq]
    constructor
    · exact fun hall b hb => hall.2 b (.inl hb)
    · exact fun hall => ⟨by omega, fun b hb => hb.elim (hall b) fun hzero => hzero.2⟩
  have htake : (secret ++ List.replicate (32 - secret.length) (0 : UInt8)).take 16 =
      (secret ++ List.replicate 16 0).take 16 := by
    rw [List.take_append, List.take_append, List.take_replicate, List.take_replicate]
    congr 2
    omega
  simp only [hashedSecret, normalizeChannelSecret, if_pos h, hzeros, htake, paddedSecret]

theorem digestHead_channelHashInput_iff (secret : Bytes) :
    c.digestHead (PacketBuilder.channelHashInput secret) = deriveChannelHash c secret ↔
      secret.length = 16 ∨ 32 ≤ secret.length ∨
        c.digestHead secret = c.digestHead (paddedSecret secret) := by
  have hhash : c.digestHead (hashedSecret secret) = deriveChannelHash c secret := rfl
  by_cases hsame : secret.length = 16 ∨ 32 ≤ secret.length
  · rw [(channelHashInput_eq_iff secret).mpr hsame, hhash, ← or_assoc]
    exact iff_of_true rfl (.inl hsame)
  · rw [← hashedSecret_of_lt (by omega), channelHashInput_of_lt (by omega), ← or_assoc,
      or_iff_right hsame, hhash]

end

/-- All derivations agree on a secret that the builder and the handler hold in given forms, and
what is sent under it is read by who holds it. -/
structure OneChannel (secret : Bytes) (built held : ChannelSecret) : Prop where
  datagram : PacketBuilder.datagramKey c built = some (channelKey c secret)
  handler : GroupTextHandler.channelKey c held = some (channelKey c secret)
  data : Inbox.channelDataKey c secret = channelKey c secret
  text_read : ∀ name message senderName timestamp d p,
    PacketBuilder.secretBytes built = some d →
    PacketBuilder.createGroupDatagram c name message senderName (some [⟨name, d⟩]) timestamp =
      .ok p →
    GroupTextHandler.selectChannel c (GroupTextHandler.readChannels [(name, held)]) p.getPayload =
      some (⟨name, secret⟩, zeroPad (PacketBuilder.ackSpan timestamp 0 []
        (Utf8.encode (PacketBuilder.groupContent senderName message))))
  data_read : ∀ (b : Inbox) (cfg : SendConfig) idx channel dataType payload path pathLenEncoded p,
    b.channels.get idx = some channel → channel.secret = secret →
    (∀ k other, b.channels.get k = some other →
      deriveChannelHash c other.secret = deriveChannelHash c secret → k = idx) →
    Inbox.PathGiven path pathLenEncoded →
    Inbox.buildChannelData c cfg secret dataType payload path pathLenEncoded = .ok p →
    b.selectSlot c p.payload =
      some (idx, zeroPad (Inbox.groupDataPlaintext dataType payload))

section

variable {c} {secret : Bytes}

theorem createGroupDatagram_read {name message senderName : List Char} {timestamp : ℕ} {p : Packet}
    {held : ChannelSecret} (hheld : GroupTextHandler.secretBytes held = some secret)
    (hhash : c.digestHead (PacketBuilder.channelHashInput secret) = deriveChannelHash c secret)
    (hp : PacketBuilder.createGroupDatagram c name message senderName (some [⟨name, secret⟩])
      timestamp = .ok p) :
    GroupTextHandler.selectChannel c (GroupTextHandler.readChannels [(name, held)]) p.getPayload =
      some (⟨name, secret⟩, zeroPad (PacketBuilder.ackSpan timestamp 0 []
        (Utf8.encode (PacketBuilder.groupContent senderName message)))) := by
  have hread : GroupTextHandler.readChannels [(name, held)] = [⟨name, secret⟩] := by
    simp [GroupTextHandler.readChannels, hheld]
  obtain ⟨channels, channel, hconfig, hfind, hbuilt⟩ := PacketBuilder.createGroupDatagram_ok hp
  cases hconfig
  obtain rfl : channel = ⟨name, secret⟩ := List.mem_singleton.mp (List.mem_of_find?_eq_some hfind)
  obtain ⟨-, hpayload, -⟩ := PacketBuilder.groupDatagram_ok hhash hbuilt
  have hplain : PacketBuilder.ackSpan timestamp 0 []
      (Utf8.encode (PacketBuilder.groupContent senderName message)) ≠ [] := by
    simp [PacketBuilder.ackSpan]
  rw [hread, hpayload]
  exact GroupTextHandler.selectChannel_encryptThenMac (List.mem_singleton.mpr rfl)
    (fun ch hch _ => List.mem_singleton.mp hch) hplain

theorem buildChannelData_read {b : Inbox} {cfg : SendConfig} {idx dataType : ℕ}
    {channel : ChannelConfig} {payload : Bytes} {path : Option Bytes} {pathLenEncoded : Option ℕ}
    {p : Packet} (hslot : b.channels.get idx = some channel)
    (hunique : ∀ k other, b.channels.get k = some other →
      deriveChannelHash c other.secret = deriveChannelHash c channel.secret → k = idx)
    (hpath : Inbox.PathGiven path pathLenEncoded)
    (hp : Inbox.buildChannelData c cfg channel.secret dataType payload path pathLenEncoded =
      .ok p) :
    b.selectSlot c p.payload =
      some (idx, zeroPad (Inbox.groupDataPlaintext dataType payload)) := by
  obtain ⟨-, -, hpayload⟩ := Inbox.buildChannelData_wellFormed hpath hp
  have hplain : Inbox.groupDataPlaintext dataType payload ≠ [] := by
    simp [Inbox.groupDataPlaintext]
  rw [hpayload]
  exact Inbox.selectSlot_encryptThenMac hslot hunique hplain

/-- A secret makes one channel if the handler has it as text and the builder digests what the
others digest, or its digest begins with the same byte with or without zeros behind it. -/
theorem oneChannel_iff {built held : ChannelSecret} (hbuilt : built.Gives secret)
    (hheld : held.Gives secret) :
    OneChannel c secret built held ↔
      (∃ text, held = .text text) ∧
        (secret.length = 16 ∨ 32 ≤ secret.length ∨
          c.digestHead secret = c.digestHead (paddedSecret secret)) := by
  have hbytes := PacketBuilder.secretBytes_of_gives hbuilt
  have hdatagram : PacketBuilder.datagramKey c built =
      some (c.digestHead (PacketBuilder.channelHashInput secret),
        normalizeChannelSecret secret) := by
    rw [PacketBuilder.datagramKey, hbytes, Option.map_some, take_append_zeros]
  rw [← GroupTextHandler.secretBytes_eq_some_iff hheld, ← digestHead_channelHashInput_iff]
  constructor
  · intro hone
    have hhash := hdatagram.symm.trans hone.datagram
    refine ⟨?_, congrArg Prod.fst (Option.some.inj hhash)⟩
    rw [GroupTextHandler.secretBytes_eq_some_iff hheld]
    cases held with
    | bytes d => cases hone.handler
    | text s => exact ⟨s, rfl⟩
  · rintro ⟨hread, hhash⟩
    constructor
    · rw [hdatagram, hhash]
      rfl
    · exact GroupTextHandler.channelKey_of_secretBytes hread
    · exact Inbox.channelDataKey_eq secret
    · intro name message senderName timestamp d p hd hp
      obtain rfl : secret = d := Option.some.inj (hbytes.symm.trans hd)
      exact createGroupDatagram_read hread hhash hp
    · intro b cfg idx channel dataType payload path pathLenEncoded p hslot hsecret hunique hpath hp
      subst hsecret
      exact buildChannelData_read hslot hunique hpath hp

end

/-- Channels are hashed with SHA-256. -/
def sha256Crypto : Crypto Bytes :=
  { xorCrypto with
    sha256 := Sha256.digest
    length_sha256 := Sha256.length_digest }

/-- The secret of the public channel in hexadecimal digits. -/
def publicHex : List Char := "8b3387e9c5cdea6ac9e5edbaa115cd72".toList

def publicBytes : Bytes :=
  [0x8b, 0x33, 0x87, 0xe9, 0xc5, 0xcd, 0xea, 0x6a, 0xc9, 0xe5, 0xed, 0xba, 0xa1, 0x15, 0xcd, 0x72]

theorem oneChannel_iff_public :
    (ChannelSecret.text publicHex).Gives publicBytes ∧
      OneChannel sha256Crypto publicBytes (.bytes publicBytes) (.text publicHex) := by
  have hhex : (ChannelSecret.text publicHex).Gives publicBytes :=
    show fromHex? publicHex = some publicBytes by decide +kernel
  have hbytes : (ChannelSecret.bytes publicBytes).Gives publicBytes := rfl
  exact ⟨hhex, (oneChannel_iff hbytes hhex).mpr ⟨⟨publicHex, rfl⟩, .inl rfl⟩⟩

/-- For a secret of one byte, the builder's packets carry another hash than the handler looks
for, who does not read them. -/
theorem short_secret_unread :
    (ChannelSecret.text ['0', '1']).Gives [1] ∧
      PacketBuilder.datagramKey sha256Crypto (.text ['0', '1']) =
        some (0x4b, 1 :: List.replicate 31 0) ∧
      GroupTextHandler.channelKey sha256Crypto (.text ['0', '1']) =
        some (0x4c, 1 :: List.replicate 31 0) ∧
      ((PacketBuilder.createGroupDatagram sha256Crypto ['a'] ['h', 'i'] ['B'] (some [⟨['a'], [1]⟩])
        1000).toOption.map fun p => GroupTextHandler.selectChannel sha256Crypto
          (GroupTextHandler.readChannels [(['a'], .text ['0', '1'])]) p.getPayload) = some none ∧
      ¬ OneChannel sha256Crypto [1] (.text ['0', '1']) (.text ['0', '1']) := by
  have hdatagram : PacketBuilder.datagramKey sha256Crypto (.text ['0', '1']) =
      some (0x4b, 1 :: List.replicate 31 0) := by decide +kernel
  have hhandler : GroupTextHandler.channelKey sha256Crypto (.text ['0', '1']) =
      some (0x4c, 1 :: List.replicate 31 0) := by decide +kernel
  refine ⟨rfl, hdatagram, hhandler, by decide +kernel, ?_⟩
  intro hone
  have hsame := hone.datagram.trans hone.handler.symm
  rw [hdatagram, hhandler] at hsame
  exact absurd hsame (by decide)

end OpenHop
