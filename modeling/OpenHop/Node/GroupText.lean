import OpenHop.Protocol.GroupPacket
import OpenHop.Protocol.PacketFilter

/-! # Receiving group text

The handler tries the channels whose digest starts with the packet's first byte and takes
the first whose authentication code matches. The text ends at its first zero byte and names
its sender up to the first colon and space.
-/

namespace OpenHop

/-- What is published about a group text. -/
structure ChannelMessageData where
  channelName : List Char
  channelHash : UInt8
  senderName : List Char
  messageText : List Char
  timestamp : ℕ
  pathLen : ℕ
  packetHash : Bytes
  fullContent : List Char
  isOutgoing : Bool := false
  path : Bytes
  rssi : ℤ
  snr : ℚ
  deriving DecidableEq

/-- The channel database as the handler reads it, and the hashes of packets it has seen. -/
structure GroupTextHandler where
  channels : List ChannelConfig
  seenGroupPackets : PacketHashCache := { ttlSeconds := 600, maxEntries := 4096 }

namespace GroupTextHandler

variable {Seed : Type} (c : Crypto Seed)

def getChannelsByHash (channels : List ChannelConfig) (channelHash : UInt8) :
    List ChannelConfig :=
  channels.filter fun channel => deriveChannelHash c channel.secret = channelHash

def decryptChannelMessage (channelSecret mac ciphertext : Bytes) : Option Bytes :=
  let secretBytes := normalizeChannelSecret channelSecret
  if mac ≠ (c.hmacSha256 secretBytes ciphertext).take 2 then none
  else some (c.aesDecrypt (secretBytes.take 16) ciphertext)

structure ParsedMessage where
  timestamp : ℕ
  flags : ℕ
  content : List Char
  deriving DecidableEq

/-- Only plain group text is supported, with an attempt in the low bits of its flags. -/
def parsePlaintextMessage (plaintext : Bytes) : Option ParsedMessage :=
  if plaintext.length < 5 then none
  else
    let flags := (plaintext.getD 4 0).toNat
    if flags >>> 2 ≠ 0 then none
    else
      some
        { timestamp := Bytes.toNatLE (plaintext.take 4)
          flags := flags
          content := Utf8.decodeReplace ((plaintext.drop 5).takeWhile (· ≠ 0)) }

/-- The parts before and after the first colon that is followed by a space. -/
def splitSender : List Char → Option (List Char × List Char)
  | [] => none
  | ch :: rest =>
    if ch = ':' ∧ rest.head? = some ' ' then some ([], rest.tail)
    else (splitSender rest).map fun (name, text) => (ch :: name, text)

def extractSenderFromMessage (messageContent : List Char) : List Char × List Char :=
  (splitSender messageContent).getD ("Unknown".toList, messageContent)

/-- The encoded path length of a flood, or the number of path bytes where it is zero. -/
def groupPathLen (packet : Packet) : ℕ :=
  if packet.isRouteFlood then
    if packet.pathLen ≠ 0 then packet.pathLen else packet.path.length
  else 0xFF

/-- The first channel with the packet's hash that authenticates it, and what it decrypts to. -/
def selectChannel (channels : List ChannelConfig) (payload : Bytes) :
    Option (ChannelConfig × Bytes) :=
  if payload.length < 4 then none
  else
    (getChannelsByHash c channels (payload.headD 0)).findSome? fun channel =>
      (decryptChannelMessage c channel.secret ((payload.take 3).drop 1) (payload.drop 3)).map
        fun plaintext => (channel, plaintext)

def messageData (packet : Packet) (channel : ChannelConfig) (parsed : ParsedMessage)
    (packetHash : Bytes) : ChannelMessageData :=
  let (senderName, messageBody) := extractSenderFromMessage parsed.content
  { channelName := channel.name
    channelHash := packet.getPayload.headD 0
    senderName := senderName
    messageText := messageBody
    timestamp := parsed.timestamp
    pathLen := groupPathLen packet
    packetHash := packetHash
    fullContent := parsed.content
    path := packet.path
    rssi := packet.rssi
    snr := packet.snr }

/-- A packet that is not published leaves none; only authenticated text enters the cache. -/
def call (h : GroupTextHandler) (now : ℚ) (packet : Packet) :
    GroupTextHandler × Option ChannelMessageData :=
  match selectChannel c h.channels packet.getPayload with
  | none => (h, none)
  | some (channel, plaintext) =>
    match parsePlaintextMessage plaintext, packet.calculatePacketHash c.sha256 with
    | some parsed, .ok packetHash =>
      let (duplicate, seen) := h.seenGroupPackets.checkAndAdd packetHash now
      let h := { h with seenGroupPackets := seen }
      if duplicate then (h, none) else (h, some (messageData packet channel parsed packetHash))
    | _, _ => (h, none)

section

variable {c}

theorem splitSender_append {name : List Char} (h : ¬ [':', ' '] <:+: name) (text : List Char) :
    splitSender (name ++ ':' :: ' ' :: text) = some (name, text) := by
  induction name with
  | nil => simp [splitSender]
  | cons ch name ih =>
    have htail : ¬ [':', ' '] <:+: name := fun hin =>
      h (hin.trans (List.suffix_cons ch name).isInfix)
    have hhead : ¬ (ch = ':' ∧ (name ++ ':' :: ' ' :: text).head? = some ' ') := by
      rintro ⟨rfl, hspace⟩
      cases name with
      | nil => cases hspace
      | cons d name =>
        cases hspace
        exact h ⟨[], name, rfl⟩
    rw [List.cons_append, splitSender, if_neg hhead, ih htail]
    rfl

theorem parsePlaintextMessage_ackSpan {timestamp : ℕ} (hts : timestamp < 256 ^ 4)
    {content : List Char} (hcontent : '\x00' ∉ content) (n : ℕ) :
    parsePlaintextMessage (PacketBuilder.ackSpan timestamp 0 [] (Utf8.encode content) ++
      List.replicate n 0) = some ⟨timestamp, 0, content⟩ := by
  have hlen : ¬ (PacketBuilder.ackSpan timestamp 0 [] (Utf8.encode content) ++
      List.replicate n 0).length < 5 := by
    rw [PacketBuilder.length_ackSpan_append]
    omega
  have hbody := Bytes.takeWhile_append_zeros (Utf8.zero_notMem_encode hcontent) n
  rw [parsePlaintextMessage, if_neg hlen, PacketBuilder.getD_ackSpan (by decide),
    PacketBuilder.take_ackSpan hts, PacketBuilder.drop_ackSpan, List.nil_append, hbody,
    Utf8.decodeReplace_encode]
  rfl

theorem selectChannel_encryptThenMac {channels : List ChannelConfig} {channel : ChannelConfig}
    (hmem : channel ∈ channels)
    (hunique : ∀ ch ∈ channels,
      deriveChannelHash c ch.secret = deriveChannelHash c channel.secret → ch = channel)
    {data : Bytes} (hdata : data ≠ []) :
    selectChannel c channels (deriveChannelHash c channel.secret ::
      c.encryptThenMac ((normalizeChannelSecret channel.secret).take 16)
        (normalizeChannelSecret channel.secret) data) = some (channel, zeroPad data) := by
  have hpos : 0 < data.length := List.length_pos_iff.mpr hdata
  have hlen : ¬ (deriveChannelHash c channel.secret ::
      c.encryptThenMac ((normalizeChannelSecret channel.secret).take 16)
        (normalizeChannelSecret channel.secret) data).length < 4 := by
    rw [List.length_cons, c.length_encryptThenMac]
    simp only [cipherMacSize, cipherBlockSize]
    omega
  have hopen : decryptChannelMessage c channel.secret
      ((c.hmacSha256 (normalizeChannelSecret channel.secret)
        (c.aesEncrypt ((normalizeChannelSecret channel.secret).take 16) data)).take 2)
      (c.aesEncrypt ((normalizeChannelSecret channel.secret).take 16) data) =
        some (zeroPad data) := by
    simp [decryptChannelMessage, c.aesDecrypt_aesEncrypt]
  have hmac : ((c.hmacSha256 (normalizeChannelSecret channel.secret)
      (c.aesEncrypt ((normalizeChannelSecret channel.secret).take 16) data)).take
        cipherMacSize).length = 2 := by
    simp [c.length_hmacSha256]
  have hcandidates : getChannelsByHash c channels (deriveChannelHash c channel.secret) ≠ [] :=
    List.ne_nil_of_mem (List.mem_filter.mpr ⟨hmem, decide_eq_true rfl⟩)
  rw [selectChannel, if_neg hlen]
  simp only [List.headD_cons, List.take_succ_cons, List.drop_succ_cons, List.drop_zero,
    Crypto.encryptThenMac]
  rw [List.take_left' hmac, List.drop_left' hmac]
  cases hlist : getChannelsByHash c channels (deriveChannelHash c channel.secret) with
  | nil => exact absurd hlist hcandidates
  | cons first rest =>
    have hfirst : first ∈ getChannelsByHash c channels (deriveChannelHash c channel.secret) := by
      rw [hlist]
      exact List.mem_cons_self
    obtain ⟨hin, hhash⟩ := List.mem_filter.mp hfirst
    obtain rfl := hunique first hin (of_decide_eq_true hhash)
    rw [List.findSome?_cons, cipherMacSize, hopen]
    rfl

theorem zero_notMem_groupContent {senderName message : List Char} (hname : '\x00' ∉ senderName)
    (hmessage : '\x00' ∉ message) : '\x00' ∉ PacketBuilder.groupContent senderName message := by
  have hfit := (Utf8.fit_longest (PacketBuilder.groupTextBudget senderName) message).isPrefix
  simp only [PacketBuilder.groupContent, PacketBuilder.senderHead, List.mem_append, not_or]
  exact ⟨⟨hname, by decide⟩, fun hmem => hmessage (hfit.subset hmem)⟩

theorem extractSender_groupContent {senderName : List Char} (hname : ¬ [':', ' '] <:+: senderName)
    (message : List Char) :
    extractSenderFromMessage (PacketBuilder.groupContent senderName message) =
      (senderName, Utf8.fit (PacketBuilder.groupTextBudget senderName) message) := by
  simp [extractSenderFromMessage, PacketBuilder.groupContent, PacketBuilder.senderHead,
    splitSender_append hname]

/-- A group text that was built under a channel's secret is delivered with its sender, its
timestamp and as much of its text as the budget admits, unless the packet was seen before. -/
theorem groupText_roundTrip (h : GroupTextHandler) {groupName message senderName : List Char}
    {channels : List ChannelConfig} {timestamp : ℕ} {p : Packet} {sent channel : ChannelConfig}
    (hsent : (channels.find? fun ch => ch.name = groupName) = some sent)
    (hsecret : sent.secret.length = 32) (hname : ¬ [':', ' '] <:+: senderName)
    (hname0 : '\x00' ∉ senderName) (hmessage : '\x00' ∉ message)
    (hp : PacketBuilder.createGroupDatagram c groupName message senderName (some channels)
      timestamp = .ok p)
    (hmem : channel ∈ h.channels) (hsame : channel.secret = sent.secret)
    (hunique : ∀ ch ∈ h.channels,
      deriveChannelHash c ch.secret = deriveChannelHash c sent.secret → ch = channel)
    (now : ℚ) :
    ∃ text packetHash d,
      Utf8.LongestPrefix (PacketBuilder.groupTextBudget senderName) message text ∧
      p.calculatePacketHash c.sha256 = .ok packetHash ∧
      d.channelName = channel.name ∧ d.senderName = senderName ∧ d.timestamp = timestamp ∧
      d.messageText = text ∧
      h.call c now p =
        ({ h with seenGroupPackets := (h.seenGroupPackets.checkAndAdd packetHash now).2 },
          if (h.seenGroupPackets.checkAndAdd packetHash now).1 then none else some d) ∧
      (h.seenGroupPackets.entries.get? packetHash = none → (h.call c now p).2 = some d) := by
  obtain ⟨_, found, hconfig, hfind, hbuilt⟩ := PacketBuilder.createGroupDatagram_ok hp
  cases hconfig
  obtain rfl : sent = found := Option.some.inj (hsent.symm.trans hfind)
  obtain ⟨hts, hpayload, htype⟩ := PacketBuilder.groupDatagram_ok
    (PacketBuilder.digestHead_channelHashInput hsecret) hbuilt
  rw [← hsame] at hunique hpayload
  have hparse : parsePlaintextMessage (zeroPad (PacketBuilder.ackSpan timestamp 0 []
      (Utf8.encode (PacketBuilder.groupContent senderName message)))) =
      some ⟨timestamp, 0, PacketBuilder.groupContent senderName message⟩ :=
    parsePlaintextMessage_ackSpan hts (zero_notMem_groupContent hname0 hmessage) _
  have hplain : PacketBuilder.ackSpan timestamp 0 []
      (Utf8.encode (PacketBuilder.groupContent senderName message)) ≠ [] := by
    simp [PacketBuilder.ackSpan]
  have hselect := selectChannel_encryptThenMac hmem hunique hplain
  rw [← hpayload] at hselect
  have hextract := extractSender_groupContent hname message
  obtain ⟨packetHash, hhash⟩ := Packet.exists_packetHash c.sha256 (htype.trans_ne (by decide))
  have hcall : h.call c now p =
      ({ h with seenGroupPackets := (h.seenGroupPackets.checkAndAdd packetHash now).2 },
        if (h.seenGroupPackets.checkAndAdd packetHash now).1 then none
        else some (messageData p channel
          ⟨timestamp, 0, PacketBuilder.groupContent senderName message⟩ packetHash)) := by
    simp only [call, hselect, hparse, hhash]
    split <;> rfl
  refine ⟨_, packetHash, _, Utf8.fit_longest _ message, hhash, ?_, ?_, ?_, ?_, hcall, ?_⟩
  · rfl
  · simp only [messageData, hextract]
  · rfl
  · simp only [messageData, hextract]
  · intro habsent
    rw [hcall, PacketHashCache.checkAndAdd_of_absent habsent]
    rfl

end

/-- A channel with a key of 16 bytes. -/
def publicChannel : ChannelConfig :=
  ⟨['p', 'u', 'b'], List.replicate 16 7 ++ List.replicate 16 0⟩

def publicHi : Packet :=
  { header := 21
    payload := [112, 0, 0, 239, 4, 7, 7, 7, 70, 105, 105, 61, 39, 111, 110, 7, 7, 7, 7]
    payloadLen := 19 }

theorem groupText_roundTrip_public :
    PacketBuilder.createGroupDatagram xorCrypto ['p', 'u', 'b'] ['h', 'i'] ['A', 'n', 'n']
      (some [publicChannel]) 1000 = .ok publicHi ∧
    ∃ d, (call xorCrypto { channels := [publicChannel] } 0 publicHi).2 = some d ∧
      d.senderName = ['A', 'n', 'n'] ∧ d.timestamp = 1000 ∧
      Utf8.LongestPrefix 155 ['h', 'i'] d.messageText := by
  have hp : PacketBuilder.createGroupDatagram xorCrypto ['p', 'u', 'b'] ['h', 'i'] ['A', 'n', 'n']
      (some [publicChannel]) 1000 = .ok publicHi := by decide +kernel
  have hmem : publicChannel ∈ [publicChannel] := List.mem_singleton.mpr rfl
  obtain ⟨text, packetHash, d, htext, -, -, hname, hts, rfl, -, hfresh⟩ :=
    groupText_roundTrip { channels := [publicChannel] } rfl rfl (by decide) (by decide) (by decide)
      hp hmem rfl (fun ch hch _ => List.mem_singleton.mp hch) 0
  exact ⟨hp, d, hfresh rfl, hname, hts, htext⟩

end GroupTextHandler

end OpenHop
