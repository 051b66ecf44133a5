import OpenHop.Companion.Messages

/-! # Sending to channels

Group text is built from the name of a slot's channel, group data from its secret. Either is
scoped to a region if one is set, gets the node's hash width and is entered into the packet
cache before it is sent.
-/

namespace OpenHop

/-- `MAX_GROUP_DATA_LENGTH` -/
def maxGroupDataLength : ℕ := maxPacketPayload - cipherBlockSize - 3

/-- The preferences that sending reads. -/
structure SendConfig where
  nodeName : List Char := []
  pathHashMode : ℕ := 0
  floodTransportKey : Option Bytes := none
  defaultScopeKey : Option Bytes := none
  floodUnscoped : Bool := false

namespace SendConfig

variable {Seed : Type} (c : Crypto Seed)

def resolveFloodTransportKey (cfg : SendConfig) : Option Bytes :=
  cfg.floodTransportKey.or cfg.defaultScopeKey

def applyFloodScope (cfg : SendConfig) (pkt : Packet) : Except PacketError Packet :=
  if pkt.floodScopeApplied then .ok pkt
  else if pkt.getRouteType ≠ routeTypeFlood then .ok pkt
  else
    let pkt := { pkt with floodScopeApplied := true }
    if cfg.floodUnscoped then .ok pkt
    else
      match cfg.resolveFloodTransportKey with
      | none => .ok pkt
      | some key =>
        match scopePacket c pkt key with
        | some pkt => .ok pkt
        | none => .error .badTransportKey

def applyPathHashMode (cfg : SendConfig) (pkt : Packet) : Except PacketError Packet :=
  pkt.applyPathHashMode cfg.pathHashMode true

variable {c}

theorem applyFloodScope_wellFormed {cfg : SendConfig} {p q : Packet} (hp : p.WellFormed)
    (h : cfg.applyFloodScope c p = .ok q) :
    q.WellFormed ∧ q.getPayloadType = p.getPayloadType ∧ q.payload = p.payload := by
  have hmarked : ({ p with floodScopeApplied := true } : Packet).WellFormed :=
    hp.of_wire rfl rfl rfl rfl rfl rfl
  unfold applyFloodScope at h
  split at h
  · cases h
    exact ⟨hp, rfl, rfl⟩
  split at h
  · cases h
    exact ⟨hp, rfl, rfl⟩
  dsimp only at h
  split at h
  · cases h
    exact ⟨hmarked, rfl, rfl⟩
  split at h
  · cases h
    exact ⟨hmarked, rfl, rfl⟩
  · rename_i key _
    by_cases hkey : key.length = 16
    · obtain ⟨r, hr, hpayload, htype, hwell⟩ := scopePacket_spec (c := c) hkey hmarked
      rw [hr] at h
      cases h
      exact ⟨hwell, htype, hpayload⟩
    · have hnone : scopePacket c { p with floodScopeApplied := true } key = none := by
        rw [scopePacket, calcTransportCode, if_pos hkey]
        rfl
      rw [hnone] at h
      cases h

end SendConfig

namespace Inbox

variable {Seed : Type} (c : Crypto Seed)

/-- Enter a packet into the cache and send it; a failed step before that sends nothing. -/
def trackAndSend (b : Inbox) (mono : ℚ) (built : Except PacketError Packet) :
    Inbox × Option Packet :=
  match built with
  | .error _ => (b, none)
  | .ok pkt =>
    match pkt.calculatePacketHash c.sha256 with
    | .error _ => (b, none)
    | .ok packetHash =>
      ({ b with seenGroupPackets := (b.seenGroupPackets.checkAndAdd packetHash mono).2 }, some pkt)

def finishFlood (cfg : SendConfig) (built : Except PacketError Packet) :
    Except PacketError Packet := do
  let pkt ← built
  let pkt ← cfg.applyFloodScope c pkt
  cfg.applyPathHashMode pkt

/-- The new state and the packet handed to the transport. -/
def sendChannelMessage (b : Inbox) (cfg : SendConfig) (mono : ℚ) (channelIdx : ℕ)
    (text : List Char) (timestamp : ℕ) : Inbox × Option Packet :=
  match b.channels.get channelIdx with
  | none => (b, none)
  | some channel =>
    b.trackAndSend c mono (finishFlood c cfg (PacketBuilder.createGroupDatagram c channel.name text
      cfg.nodeName (some b.channels.getChannels) timestamp))

def groupDataPlaintext (dataType : ℕ) (payload : Bytes) : Bytes :=
  Bytes.le 2 dataType ++ UInt8.ofNat payload.length :: payload

def isFloodLen (pathLenEncoded : Option ℕ) : Bool :=
  pathLenEncoded == none || pathLenEncoded == some 0xFF

def buildChannelData (cfg : SendConfig) (secret : Bytes) (dataType : ℕ) (payload : Bytes)
    (path : Option Bytes) (pathLenEncoded : Option ℕ) : Except PacketError Packet := do
  let secretBytes :=
    if secret.length < 32 then secret ++ List.replicate (32 - secret.length) 0 else secret.take 32
  let hashInput :=
    if 32 ≤ secretBytes.length ∧ (secretBytes.drop 16).take 16 = List.replicate 16 0 then
      secretBytes.take 16
    else secretBytes
  let pkt ← PacketBuilder.createGroupDataPacket c payloadTypeGrpData (c.digestHead hashInput)
    (groupDataPlaintext dataType payload) secretBytes
  if isFloodLen pathLenEncoded then finishFlood c cfg (.ok pkt)
  else
    let pkt := { pkt with header := (pkt.header / 4 * 4) ||| routeTypeDirect }
    let pkt ← pkt.setPath (path.getD []) pathLenEncoded
    cfg.applyPathHashMode pkt

def sendChannelData (b : Inbox) (cfg : SendConfig) (mono : ℚ) (channelIdx dataType : ℕ)
    (payload : Bytes) (path : Option Bytes := none) (pathLenEncoded : Option ℕ := none) :
    Inbox × Option Packet :=
  match b.channels.get channelIdx with
  | none => (b, none)
  | some channel =>
    if dataType = 0 ∨ dataType > 0xFFFF then (b, none)
    else if payload.length > maxGroupDataLength then (b, none)
    else
      b.trackAndSend c mono
        (buildChannelData c cfg channel.secret dataType payload path pathLenEncoded)

section

variable {c}

theorem trackAndSend_eq_some {b : Inbox} {mono : ℚ} {built : Except PacketError Packet}
    {p : Packet} (h : (b.trackAndSend c mono built).2 = some p) : built = .ok p := by
  unfold trackAndSend at h
  split at h
  · cases h
  split at h
  · cases h
  · cases h
    rfl

theorem trackAndSend_of_ok {p : Packet} (h : p.getPayloadType ≠ payloadTypeTrace) (b : Inbox)
    (mono : ℚ) : (b.trackAndSend c mono (.ok p)).2 = some p := by
  obtain ⟨packetHash, hhash⟩ := Packet.exists_packetHash c.sha256 h
  simp only [trackAndSend, hhash]

theorem finishFlood_wellFormed {cfg : SendConfig} {p q : Packet} (hp : p.WellFormed)
    (h : finishFlood c cfg (.ok p) = .ok q) :
    q.WellFormed ∧ q.getPayloadType = p.getPayloadType ∧ q.payload = p.payload := by
  simp only [finishFlood, ok_bind, bind_eq_ok, SendConfig.applyPathHashMode] at h
  obtain ⟨r, hscope, hmode⟩ := h
  obtain ⟨hr, htype, hpayload⟩ := SendConfig.applyFloodScope_wellFormed hp hscope
  obtain ⟨hq, hheader, hqpayload⟩ := Packet.applyPathHashMode_wellFormed hr hmode
  refine ⟨hq, ?_, hqpayload.trans hpayload⟩
  rw [Packet.getPayloadType, hheader]
  exact htype

/-- A path as the command handler passes it: valid, and as long as its length byte says. -/
def PathGiven (path : Option Bytes) (pathLenEncoded : Option ℕ) : Prop :=
  isFloodLen pathLenEncoded = true ∨
    ∃ n, pathLenEncoded = some n ∧ PacketBuilder.PathFits (path.getD []) n

theorem withRoute_eq (header : ℕ) {route : ℕ} (h : route < 4) :
    (header / 4 * 4) ||| route = 4 * (header / 4) + route := by
  rw [Nat.mul_comm]
  exact (Nat.two_pow_add_eq_or_of_lt (show route < 2 ^ 2 from h) (header / 4)).symm

theorem directed_wellFormed {p : Packet} (hp : p.WellFormed)
    (hroute : p.getRouteType = routeTypeFlood) {path : Bytes} {n : ℕ}
    (hpath : PacketBuilder.PathFits path n) {q : Packet}
    (hq : q = { p with
      header := (p.header / 4 * 4) ||| routeTypeDirect, path := path, pathLen := n }) :
    q.WellFormed ∧ q.getPayloadType = p.getPayloadType := by
  have hheader : q.header = 4 * (p.header / 4) + 2 := by
    rw [hq]
    exact withRoute_eq p.header (by decide)
  have hlt := hp.header_lt
  have hver := hp.version
  have hcodes : p.transportCodes = (0, 0) :=
    hp.no_codes (by simp [Packet.hasTransportCodes, hroute])
  have hvalid := hpath.1
  simp only [Packet.getPayloadVer, phVerShift, phVerMask, Nat.shiftRight_eq_div_pow] at hver
  rw [Nat.and_two_pow_sub_one_eq_mod _ 2] at hver
  have hdirect : q.hasTransportCodes = false := by
    have hmod : q.header &&& 3 = 2 := by
      rw [Nat.and_two_pow_sub_one_eq_mod _ 2, hheader]
      omega
    simp [Packet.hasTransportCodes, Packet.getRouteType, hmod]
  refine ⟨⟨⟨?_, ?_, ?_, ?_, ?_, ?_⟩, ?_, ?_, ?_⟩, ?_⟩
  · rw [hq]
    exact hpath.2.symm
  · rw [hq]
    exact hp.payload_length
  · rw [hq]
    exact hp.payload_size
  · omega
  · intro h
    cases hdirect.symm.trans h
  · rw [hq]
    exact (PathUtils.isValidPathLen_lt hvalid).trans (by decide)
  · simp only [Packet.getPayloadVer, phVerShift, phVerMask, Nat.shiftRight_eq_div_pow]
    rw [Nat.and_two_pow_sub_one_eq_mod _ 2, hheader]
    omega
  · rw [hq]
    exact fun _ => hcodes
  · rw [hq]
    exact hvalid
  · simp only [Packet.getPayloadType, phTypeShift, phTypeMask, Nat.shiftRight_eq_div_pow]
    rw [hheader, show (4 * (p.header / 4) + 2) / 2 ^ 2 = p.header / 2 ^ 2 by omega]

theorem buildChannelData_wellFormed {cfg : SendConfig} {secret : Bytes} {dataType : ℕ}
    {payload : Bytes} {path : Option Bytes} {pathLenEncoded : Option ℕ} {p : Packet}
    (hpath : PathGiven path pathLenEncoded)
    (h : buildChannelData c cfg secret dataType payload path pathLenEncoded = .ok p) :
    p.WellFormed ∧ p.getPayloadType = payloadTypeGrpData ∧
      p.payload = deriveChannelHash c secret ::
        c.encryptThenMac ((normalizeChannelSecret secret).take 16) (normalizeChannelSecret secret)
          (groupDataPlaintext dataType payload) := by
  have hlen := length_normalizeChannelSecret secret
  simp only [buildChannelData, bind_eq_ok] at h
  obtain ⟨r, hr, h⟩ := h
  rw [← normalizeChannelSecret] at hr
  simp only [hlen, le_refl, true_and] at hr
  rw [← deriveChannelHash] at hr
  obtain ⟨hpayload, htype, hroute, hwell⟩ := PacketBuilder.createGroupDataPacket_ok hr
  split at h
  · obtain ⟨hp, hptype, hppayload⟩ := finishFlood_wellFormed hwell h
    exact ⟨hp, hptype.trans htype, hppayload.trans hpayload⟩
  · rename_i hflood
    obtain ⟨n, rfl, hfits⟩ := hpath.resolve_left hflood
    simp only [Packet.setPath, ok_bind, SendConfig.applyPathHashMode] at h
    obtain ⟨hdir, hdtype⟩ := directed_wellFormed hwell hroute hfits rfl
    obtain ⟨hp, hheader, hppayload⟩ := Packet.applyPathHashMode_wellFormed hdir h
    refine ⟨hp, ?_, hppayload.trans hpayload⟩
    rw [Packet.getPayloadType, hheader]
    exact hdtype.trans htype

theorem mem_getChannelCandidatesByHash {b : Inbox} {channelHash : UInt8} {idx : ℕ}
    {channel : ChannelConfig} :
    (idx, channel) ∈ b.getChannelCandidatesByHash c channelHash ↔
      b.channels.get idx = some channel ∧ deriveChannelHash c channel.secret = channelHash := by
  simp only [getChannelCandidatesByHash, List.mem_filterMap, List.mem_range,
    Option.bind_eq_some_iff]
  constructor
  · rintro ⟨i, -, ch, hget, hch⟩
    split at hch
    · rename_i hhash
      cases hch
      exact ⟨hget, hhash⟩
    · cases hch
  · rintro ⟨hget, hhash⟩
    refine ⟨idx, ?_, channel, hget, if_pos hhash⟩
    by_contra hge
    rw [ChannelStore.get, if_neg hge] at hget
    cases hget

theorem selectSlot_encryptThenMac {b : Inbox} {j : ℕ} {held : ChannelConfig}
    (hheld : b.channels.get j = some held)
    (hunique : ∀ k other, b.channels.get k = some other →
      deriveChannelHash c other.secret = deriveChannelHash c held.secret → k = j)
    {data : Bytes} (hdata : data ≠ []) :
    b.selectSlot c (deriveChannelHash c held.secret ::
      c.encryptThenMac ((normalizeChannelSecret held.secret).take 16)
        (normalizeChannelSecret held.secret) data) = some (j, zeroPad data) := by
  have hmem : (j, held) ∈ b.getChannelCandidatesByHash c (deriveChannelHash c held.secret) :=
    mem_getChannelCandidatesByHash.mpr ⟨hheld, rfl⟩
  rw [selectSlot, List.headD_cons, List.drop_one, List.tail_cons]
  cases hlist : b.getChannelCandidatesByHash c (deriveChannelHash c held.secret) with
  | nil =>
    rw [hlist] at hmem
    cases hmem
  | cons first rest =>
    have hfirst : first ∈ b.getChannelCandidatesByHash c (deriveChannelHash c held.secret) := by
      rw [hlist]
      exact List.mem_cons_self
    obtain ⟨k, other⟩ := first
    obtain ⟨hget, hhash⟩ := mem_getChannelCandidatesByHash.mp hfirst
    obtain rfl : k = j := hunique k other hget hhash
    obtain rfl : held = other := Option.some.inj (hheld.symm.trans hget)
    rw [List.findSome?_cons]
    dsimp only
    rw [Crypto.macThenDecrypt_encryptThenMac _ _ hdata]
    rfl

theorem parseGroupData_append {dataType : ℕ} {payload : Bytes} (hpos : dataType ≠ 0)
    (hlt : dataType < 256 ^ 2) (hlen : payload.length < 256) (rest : Bytes) :
    parseGroupData (groupDataPlaintext dataType payload ++ rest) = some (dataType, payload) := by
  have heq : groupDataPlaintext dataType payload ++ rest =
      Bytes.le 2 dataType ++ UInt8.ofNat payload.length :: (payload ++ rest) := by
    simp [groupDataPlaintext]
  have hlong : (groupDataPlaintext dataType payload ++ rest).length =
      3 + payload.length + rest.length := by
    rw [heq]
    simp only [List.length_append, List.length_cons, Bytes.length_le]
    omega
  have htype : Bytes.toNatLE ((groupDataPlaintext dataType payload ++ rest).take 2) = dataType := by
    rw [heq, List.take_left' (Bytes.length_le 2 dataType), Bytes.toNatLE_le 2 dataType hlt]
  have hsize : ((groupDataPlaintext dataType payload ++ rest).getD 2 0).toNat = payload.length := by
    rw [heq, List.getD_eq_getElem?_getD, List.getElem?_append_right (by simp)]
    simp [Nat.mod_eq_of_lt hlen]
  have hblob : ((groupDataPlaintext dataType payload ++ rest).drop 3).take payload.length =
      payload := by
    rw [heq, show 3 = 2 + 1 from rfl, ← List.drop_drop,
      List.drop_left' (Bytes.length_le 2 dataType), List.drop_one, List.tail_cons, List.take_left]
  rw [parseGroupData, if_neg (by omega), htype, hsize]
  dsimp only
  rw [hblob, if_neg (by omega)]

theorem sendChannelData_ok {b : Inbox} {cfg : SendConfig} {mono : ℚ} {idx dataType : ℕ}
    {payload : Bytes} {path : Option Bytes} {pathLenEncoded : Option ℕ} {p : Packet}
    {channel : ChannelConfig} (hslot : b.channels.get idx = some channel)
    (h : (b.sendChannelData c cfg mono idx dataType payload path pathLenEncoded).2 = some p) :
    dataType ≠ 0 ∧ dataType < 256 ^ 2 ∧ payload.length ≤ maxGroupDataLength ∧
      buildChannelData c cfg channel.secret dataType payload path pathLenEncoded = .ok p := by
  rw [sendChannelData, hslot] at h
  dsimp only at h
  split at h
  · cases h
  rename_i htype
  split at h
  · cases h
  rename_i hlen
  exact ⟨by omega, by omega, by omega, trackAndSend_eq_some h⟩

/-- Group data survives the wire and is queued under the slot that holds its secret, unless the
packet was seen before or the queue has no room. -/
theorem channelData_roundTrip {sender receiver : Inbox} {cfg : SendConfig} {mono : ℚ}
    {idx j dataType : ℕ} {payload : Bytes} {path : Option Bytes} {pathLenEncoded : Option ℕ}
    {p : Packet} {channel held : ChannelConfig} (hslot : sender.channels.get idx = some channel)
    (hpath : PathGiven path pathLenEncoded)
    (hsend : (sender.sendChannelData c cfg mono idx dataType payload path pathLenEncoded).2 =
      some p)
    (hheld : receiver.channels.get j = some held) (hsame : held.secret = channel.secret)
    (hunique : ∀ k other, receiver.channels.get k = some other →
      deriveChannelHash c other.secret = deriveChannelHash c channel.secret → k = j)
    (hfresh : ∀ packetHash, p.calculatePacketHash c.sha256 = .ok packetHash →
      receiver.seenGroupPackets.entries.get? packetHash = none)
    (hroom : receiver.messageQueue.Accepts) (frame : Packet) (now : ℚ) :
    ∃ d q, p.writeTo = .ok d ∧ frame.readFrom d = .ok q ∧
      ∃ kept msg e, (receiver.handleGroupDataPacket c now q).2 = some e ∧
        (receiver.handleGroupDataPacket c now q).1.messageQueue.queue = kept ++ [msg] ∧
        kept.Sublist receiver.messageQueue.queue ∧ msg.isChannel = true ∧ msg.channelIdx = j ∧
        msg.channelDataType = dataType ∧ msg.channelDataPayload = payload ∧
        e.channelIdx = j ∧ e.queueEntry = some msg := by
  obtain ⟨hpos, hlt, hlen, hbuilt⟩ := sendChannelData_ok hslot hsend
  obtain ⟨hwell, htype, hpayload⟩ := buildChannelData_wellFormed hpath hbuilt
  rw [← hsame] at hunique hpayload
  refine ⟨p.encode, frame.receive p, Packet.writeTo_eq_ok.mpr ⟨hwell.toWritable, rfl⟩,
    Packet.readFrom_encode frame hwell, ?_⟩
  have hgot : (frame.receive p).getPayload = p.payload := hwell.getPayload
  have hsize : ¬ (frame.receive p).getPayload.length < 4 := by
    rw [hgot, hpayload, List.length_cons, c.length_encryptThenMac]
    simp only [groupDataPlaintext, cipherMacSize, cipherBlockSize, List.length_append,
      Bytes.length_le, List.length_cons]
    omega
  obtain ⟨packetHash, hhash⟩ := Packet.exists_packetHash c.sha256 (htype.trans_ne (by decide))
  have hqhash : (frame.receive p).calculatePacketHash c.sha256 = .ok packetHash := hhash
  have hselect : receiver.selectSlot c (frame.receive p).getPayload =
      some (j, zeroPad (groupDataPlaintext dataType payload)) := by
    rw [hgot, hpayload]
    exact selectSlot_encryptThenMac hheld hunique (by simp [groupDataPlaintext])
  have hparse : parseGroupData (zeroPad (groupDataPlaintext dataType payload)) =
      some (dataType, payload) :=
    parseGroupData_append hpos hlt (hlen.trans_lt (by decide)) _
  have hunseen := PacketHashCache.checkAndAdd_of_absent (hfresh packetHash hhash) now
  obtain ⟨hpushed, kept, hsub, hqueue⟩ := MessageQueue.push_of_accepts hroom
    (groupDataMessage (frame.receive p) j dataType payload)
  refine ⟨kept, groupDataMessage (frame.receive p) j dataType payload,
    { channelIdx := j
      pathLen := (groupDataMessage (frame.receive p) j dataType payload).pathLen
      dataType := dataType
      payload := payload
      packetHash := packetHash
      snr := (frame.receive p).snr
      rssi := (frame.receive p).rssi
      queued := true
      queueEntry := some (groupDataMessage (frame.receive p) j dataType payload) },
    ?_, ?_, hsub, rfl, rfl, rfl, rfl, rfl, rfl⟩
  · simp [handleGroupDataPacket, if_neg hsize, hqhash, hselect, hparse, hunseen, hpushed]
  · simp [handleGroupDataPacket, if_neg hsize, hqhash, hselect, hparse, hunseen, hqueue]

end

/-! A receiver with two channels whose secrets have digests that start alike. -/

def dataSecret : Bytes := List.replicate 32 7

def collidingSecret : Bytes := 6 :: 8 :: List.replicate 30 7

def dataSender : Inbox :=
  { channels := (ChannelStore.empty 1).apply (.setChannel 0 ['a'] dataSecret) }

def dataReceiver : Inbox :=
  { channels := (ChannelStore.empty 2).apply (.setChannel 1 ['b'] dataSecret) }

def collidingReceiver : Inbox :=
  { channels := dataReceiver.channels.apply (.setChannel 0 ['c'] collidingSecret) }

/-- A receiver whose only place is taken by a direct message. -/
def fullReceiver : Inbox :=
  { dataReceiver with
    messageQueue := { maxSize := 1, queue := [{ senderKey := [1] }], length_le := le_rfl } }

def dataPacket : Packet :=
  { header := 25
    payload := [224, 0, 0, 43, 6, 6, 14, 7, 7, 7, 7, 7, 7, 7, 7, 7, 7, 7, 7]
    payloadLen := 19
    pathHashModeApplied := true
    floodScopeApplied := true }

theorem sendChannelData_dataPacket :
    (dataSender.sendChannelData xorCrypto {} 0 0 300 [9]).2 = some dataPacket := by
  decide +kernel

theorem channelData_roundTrip_queued :
    ∃ d q, dataPacket.writeTo = .ok d ∧ Packet.readFrom {} d = .ok q ∧
      ∃ kept msg e, (dataReceiver.handleGroupDataPacket xorCrypto 0 q).2 = some e ∧
        (dataReceiver.handleGroupDataPacket xorCrypto 0 q).1.messageQueue.queue = kept ++ [msg] ∧
        kept.Sublist [] ∧ msg.isChannel = true ∧ msg.channelIdx = 1 ∧
        msg.channelDataType = 300 ∧ msg.channelDataPayload = [9] ∧
        e.channelIdx = 1 ∧ e.queueEntry = some msg := by
  have hslot : dataSender.channels.get 0 = some ⟨['a'], dataSecret⟩ := by decide
  have hheld : dataReceiver.channels.get 1 = some ⟨['b'], dataSecret⟩ := by decide
  refine channelData_roundTrip hslot (Or.inl rfl) sendChannelData_dataPacket hheld rfl ?_
    (fun _ _ => rfl) (by decide : dataReceiver.messageQueue.makeRoom.isSome = true) {} 0
  intro k other hother _
  match k with
  | 0 => cases hother
  | 1 => rfl
  | k + 2 => cases hother

/-- A colliding slot takes the packet, a full queue or a cache that holds it refuse it, and a path
that its length byte does not describe keeps it off the wire. -/
theorem channelData_lost :
    (dataSender.sendChannelData xorCrypto {} 0 0 300 [9]).2 = some dataPacket ∧
    (collidingReceiver.channels.get 1).map (·.secret) = some dataSecret ∧
    (collidingReceiver.channels.get 0).map (·.secret) = some collidingSecret ∧
    dataSecret ≠ collidingSecret ∧
    (collidingReceiver.handleGroupDataPacket xorCrypto 0 dataPacket).2.map (·.channelIdx) =
      some 0 ∧
    (fullReceiver.handleGroupDataPacket xorCrypto 0 dataPacket).1.messageQueue.queue =
      [{ senderKey := [1] }] ∧
    ((dataSender.sendChannelData xorCrypto {} 0 0 300 [9]).1.handleGroupDataPacket xorCrypto 0
      dataPacket).1.messageQueue.queue = [] ∧
    ((dataSender.sendChannelData xorCrypto {} 0 0 300 [9] (some [1]) (some 0xC1)).2.map
      Packet.writeTo) = some (.error (.pathLenMismatch 4 1)) := by
  refine ⟨sendChannelData_dataPacket, ?_, ?_, ?_, ?_, ?_, ?_, ?_⟩ <;> decide +kernel

end Inbox

end OpenHop
