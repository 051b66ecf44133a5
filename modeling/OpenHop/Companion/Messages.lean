import Mathlib.Data.List.DropRight
import OpenHop.Companion.ChannelStore
import OpenHop.Node.GroupText
import OpenHop.Node.TextMessage

/-! # Received messages

A companion queues what it receives until the app collects it. When the queue is full the
oldest channel message makes room, and direct messages are never evicted.
-/

namespace OpenHop

structure QueuedMessage where
  senderKey : Bytes
  txtType : ℕ := 0
  timestamp : ℕ := 0
  text : List Char := []
  isChannel : Bool := false
  channelIdx : ℕ := 0
  pathLen : ℕ := 0
  snr : ℚ := 0
  rssi : ℤ := 0
  channelDataType : ℕ := 0
  channelDataPayload : Bytes := []
  senderPrefix : Bytes := []
  deriving DecidableEq

structure MessageQueue where
  maxSize : ℕ := 512
  queue : List QueuedMessage := []
  length_le : queue.length ≤ maxSize := by decide

namespace MessageQueue

def empty : MessageQueue := {}

/-- The messages that stay when one is pushed, none where the push is rejected. -/
def makeRoom (q : MessageQueue) : Option (List QueuedMessage) :=
  if q.maxSize = 0 then none
  else if q.queue.length ≥ q.maxSize then
    if q.queue.any (·.isChannel) then some (q.queue.eraseP (·.isChannel)) else none
  else some q.queue

theorem makeRoom_length {q : MessageQueue} {kept : List QueuedMessage}
    (h : q.makeRoom = some kept) : kept.length < q.maxSize := by
  unfold makeRoom at h
  split at h
  · cases h
  split at h
  · split at h
    · rename_i hpos hfull hany
      cases h
      obtain ⟨m, hm, hchannel⟩ := List.any_eq_true.mp hany
      have hlen : (q.queue.eraseP (·.isChannel)).length = q.queue.length - 1 :=
        List.length_eraseP_of_mem hm hchannel
      have hle : q.queue.length ≤ q.maxSize := q.length_le
      omega
    · cases h
  · rename_i hlt
    cases h
    omega

def push (q : MessageQueue) (msg : QueuedMessage) : Bool × MessageQueue :=
  match h : q.makeRoom with
  | none => (false, q)
  | some kept =>
    (true, ⟨q.maxSize, kept ++ [msg], by
      have := makeRoom_length h
      rw [List.length_append, List.length_singleton]
      omega⟩)

def pop (q : MessageQueue) : Option (QueuedMessage × MessageQueue) :=
  match h : q.queue with
  | [] => none
  | msg :: rest => some (msg, ⟨q.maxSize, rest, by
      have : q.queue.length ≤ q.maxSize := q.length_le
      rw [h, List.length_cons] at this
      omega⟩)

def popLast (q : MessageQueue) : Option (QueuedMessage × MessageQueue) :=
  q.queue.getLast?.map fun msg =>
    (msg, ⟨q.maxSize, q.queue.dropLast, by
      have : q.queue.length ≤ q.maxSize := q.length_le
      rw [List.length_dropLast]
      omega⟩)

/-- Delete the message at a position, where `remove` found the object it was given. -/
def removeAt (q : MessageQueue) (index : ℕ) : MessageQueue :=
  ⟨q.maxSize, q.queue.eraseIdx index,
    Nat.le_trans (List.length_eraseIdx_le q.queue index) q.length_le⟩

def clear (q : MessageQueue) : MessageQueue := ⟨q.maxSize, [], Nat.zero_le _⟩

/-- There is room for a message, if need be in the place of a channel message. -/
def Accepts (q : MessageQueue) : Prop := q.makeRoom.isSome = true

theorem push_of_accepts {q : MessageQueue} (h : q.Accepts) (msg : QueuedMessage) :
    (q.push msg).1 = true ∧
      ∃ kept, kept.Sublist q.queue ∧ (q.push msg).2.queue = kept ++ [msg] := by
  obtain ⟨kept, hkept⟩ := Option.isSome_iff_exists.mp h
  have hsub : kept.Sublist q.queue := by
    unfold makeRoom at hkept
    split at hkept
    · cases hkept
    split at hkept
    · split at hkept
      · cases hkept
        exact List.eraseP_sublist
      · cases hkept
    · cases hkept
      exact List.Sublist.refl _
  unfold push
  split
  · rename_i hnone
    cases hkept.symm.trans hnone
  · rename_i kept' hsome
    cases hkept.symm.trans hsome
    exact ⟨rfl, kept, hsub, rfl⟩

theorem push_spec (q : MessageQueue) (msg : QueuedMessage) :
    (q.push msg).1 = q.makeRoom.isSome ∧ (q.push msg).2.maxSize = q.maxSize ∧
      (q.push msg).2.queue = (q.makeRoom.map (· ++ [msg])).getD q.queue := by
  unfold push
  split
  · rename_i hnone
    simp [hnone]
  · rename_i kept hsome
    simp [hsome]

theorem pop_spec (q : MessageQueue) :
    q.pop.map Prod.fst = q.queue.head? ∧ ((q.pop.map Prod.snd).getD q).maxSize = q.maxSize ∧
      ((q.pop.map Prod.snd).getD q).queue = q.queue.tail := by
  unfold pop
  split
  · rename_i hnil
    simp [hnil]
  · rename_i msg rest hcons
    simp [hcons]

theorem pop_eq_some {q q' : MessageQueue} {msg : QueuedMessage} :
    q.pop = some (msg, q') ↔ q.queue = msg :: q'.queue ∧ q'.maxSize = q.maxSize := by
  unfold pop
  split
  · rename_i hnil
    simp [hnil]
  · rename_i m rest hcons
    obtain ⟨max', rest', hle'⟩ := q'
    simp only [Option.some.injEq, Prod.mk.injEq, MessageQueue.mk.injEq, hcons, List.cons.injEq]
    constructor
    · rintro ⟨rfl, rfl, rfl⟩
      exact ⟨⟨rfl, rfl⟩, rfl⟩
    · rintro ⟨⟨rfl, rfl⟩, rfl⟩
      exact ⟨rfl, rfl, rfl⟩

end MessageQueue

structure SeenCache where
  ttl : ℚ := 300
  maxSize : ℕ := 1000
  entries : Dict Bytes ℚ := Dict.empty

/-- Whether the key is present, however old; otherwise it is recorded and old keys are dropped. -/
def SeenCache.checkAndAdd (cache : SeenCache) (key : Bytes) (now : ℚ) : Bool × SeenCache :=
  if cache.entries.contains key then (true, cache)
  else
    let entries := cache.entries.filter fun _ ts => !decide (now - ts > cache.ttl)
    let entries := entries.set key now
    (false, { cache with
      entries := if entries.size > cache.maxSize then entries.popFirst else entries })

/-- What is published about a text message. -/
structure NewMessageData where
  contactPubkey : Bytes
  messageText : List Char
  senderPrefix : Bytes
  txtType : ℕ
  timestamp : ℕ
  pathLen : ℕ
  rssi : ℤ
  snr : ℚ
  packetHash : Bytes

structure MessageEvent where
  senderKey : Bytes
  text : List Char
  timestamp : ℕ
  txtType : ℕ
  packetHash : Bytes
  snr : ℚ
  rssi : ℤ
  senderPrefix : Bytes
  pathLen : ℕ
  queued : Bool
  queueEntry : Option QueuedMessage

structure ChannelMessageEvent where
  channelName : List Char
  senderName : List Char
  text : List Char
  timestamp : ℕ
  pathLen : ℕ
  channelIdx : ℕ
  packetHash : Bytes
  snr : ℚ
  rssi : ℤ
  queued : Bool
  queueEntry : Option QueuedMessage
  deriving DecidableEq

structure ChannelDataEvent where
  channelIdx : ℕ
  pathLen : ℕ
  dataType : ℕ
  payload : Bytes
  packetHash : Bytes
  snr : ℚ
  rssi : ℤ
  queued : Bool
  queueEntry : Option QueuedMessage
  deriving DecidableEq

/-- The part of a companion that received messages go through. -/
structure Inbox where
  channels : ChannelStore
  messageQueue : MessageQueue := .empty
  seenTxt : SeenCache := {}
  seenGrpTxt : SeenCache := { ttl := 60, maxSize := 4096 }
  seenGroupPackets : PacketHashCache := { ttlSeconds := 600, maxEntries := 4096 }

namespace Inbox

def rstripNul (text : List Char) : List Char := text.rdropWhile (· = '\x00')

def directMessage (data : NewMessageData) : QueuedMessage :=
  { senderKey := data.contactPubkey
    txtType := data.txtType
    timestamp := data.timestamp
    text := rstripNul data.messageText
    isChannel := false
    pathLen := data.pathLen
    snr := data.snr
    rssi := data.rssi
    senderPrefix := data.senderPrefix }

def handleNewMessage (b : Inbox) (now : ℚ) (data : NewMessageData) : Inbox × Option MessageEvent :=
  let (seen, seenTxt) := b.seenTxt.checkAndAdd data.packetHash now
  let b := { b with seenTxt := seenTxt }
  if seen then (b, none)
  else
    let msg := directMessage data
    let (wasQueued, queue) := b.messageQueue.push msg
    ({ b with messageQueue := queue }, some
      { senderKey := data.contactPubkey
        text := msg.text
        timestamp := msg.timestamp
        txtType := msg.txtType
        packetHash := data.packetHash
        snr := data.snr
        rssi := data.rssi
        senderPrefix := data.senderPrefix
        pathLen := data.pathLen
        queued := wasQueued
        queueEntry := if wasQueued then some msg else none })

def channelMessage (b : Inbox) (data : ChannelMessageData) : QueuedMessage :=
  { senderKey := []
    txtType := 0
    timestamp := data.timestamp
    text := rstripNul data.fullContent
    isChannel := true
    -- the slot is looked up by name, the first slot standing for an unknown one
    channelIdx := (b.channels.findByName data.channelName).getD 0
    pathLen := data.pathLen
    snr := data.snr
    rssi := data.rssi }

def handleNewChannelMessage (b : Inbox) (now : ℚ) (data : ChannelMessageData) :
    Inbox × Option ChannelMessageEvent :=
  if data.isOutgoing then (b, none)
  else
    let (seen, seenGrpTxt) := b.seenGrpTxt.checkAndAdd data.packetHash now
    let b := { b with seenGrpTxt := seenGrpTxt }
    if seen then (b, none)
    else
      let msg := b.channelMessage data
      let (wasQueued, queue) := b.messageQueue.push msg
      ({ b with messageQueue := queue }, some
        { channelName := data.channelName
          senderName := data.senderName
          text := msg.text
          timestamp := msg.timestamp
          pathLen := data.pathLen
          channelIdx := msg.channelIdx
          packetHash := data.packetHash
          snr := data.snr
          rssi := data.rssi
          queued := wasQueued
          queueEntry := if wasQueued then some msg else none })

variable {Seed : Type} (c : Crypto Seed)

def getChannelCandidatesByHash (b : Inbox) (channelHash : UInt8) : List (ℕ × ChannelConfig) :=
  (List.range b.channels.maxChannels).filterMap fun idx =>
    (b.channels.get idx).bind fun channel =>
      if deriveChannelHash c channel.secret = channelHash then some (idx, channel) else none

/-- The first slot with the packet's hash that authenticates it, and what it decrypts to. -/
def selectSlot (b : Inbox) (payload : Bytes) : Option (ℕ × Bytes) :=
  (b.getChannelCandidatesByHash c (payload.headD 0)).findSome? fun (idx, channel) =>
    let secret := normalizeChannelSecret channel.secret
    (c.macThenDecrypt (secret.take 16) secret (payload.drop 1)).map fun plaintext =>
      (idx, plaintext)

def parseGroupData (plaintext : Bytes) : Option (ℕ × Bytes) :=
  if plaintext.length < 3 then none
  else
    let dataType := Bytes.toNatLE (plaintext.take 2)
    let dataLen := (plaintext.getD 2 0).toNat
    if dataType = 0 ∨ plaintext.length < 3 + dataLen then none
    else some (dataType, (plaintext.drop 3).take dataLen)

def groupDataMessage (packet : Packet) (idx dataType : ℕ) (blob : Bytes) : QueuedMessage :=
  { senderKey := []
    isChannel := true
    channelIdx := idx
    pathLen := if packet.isRouteFlood then packet.pathLen else 0xFF
    snr := packet.snr
    rssi := packet.rssi
    channelDataType := dataType
    channelDataPayload := blob }

/-- The packet hash is computed first and raises before anything else is done. -/
def handleGroupDataPacket (b : Inbox) (now : ℚ) (packet : Packet) :
    Inbox × Option ChannelDataEvent :=
  let payload := packet.getPayload
  if payload.length < 4 then (b, none)
  else
    match packet.calculatePacketHash c.sha256 with
    | .error _ => (b, none)
    | .ok packetHash =>
      match b.selectSlot c payload with
      | none => (b, none)
      | some (idx, plaintext) =>
        match parseGroupData plaintext with
        | none => (b, none)
        | some (dataType, blob) =>
          let (seen, seenGroupPackets) := b.seenGroupPackets.checkAndAdd packetHash now
          let b := { b with seenGroupPackets := seenGroupPackets }
          if seen then (b, none)
          else
            let msg := groupDataMessage packet idx dataType blob
            let (wasQueued, queue) := b.messageQueue.push msg
            ({ b with messageQueue := queue }, some
              { channelIdx := idx
                pathLen := msg.pathLen
                dataType := dataType
                payload := blob
                packetHash := packetHash
                snr := packet.snr
                rssi := packet.rssi
                queued := wasQueued
                queueEntry := if wasQueued then some msg else none })

def newMessageData (packet : Packet) (d : Delivery) (packetHash : Bytes) : NewMessageData :=
  { contactPubkey := d.contact.publicKey
    messageText := d.text
    senderPrefix := d.senderPrefix
    txtType := d.txtType
    timestamp := d.senderTimestamp
    pathLen := d.pathLen
    rssi := packet.rssi
    snr := packet.snr
    packetHash := packetHash }

/-- A text that is neither refused nor the answer to a command is published and handled. -/
def receiveText (b : Inbox) (h : TextMessageHandler Seed) (now : ℚ) (packet : Packet)
    (lastByte : UInt8) : Inbox × Option MessageEvent :=
  match h.call c packet lastByte, packet.calculatePacketHash c.sha256 with
  | .ok (.delivered d), .ok packetHash =>
    if d.commandResponse then (b, none)
    else b.handleNewMessage now (newMessageData packet d packetHash)
  | _, _ => (b, none)

/-- The group text handler shares the channels and the packet cache of the companion.
`mono` and `now` are the clocks of the two caches. -/
def receiveGroupText (b : Inbox) (mono now : ℚ) (packet : Packet) :
    Inbox × Option ChannelMessageEvent :=
  let h : GroupTextHandler := ⟨b.channels.getChannels, b.seenGroupPackets⟩
  let (h, published) := h.call c mono packet
  let b := { b with seenGroupPackets := h.seenGroupPackets }
  match published with
  | none => (b, none)
  | some data => b.handleNewChannelMessage now data

end Inbox

end OpenHop
