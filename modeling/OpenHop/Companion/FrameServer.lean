import OpenHop.Companion.Messages

/-! # Collecting messages

The app collects queued messages one by one. A message is taken off the queue, put into a
frame whose layout depends on its kind and on the version the app asked for, and handed to
the writer, which drops frames that are too large.
-/

namespace OpenHop

/-- `MAX_FRAME_SIZE`, which limits the payload of a frame. -/
def maxFrameSize : ℕ := 176

/-- `MAX_CHANNEL_DATA_LENGTH` -/
def maxChannelDataLength : ℕ := maxFrameSize - 9

@[simp] def respCodeErr : ℕ := 1
@[simp] def respCodeContactMsgRecv : ℕ := 7
@[simp] def respCodeChannelMsgRecv : ℕ := 8
@[simp] def respCodeNoMoreMessages : ℕ := 10
@[simp] def respCodeContactMsgRecvV3 : ℕ := 16
@[simp] def respCodeChannelMsgRecvV3 : ℕ := 17
@[simp] def respCodeChannelDataRecv : ℕ := 27
@[simp] def errCodeIllegalArg : ℕ := 6

/-- The bounded queue of the writer task. -/
structure WriteQueue where
  maxsize : ℕ := 2048
  frames : List Bytes := []
  deriving DecidableEq

def WriteQueue.isFull (q : WriteQueue) : Bool := q.maxsize ≠ 0 ∧ q.frames.length ≥ q.maxsize

/-- The write queue exists while a client is connected. -/
structure FrameServer where
  appTargetVer : ℕ := 0
  writeQueue : Option WriteQueue := none
  deriving DecidableEq

namespace FrameServer

def outboundFrame (data : Bytes) : Bytes := 0x3E :: (Bytes.le 2 data.length ++ data)

/-- A frame that is too large, or that a full queue has no place for, is dropped. -/
def enqueueFrame (s : FrameServer) (data : Bytes) : FrameServer :=
  match s.writeQueue with
  | none => s
  | some q =>
    if data.length > maxFrameSize then s
    else if q.isFull then s
    else { s with writeQueue := some { q with frames := q.frames ++ [outboundFrame data] } }

def writeErr (s : FrameServer) (errCode : ℕ) : FrameServer :=
  s.enqueueFrame [UInt8.ofNat respCodeErr, UInt8.ofNat errCode]

def roundHalfEven (x : ℚ) : ℤ :=
  let down := x.floor
  if x - down < 1 / 2 then down
  else if x - down > 1 / 2 then down + 1
  else if down % 2 = 0 then down else down + 1

def messageSnrByte (snr : ℚ) : UInt8 :=
  UInt8.ofNat ((max (-128) (min 127 (roundHalfEven (snr * 4)))) % 256).toNat

def pathLenByte (msg : QueuedMessage) : ℕ := if msg.pathLen < 256 then msg.pathLen else 0xFF

/-- `bytes([...])`, which refuses values above 255. -/
def byteString (ns : List ℕ) : Except PacketError Bytes :=
  (ns.mapM Packet.byte).map List.flatten

def channelDataFrame (msg : QueuedMessage) : Except PacketError Bytes := do
  let payload := msg.channelDataPayload.take maxChannelDataLength
  let head ← byteString [respCodeChannelDataRecv, (messageSnrByte msg.snr).toNat, 0, 0,
    msg.channelIdx, pathLenByte msg]
  let size ← byteString [payload.length]
  return head ++ Bytes.le 2 msg.channelDataType ++ size ++ payload

def channelTextFrame (appTargetVer : ℕ) (msg : QueuedMessage) : Except PacketError Bytes := do
  let textBytes := Utf8.encode (Inbox.rstripNul msg.text)
  let head ← byteString <|
    if appTargetVer ≥ 3 then
      [respCodeChannelMsgRecvV3, (messageSnrByte msg.snr).toNat, 0, 0, msg.channelIdx,
        pathLenByte msg, 0]
    else [respCodeChannelMsgRecv, msg.channelIdx, pathLenByte msg, 0]
  let timestamp ← PacketBuilder.packUInt32 msg.timestamp
  return head ++ timestamp ++ textBytes

/-- Room posts carry four bytes of their author's key in front of the text. -/
def authorBytes (msg : QueuedMessage) : Bytes :=
  if msg.txtType = txtTypeSignedPlain then (msg.senderPrefix.take 4).rightpad 4 0 else []

def directTextFrame (appTargetVer : ℕ) (msg : QueuedMessage) : Except PacketError Bytes := do
  let senderKeyPrefix :=
    if msg.senderKey.length ≥ 6 then msg.senderKey.take 6 else msg.senderKey.rightpad 6 0
  let textBytes := Utf8.encode msg.text
  let head ← byteString <|
    if appTargetVer ≥ 3 then [respCodeContactMsgRecvV3, (messageSnrByte msg.snr).toNat, 0, 0]
    else [respCodeContactMsgRecv]
  let route ← byteString [pathLenByte msg, msg.txtType]
  let timestamp ← PacketBuilder.packUInt32 msg.timestamp
  return head ++ senderKeyPrefix ++ route ++ timestamp ++ authorBytes msg ++ textBytes

def buildMessageFrame (appTargetVer : ℕ) (msg : QueuedMessage) : Except PacketError Bytes :=
  if msg.isChannel then
    if msg.channelDataType ≠ 0 then channelDataFrame msg else channelTextFrame appTargetVer msg
  else directTextFrame appTargetVer msg

/-- `CMD_SYNC_NEXT_MESSAGE`. The message is off the queue before its frame is built; an exception
is answered with an error. -/
def cmdSyncNextMessage (s : FrameServer) (queue : MessageQueue) : FrameServer × MessageQueue :=
  match queue.pop with
  | none => (s.enqueueFrame [UInt8.ofNat respCodeNoMoreMessages], queue)
  | some (msg, queue) =>
    match buildMessageFrame s.appTargetVer msg with
    | .ok frame => (s.enqueueFrame frame, queue)
    | .error _ => (s.writeErr errCodeIllegalArg, queue)

def frameOverhead (appTargetVer : ℕ) (msg : QueuedMessage) : ℕ :=
  if msg.isChannel then if appTargetVer ≥ 3 then 11 else 8
  else (if appTargetVer ≥ 3 then 16 else 13) +
    if msg.txtType = txtTypeSignedPlain then 4 else 0

/-- The frame of a text message is small enough, and its slot has a number of one byte. -/
def FrameFits (appTargetVer : ℕ) (msg : QueuedMessage) : Prop :=
  frameOverhead appTargetVer msg + (Utf8.encode msg.text).length ≤ maxFrameSize ∧
    (msg.isChannel = true → msg.channelIdx < 256)

/-- The messages that the receive path makes of text and group text packets. -/
inductive ReceivedText {Seed : Type} (c : Crypto Seed) : QueuedMessage → Prop where
  | text (b : Inbox) (h : TextMessageHandler Seed) (now : ℚ) (p : Packet) (lastByte : UInt8)
      {e : MessageEvent} {msg : QueuedMessage}
      (hevent : (b.receiveText c h now p lastByte).2 = some e) (hentry : e.queueEntry = some msg) :
      ReceivedText c msg
  | groupText (b : Inbox) (mono now : ℚ) (p : Packet) {e : ChannelMessageEvent}
      {msg : QueuedMessage} (hevent : (b.receiveGroupText c mono now p).2 = some e)
      (hentry : e.queueEntry = some msg) :
      ReceivedText c msg

/-! What is known of a received text. -/

structure TextShape (msg : QueuedMessage) : Prop where
  timestamp_lt : msg.timestamp < 256 ^ 4
  txtType_lt : msg.txtType < 256
  noData : msg.channelDataType = 0
  stripped : Inbox.rstripNul msg.text = msg.text

theorem rstripNul_rstripNul (text : List Char) :
    Inbox.rstripNul (Inbox.rstripNul text) = Inbox.rstripNul text :=
  List.rdropWhile_idempotent _ text

theorem toNatLE_take_lt (d : Bytes) : Bytes.toNatLE (d.take 4) < 256 ^ 4 :=
  (Bytes.toNatLE_lt _).trans_le (Nat.pow_le_pow_right (by decide) (List.length_take_le 4 d))

section

variable {Seed : Type} {c : Crypto Seed}

theorem delivery_of_call {h : TextMessageHandler Seed} {p : Packet} {lastByte : UInt8}
    {d : Delivery} (hcall : h.call c p lastByte = .ok (.delivered d)) :
    d.senderTimestamp < 256 ^ 4 ∧ d.txtType < 256 := by
  unfold TextMessageHandler.call at hcall
  split at hcall
  · cases hcall
  split at hcall
  · cases hcall
  · rename_i contact secret decrypted _
    unfold TextMessageHandler.deliver at hcall
    split at hcall
    · cases hcall
    dsimp only at hcall
    split at hcall
    · cases hcall
    split at hcall
    · cases hcall
    · simp only [bind_eq_ok, pure_eq_ok, Except.ok.injEq, TextOutcome.delivered.injEq] at hcall
      obtain ⟨acks, -, rfl⟩ := hcall
      refine ⟨toNatLE_take_lt decrypted, ?_⟩
      exact (Nat.and_lt_two_pow _ (show 0x3F < 2 ^ 6 by decide)).trans (by decide)

theorem handleNewMessage_entry {b : Inbox} {now : ℚ} {data : NewMessageData} {e : MessageEvent}
    {msg : QueuedMessage} (he : (b.handleNewMessage now data).2 = some e)
    (hentry : e.queueEntry = some msg) : msg = Inbox.directMessage data := by
  simp only [Inbox.handleNewMessage] at he
  split at he
  · cases he
  · cases he
    dsimp only at hentry
    split at hentry
    · exact (Option.some.inj hentry).symm
    · cases hentry

theorem handleNewChannelMessage_entry {b : Inbox} {now : ℚ} {data : ChannelMessageData}
    {e : ChannelMessageEvent} {msg : QueuedMessage}
    (he : (b.handleNewChannelMessage now data).2 = some e) (hentry : e.queueEntry = some msg) :
    ∃ b' : Inbox, msg = b'.channelMessage data := by
  simp only [Inbox.handleNewChannelMessage] at he
  split at he
  · cases he
  split at he
  · cases he
  · cases he
    dsimp only at hentry
    split at hentry
    · exact ⟨_, (Option.some.inj hentry).symm⟩
    · cases hentry

theorem timestamp_of_groupCall {h : GroupTextHandler} {mono : ℚ} {p : Packet}
    {data : ChannelMessageData} (hcall : (h.call c mono p).2 = some data) :
    data.timestamp < 256 ^ 4 := by
  unfold GroupTextHandler.call at hcall
  split at hcall
  · cases hcall
  split at hcall
  · rename_i parsed packetHash hparse _
    dsimp only at hcall
    split at hcall
    · cases hcall
    · cases hcall
      unfold GroupTextHandler.parsePlaintextMessage at hparse
      split at hparse
      · cases hparse
      dsimp only at hparse
      split at hparse
      · cases hparse
      · cases hparse
        exact toNatLE_take_lt _
  · cases hcall

theorem ReceivedText.shape {msg : QueuedMessage} (h : ReceivedText c msg) : TextShape msg := by
  cases h with
  | text b h now p lastByte hevent hentry =>
    unfold Inbox.receiveText at hevent
    split at hevent
    · rename_i d packetHash hcall _
      split at hevent
      · cases hevent
      · obtain rfl := handleNewMessage_entry hevent hentry
        obtain ⟨hts, htype⟩ := delivery_of_call hcall
        exact ⟨hts, htype, rfl, rstripNul_rstripNul _⟩
    · cases hevent
  | groupText b mono now p hevent hentry =>
    simp only [Inbox.receiveGroupText] at hevent
    split at hevent
    · cases hevent
    · rename_i data hdata
      obtain ⟨b', rfl⟩ := handleNewChannelMessage_entry hevent hentry
      exact ⟨timestamp_of_groupCall hdata, Nat.zero_lt_succ 255, rfl, rstripNul_rstripNul _⟩

end

theorem byteString_of_lt {ns : List ℕ} (h : ∀ n ∈ ns, n < 256) :
    byteString ns = .ok (ns.map UInt8.ofNat) := by
  have hmap : ns.mapM Packet.byte = .ok (ns.map fun n => [UInt8.ofNat n]) := by
    induction ns with
    | nil => rfl
    | cons n ns ih =>
      rw [List.mapM_cons, PacketBuilder.byte_of_lt (h n List.mem_cons_self),
        ih fun m hm => h m (List.mem_cons_of_mem n hm)]
      rfl
  rw [byteString, hmap]
  exact congrArg Except.ok ((List.flatMap_def ..).symm.trans (List.flatMap_pure_eq_map ..))

theorem lt_of_byteString {ns : List ℕ} {d : Bytes} (h : byteString ns = .ok d) :
    ∀ n ∈ ns, n < 256 := by
  obtain ⟨ds, hds, -⟩ := map_eq_ok.mp h
  clear h
  induction ns generalizing ds with
  | nil => simp
  | cons n ns ih =>
    simp only [List.mapM_cons, bind_eq_ok] at hds
    obtain ⟨b, hb, ds', hds', -⟩ := hds
    rintro m (_ | ⟨_, hm⟩)
    · exact (Packet.byte_eq_ok.mp hb).1
    · exact ih ds' hds' m hm

theorem pathLenByte_lt (msg : QueuedMessage) : pathLenByte msg < 256 := by
  unfold pathLenByte
  split
  · assumption
  · decide

section

variable {msg : QueuedMessage} {ver : ℕ}

theorem channelTextFrame_ok (hmsg : TextShape msg) (hidx : msg.channelIdx < 256) (ver : ℕ) :
    ∃ frame, channelTextFrame ver msg = .ok frame ∧
      frame.length = (if ver ≥ 3 then 11 else 8) + (Utf8.encode msg.text).length := by
  have hsnr := (messageSnrByte msg.snr).toNat_lt
  have hpath := pathLenByte_lt msg
  have hbytes : ∀ n ∈ (if ver ≥ 3 then
      [respCodeChannelMsgRecvV3, (messageSnrByte msg.snr).toNat, 0, 0, msg.channelIdx,
        pathLenByte msg, 0]
      else [respCodeChannelMsgRecv, msg.channelIdx, pathLenByte msg, 0]), n < 256 := by
    split <;> simp_all
  rw [channelTextFrame, byteString_of_lt hbytes,
    PacketBuilder.packUInt32_of_lt hmsg.timestamp_lt, hmsg.stripped]
  refine ⟨_, rfl, ?_⟩
  simp only [List.length_append, List.length_map, Bytes.length_le]
  split <;> simp

theorem idx_lt_of_channelTextFrame {frame : Bytes} (h : channelTextFrame ver msg = .ok frame) :
    msg.channelIdx < 256 := by
  simp only [channelTextFrame, bind_eq_ok] at h
  obtain ⟨head, hhead, -⟩ := h
  refine lt_of_byteString hhead msg.channelIdx ?_
  split <;> simp

theorem length_authorBytes (msg : QueuedMessage) :
    (authorBytes msg).length = if msg.txtType = txtTypeSignedPlain then 4 else 0 := by
  unfold authorBytes
  split
  · rw [List.length_rightpad, List.length_take]
    omega
  · rfl

theorem directTextFrame_ok (hmsg : TextShape msg) (ver : ℕ) :
    ∃ frame, directTextFrame ver msg = .ok frame ∧
      frame.length = (if ver ≥ 3 then 16 else 13) +
        (if msg.txtType = txtTypeSignedPlain then 4 else 0) + (Utf8.encode msg.text).length := by
  have hsnr := (messageSnrByte msg.snr).toNat_lt
  have hpath := pathLenByte_lt msg
  have htype := hmsg.txtType_lt
  have hhead : ∀ n ∈ (if ver ≥ 3 then
      [respCodeContactMsgRecvV3, (messageSnrByte msg.snr).toNat, 0, 0]
      else [respCodeContactMsgRecv]), n < 256 := by
    split <;> simp_all
  have hroute : ∀ n ∈ [pathLenByte msg, msg.txtType], n < 256 := by simp_all
  have hkey : (if msg.senderKey.length ≥ 6 then msg.senderKey.take 6
      else msg.senderKey.rightpad 6 0).length = 6 := by
    split
    · rw [List.length_take]
      omega
    · rw [List.length_rightpad]
      omega
  rw [directTextFrame, byteString_of_lt hhead, byteString_of_lt hroute,
    PacketBuilder.packUInt32_of_lt hmsg.timestamp_lt]
  refine ⟨_, rfl, ?_⟩
  simp only [List.length_append, List.length_map, Bytes.length_le, hkey, length_authorBytes]
  split <;> simp only [List.length_cons, List.length_nil]

theorem buildMessageFrame_ok (hmsg : TextShape msg)
    (hidx : msg.isChannel = true → msg.channelIdx < 256) (ver : ℕ) :
    ∃ frame, buildMessageFrame ver msg = .ok frame ∧
      frame.length = frameOverhead ver msg + (Utf8.encode msg.text).length := by
  unfold buildMessageFrame frameOverhead
  split
  · rename_i hchannel
    rw [if_neg (not_not.mpr hmsg.noData)]
    exact channelTextFrame_ok hmsg (hidx hchannel) ver
  · exact directTextFrame_ok hmsg ver

theorem idx_lt_of_buildMessageFrame (hmsg : TextShape msg) {frame : Bytes}
    (h : buildMessageFrame ver msg = .ok frame) (hchannel : msg.isChannel = true) :
    msg.channelIdx < 256 := by
  rw [buildMessageFrame, if_pos hchannel, if_neg (not_not.mpr hmsg.noData)] at h
  exact idx_lt_of_channelTextFrame h

theorem enqueueFrame_iff {s : FrameServer} {w : WriteQueue} (hw : s.writeQueue = some w)
    (hroom : w.isFull = false) (frame : Bytes) :
    s.enqueueFrame frame =
        { s with writeQueue := some { w with frames := w.frames ++ [outboundFrame frame] } } ↔
      frame.length ≤ maxFrameSize := by
  unfold enqueueFrame
  rw [hw]
  dsimp only
  split
  · rename_i hlong
    constructor
    · intro heq
      have hqueue := hw.symm.trans (congrArg FrameServer.writeQueue heq)
      have hlen := congrArg (fun q => q.frames.length) (Option.some.inj hqueue)
      simp at hlen
    · intro hle
      exact absurd hle (by omega)
  · rename_i hshort
    simp only [hroom, Bool.false_eq_true, if_false, true_iff]
    omega

/-- The app gets a received text exactly if its frame fits; the message is off the queue in any
case. -/
theorem cmdSyncNextMessage_iff {Seed : Type} {c : Crypto Seed} (hmsg : ReceivedText c msg)
    {s : FrameServer} {w : WriteQueue} (hw : s.writeQueue = some w) (hroom : w.isFull = false)
    {queue rest : MessageQueue} (hpop : queue.pop = some (msg, rest)) :
    (s.cmdSyncNextMessage queue).2 = rest ∧
    ((∃ frame, buildMessageFrame s.appTargetVer msg = .ok frame ∧
        (s.cmdSyncNextMessage queue).1 =
          { s with writeQueue := some { w with frames := w.frames ++ [outboundFrame frame] } }) ↔
      FrameFits s.appTargetVer msg) := by
  have hshape := hmsg.shape
  have hsync : s.cmdSyncNextMessage queue = (match buildMessageFrame s.appTargetVer msg with
      | .ok frame => (s.enqueueFrame frame, rest)
      | .error _ => (s.writeErr errCodeIllegalArg, rest)) := by
    rw [cmdSyncNextMessage, hpop]
  cases hbuild : buildMessageFrame s.appTargetVer msg with
  | error e =>
    rw [hsync, hbuild]
    refine ⟨rfl, ?_⟩
    constructor
    · rintro ⟨frame, hframe, -⟩
      cases hframe
    · intro hfits
      obtain ⟨frame, hframe, -⟩ := buildMessageFrame_ok hshape hfits.2 s.appTargetVer
      cases hbuild.symm.trans hframe
  | ok frame =>
    rw [hsync, hbuild]
    refine ⟨rfl, ?_⟩
    have hidx := idx_lt_of_buildMessageFrame hshape hbuild
    obtain ⟨frame', hframe', hlen⟩ := buildMessageFrame_ok hshape hidx s.appTargetVer
    cases hbuild.symm.trans hframe'
    constructor
    · rintro ⟨_, heq, hput⟩
      cases heq
      exact ⟨hlen ▸ (enqueueFrame_iff hw hroom frame).mp hput, hidx⟩
    · intro hfits
      exact ⟨frame, rfl, (enqueueFrame_iff hw hroom frame).mpr (hlen ▸ hfits.1)⟩

end

/-! A room post whose text is within every limit of the air. -/

def roomContact : Contact := { publicKey := xorCrypto.publicKey [0xA0] }

def roomListener : TextMessageHandler Bytes :=
  { localIdentity := [0xB0]
    contacts := [roomContact] }

def roomPost (size : ℕ) : Packet :=
  match PacketBuilder.createTextMessage xorCrypto { publicKey := xorCrypto.publicKey [0xB0] } [0xA0]
      (List.replicate size 'x') 0 .flood none txtTypeSignedPlain 7 with
  | .ok (p, _) => p
  | .error _ => {}

def roomInbox : Inbox := { channels := .empty 1 }

def roomServer : FrameServer := { appTargetVer := 3, writeQueue := some {} }

/-- The queue after a post was received. -/
def postQueue (size : ℕ) : MessageQueue :=
  (roomInbox.receiveText xorCrypto roomListener 0 (roomPost size) 0).1.messageQueue

def postMessage (size : ℕ) : QueuedMessage :=
  { senderKey := xorCrypto.publicKey [0xA0]
    txtType := txtTypeSignedPlain
    timestamp := 7
    text := List.replicate size 'x'
    senderPrefix := [0xA0, 0, 0, 0] }

theorem cmdSyncNextMessage_loses_post :
    (roomPost 157).payload.length ≤ maxPacketPayload ∧
    (roomInbox.receiveText xorCrypto roomListener 0 (roomPost 157) 0).2.map (·.queueEntry) =
      some (some (postMessage 157)) ∧
    (postQueue 157).queue = [postMessage 157] ∧
    (roomServer.cmdSyncNextMessage (postQueue 157)).1 = roomServer ∧
    (roomServer.cmdSyncNextMessage (postQueue 157)).2.queue = [] := by
  refine ⟨?_, ?_, ?_, ?_, ?_⟩ <;> decide +kernel

theorem cmdSyncNextMessage_iff_post :
    ∃ frame, buildMessageFrame 3 (postMessage 2) = .ok frame ∧
      (roomServer.cmdSyncNextMessage (postQueue 2)).1 =
        { roomServer with writeQueue := some { frames := [outboundFrame frame] } } := by
  cases hevent : (roomInbox.receiveText xorCrypto roomListener 0 (roomPost 2) 0).2 with
  | none =>
    have hsome :
        (roomInbox.receiveText xorCrypto roomListener 0 (roomPost 2) 0).2.isSome = true := by
      decide +kernel
    rw [hevent] at hsome
    cases hsome
  | some e =>
    have hentry : (roomInbox.receiveText xorCrypto roomListener 0 (roomPost 2) 0).2.map
        (·.queueEntry) = some (some (postMessage 2)) := by decide +kernel
    rw [hevent] at hentry
    have hmsg := ReceivedText.text roomInbox roomListener 0 (roomPost 2) 0 hevent
      (Option.some.inj hentry)
    have hpop : (postQueue 2).pop = some (postMessage 2, {}) :=
      MessageQueue.pop_eq_some.mpr (by decide +kernel)
    have hopen : roomServer.writeQueue = some {} := rfl
    have hfits : FrameFits roomServer.appTargetVer (postMessage 2) :=
      ⟨by decide +kernel, fun h => by cases h⟩
    exact (cmdSyncNextMessage_iff hmsg hopen (by decide) hpop).2.mpr hfits

end FrameServer

end OpenHop
