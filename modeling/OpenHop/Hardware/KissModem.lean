import OpenHop.Hardware.KissDecoder

/-! # The KISS modem stream

Frames are encoded with FEND delimiters and escape sequences and arrive in chunks cut
anywhere. Decoding the chunks processes every frame exactly once, in order and unescaped.
-/

namespace OpenHop.Kiss.KissModemWrapper

def cmdData : ℕ := 0x00
def kissCmdSetHardware : ℕ := 0x06
def hwRespError : UInt8 := 0xF1
def hwRespTxDone : UInt8 := 0xF8
def hwRespRxMeta : UInt8 := 0xF9
def hwErrTxBusy : UInt8 := 0x07
def maxPendingRxFrames : ℕ := 64
def rxMetaWaitSeconds : ℚ := 1 / 4
def responseQueueMaxlen : ℕ := 32

/-- The receive side of the wrapper. `reads` counts the readings of the monotonic clock and
`dispatched` the calls of the frame callback. -/
structure RxSide where
  pendingRxQueue : List (Bytes × ℚ) := []
  framesReceived : ℕ := 0
  bytesReceived : ℕ := 0
  frameErrors : ℕ := 0
  rxPackets : ℕ := 0
  txPackets : ℕ := 0
  errors : ℕ := 0
  txBusy : ℕ := 0
  lastRssi : ℤ := -999
  lastSnr : ℚ := -999
  txDoneResult : Option Bool := none
  txDoneEvent : Bool := false
  txBusySeen : Bool := false
  expectedResponseSubcmds : Option (List UInt8) := none
  pendingResponse : Option (UInt8 × Bytes) := none
  responseEvent : Bool := false
  responseQueue : List (UInt8 × Bytes) := []
  hasCallback : Bool := true
  dispatched : List (Bytes × ℤ × ℚ) := []
  reads : ℕ := 0

def processData (clock : ℕ → ℚ) (m : RxSide) (payload : Bytes) : RxSide :=
  if m.pendingRxQueue.length ≥ maxPendingRxFrames then { m with frameErrors := m.frameErrors + 1 }
  else
    let deadline := clock m.reads + rxMetaWaitSeconds
    { m with
      reads := m.reads + 1
      pendingRxQueue := m.pendingRxQueue ++ [(payload, deadline)] }

def signedByte (b : UInt8) : ℤ := if b.toNat > 127 then (b.toNat : ℤ) - 256 else b.toNat

def processRxMeta (m : RxSide) (payload : Bytes) : RxSide :=
  let (m, rssi, snr) : RxSide × ℤ × ℚ :=
    match payload with
    | snrRaw :: rssiRaw :: _ =>
      let snr : ℚ := signedByte snrRaw / 4
      let rssi := signedByte rssiRaw
      ({ m with lastSnr := snr, lastRssi := rssi, rxPackets := m.rxPackets + 1 }, rssi, snr)
    | _ => (m, -999, -999)
  match m.pendingRxQueue with
  | [] => m
  | (data, _) :: queue =>
    { m with
      pendingRxQueue := queue
      dispatched := if m.hasCallback then m.dispatched ++ [(data, rssi, snr)] else m.dispatched }

/-- Hand a response to the waiting command, or queue it; a full queue loses its oldest entry. -/
def processResponse (m : RxSide) (subCmd : UInt8) (payload : Bytes) : RxSide :=
  if m.expectedResponseSubcmds.any (subCmd ∈ ·) then
    { m with pendingResponse := some (subCmd, payload), responseEvent := true }
  else
    let queue := m.responseQueue ++ [(subCmd, payload)]
    { m with responseQueue := queue.drop (queue.length - responseQueueMaxlen) }

def processTxDone (m : RxSide) (payload : Bytes) : RxSide :=
  match payload with
  | result :: _ =>
    { m with
      txDoneResult := some (result == 0x01), txPackets := m.txPackets + 1, txDoneEvent := true }
  | [] => { m with txDoneEvent := true }

def processError (m : RxSide) (payload : Bytes) : RxSide :=
  let m := if payload.isEmpty then m else { m with errors := m.errors + 1 }
  -- TX_BUSY is no verdict on the frame in flight
  if payload.head? = some hwErrTxBusy then { m with txBusy := m.txBusy + 1, txBusySeen := true }
  else processResponse m hwRespError payload

def processSetHardware (m : RxSide) : Bytes → RxSide
  | [] => m
  | subCmd :: payload =>
    if subCmd = hwRespRxMeta then processRxMeta m payload
    else if subCmd = hwRespTxDone then processTxDone m payload
    else if subCmd = hwRespError then processError m payload
    else processResponse m subCmd payload

def processReceivedFrame (clock : ℕ → ℚ) (m : RxSide) : Bytes → RxSide
  | [] => m
  | typeByte :: body =>
    let port := (typeByte.toNat >>> 4) &&& 0x0F
    let cmd := typeByte.toNat &&& 0x0F
    if port ≠ 0 then m
    else
      let m := { m with
        framesReceived := m.framesReceived + 1
        bytesReceived := m.bytesReceived + body.length }
      if cmd = cmdData then processData clock m body
      else if cmd = kissCmdSetHardware then processSetHardware m body
      else m

structure ModemState where
  decoder : DecoderState := {}
  rx : RxSide := {}

def handleEvent (clock : ℕ → ℚ) (m : RxSide) : DecoderEvent → RxSide
  | .frame buffer => processReceivedFrame clock m buffer
  | .frameError => { m with frameErrors := m.frameErrors + 1 }

/-- `_decode_kiss` with its effects on the receive side. -/
def receiveChunk (clock : ℕ → ℚ) (s : ModemState) (data : Bytes) : ModemState :=
  let r := decodeKiss s.decoder data
  ⟨r.2, r.1.foldl (handleEvent clock) s.rx⟩

def receiveChunks (clock : ℕ → ℚ) (s : ModemState) (chunks : List Bytes) : ModemState :=
  chunks.foldl (receiveChunk clock) s

def escapeByte (byte : UInt8) : Bytes :=
  if byte = fend then [fesc, tfend]
  else if byte = fesc then [fesc, tfesc]
  else [byte]

def encodeKissFrame (cmd : UInt8) (data : Bytes) : Bytes :=
  fend :: cmd :: (data.flatMap escapeByte ++ [fend])

/-- A Data frame for port 0 that finds the queue full. -/
def dropsFrame (m : RxSide) : Bytes → Bool
  | [] => false
  | typeByte :: _ =>
    decide ((typeByte.toNat >>> 4) &&& 0x0F = 0 ∧ typeByte.toNat &&& 0x0F = cmdData ∧
      m.pendingRxQueue.length ≥ maxPendingRxFrames)

/-- The part of the receive side that only Data frames, RxMeta and timeouts change. -/
structure RxLine where
  pendingRxQueue : List (Bytes × ℚ)
  dispatched : List (Bytes × ℤ × ℚ)
  frameErrors : ℕ
  hasCallback : Bool
  reads : ℕ

def RxSide.line (m : RxSide) : RxLine where
  pendingRxQueue := m.pendingRxQueue
  dispatched := m.dispatched
  frameErrors := m.frameErrors
  hasCallback := m.hasCallback
  reads := m.reads

theorem processResponse_line (m : RxSide) (subCmd : UInt8) (payload : Bytes) :
    (processResponse m subCmd payload).line = m.line := by
  unfold processResponse
  split <;> rfl

theorem processTxDone_line (m : RxSide) (payload : Bytes) :
    (processTxDone m payload).line = m.line := by
  cases payload <;> rfl

theorem processError_line (m : RxSide) (payload : Bytes) :
    (processError m payload).line = m.line := by
  have hcount : (if payload.isEmpty then m else { m with errors := m.errors + 1 }).line =
      m.line := by
    split <;> rfl
  unfold processError
  dsimp only
  split
  · exact hcount
  · rw [processResponse_line, hcount]

theorem processSetHardware_line (m : RxSide) (subCmd : UInt8) (payload : Bytes) :
    (processSetHardware m (subCmd :: payload)).line =
      if subCmd = hwRespRxMeta then (processRxMeta m payload).line else m.line := by
  simp only [processSetHardware]
  split
  · rfl
  · split
    · exact processTxDone_line m payload
    · split
      · exact processError_line m payload
      · exact processResponse_line m subCmd payload

theorem processRxMeta_frameErrors (m : RxSide) (payload : Bytes) :
    (processRxMeta m payload).frameErrors = m.frameErrors := by
  rcases payload with _ | ⟨a, _ | ⟨b, payload⟩⟩ <;> unfold processRxMeta <;> dsimp only <;>
    split <;> rfl

theorem processSetHardware_frameErrors (m : RxSide) (body : Bytes) :
    (processSetHardware m body).frameErrors = m.frameErrors := by
  cases body with
  | nil => rfl
  | cons subCmd payload =>
    have h := congrArg RxLine.frameErrors (processSetHardware_line m subCmd payload)
    refine Eq.trans h ?_
    split
    · exact processRxMeta_frameErrors m payload
    · rfl

theorem processReceivedFrame_frameErrors (clock : ℕ → ℚ) (m : RxSide) (buffer : Bytes) :
    (processReceivedFrame clock m buffer).frameErrors =
      m.frameErrors + if dropsFrame m buffer then 1 else 0 := by
  rcases buffer with _ | ⟨typeByte, body⟩
  · rfl
  · unfold processReceivedFrame
    dsimp only
    split
    · rename_i hport
      simp [dropsFrame, hport]
    · rename_i hport
      split
      · rename_i hcmd
        unfold processData
        dsimp only
        split
        · rename_i hfull
          simp [dropsFrame, not_not.mp hport, hcmd, hfull]
        · rename_i hfree
          simp [dropsFrame, hfree]
      · rename_i hcmd
        have hno : dropsFrame m (typeByte :: body) = false := by simp [dropsFrame, hcmd]
        rw [hno]
        split
        · exact processSetHardware_frameErrors _ body
        · rfl

theorem receiveChunks_eq (clock : ℕ → ℚ) (s : ModemState) (chunks : List Bytes) :
    receiveChunks clock s chunks =
      ⟨(Stream.feed decodeKiss s.decoder chunks).2,
        (Stream.feed decodeKiss s.decoder chunks).1.foldl (handleEvent clock) s.rx⟩ := by
  induction chunks generalizing s with
  | nil => rfl
  | cons c cs ih =>
    rw [receiveChunks, List.foldl_cons]
    refine (ih (receiveChunk clock s c)).trans ?_
    simp only [receiveChunk, Stream.feed, List.foldl_append]

theorem mealy_escapeByte_eq {w : Wrapper} {buf : Bytes} {b : UInt8} {r : Reaction}
    (happend : w.appendDecoded ⟨true, true, buf⟩ b = r)
    (hplain : plainByte ⟨true, false, buf⟩ b = r) :
    Stream.mealy (bulkByte w) ⟨true, false, buf⟩ (escapeByte b) = r := by
  have hpair : ∀ t : UInt8, Stream.mealy (bulkByte w) ⟨true, false, buf⟩ [fesc, t] =
      ((unescape w ⟨true, true, buf⟩ t).1 ++ [], (unescape w ⟨true, true, buf⟩ t).2) :=
    fun _ => rfl
  unfold escapeByte
  split
  · rename_i hb
    rw [hpair, unescape, if_pos rfl, ← hb, happend, List.append_nil]
  split
  · rename_i hb
    rw [hpair, unescape, if_neg (by decide), if_pos rfl, ← hb, happend, List.append_nil]
  · rename_i hfend hfesc
    have hbyte : bulkByte w ⟨true, false, buf⟩ b = r := by
      simpa [bulkByte, hfend, hfesc] using hplain
    rw [Stream.mealy, hbyte]
    simp [Stream.mealy]

theorem mealy_escapeByte {w : Wrapper} (hw : w.Fills) {buf : Bytes} (b : UInt8)
    (h : buf.length < maxFrameSize) :
    Stream.mealy (bulkByte w) ⟨true, false, buf⟩ (escapeByte b) =
      ([], ⟨true, false, buf ++ [b]⟩) := by
  apply mealy_escapeByte_eq
  · exact hw _ _ h
  · rw [plainByte, if_pos rfl, if_neg (not_le.mpr h)]

theorem mealy_escaped {w : Wrapper} (hw : w.Fills) {data buf : Bytes}
    (h : buf.length + data.length ≤ maxFrameSize) :
    Stream.mealy (bulkByte w) ⟨true, false, buf⟩ (data.flatMap escapeByte) =
      ([], ⟨true, false, buf ++ data⟩) := by
  induction data generalizing buf with
  | nil => simp [Stream.mealy]
  | cons b data ih =>
    have hb : buf.length < maxFrameSize := by
      simp only [List.length_cons] at h
      omega
    have hrest : (buf ++ [b]).length + data.length ≤ maxFrameSize := by
      simp only [List.length_append, List.length_cons, List.length_nil] at h ⊢
      omega
    rw [List.flatMap_cons, Stream.mealy_append, mealy_escapeByte hw b hb, ih hrest]
    simp

theorem bulkByte_fend_of_empty {w : Wrapper} {s : DecoderState} (hs : s.rxFrameBuffer = [])
    (he : s.escaped = false) : bulkByte w s fend = ([], .opened) := by
  simp [bulkByte, he, frameEnd, hs]

theorem bulkByte_opened {w : Wrapper} {b : UInt8} (hfend : b ≠ fend) (hfesc : b ≠ fesc) :
    bulkByte w .opened b = ([], ⟨true, false, [b]⟩) := by
  simp [bulkByte, DecoderState.opened, hfend, hfesc, plainByte, maxFrameSize]

theorem mealy_encodeKissFrame {cmd : UInt8} {data : Bytes} {s : DecoderState}
    (hs : s.rxFrameBuffer = []) (he : s.escaped = false) (hcmd : cmd.toNat ≤ 15)
    (hlen : 1 + data.length ≤ maxFrameSize) :
    Stream.mealy (bulkByte wrapper) s (encodeKissFrame cmd data) =
      ([.frame (cmd :: data)], .opened) := by
  have hfend : cmd ≠ fend := by rintro rfl; exact absurd hcmd (by decide)
  have hfesc : cmd ≠ fesc := by rintro rfl; exact absurd hcmd (by decide)
  have hclose : bulkByte wrapper ⟨true, false, cmd :: data⟩ fend =
      ([.frame (cmd :: data)], .opened) := by
    simp [bulkByte, frameEnd, wrapper]
  have hbody := @mealy_escaped _ modem_fills data [cmd] (by simpa using hlen)
  simp only [encodeKissFrame, Stream.mealy, bulkByte_fend_of_empty hs he,
    bulkByte_opened hfend hfesc, Stream.mealy_append, hbody, List.cons_append, List.nil_append,
    hclose, List.append_nil]

theorem mealy_frames {frames : List (UInt8 × Bytes)} {s : DecoderState}
    (hframes : ∀ f ∈ frames, f.1.toNat ≤ 15 ∧ 1 + f.2.length ≤ maxFrameSize)
    (hs : s.rxFrameBuffer = []) (he : s.escaped = false) :
    (Stream.mealy (bulkByte wrapper) s
      (frames.map fun f => encodeKissFrame f.1 f.2).flatten).1 =
        frames.map (fun f => .frame (f.1 :: f.2)) ∧
    (Stream.mealy (bulkByte wrapper) s
      (frames.map fun f => encodeKissFrame f.1 f.2).flatten).2.rxFrameBuffer = [] ∧
    (Stream.mealy (bulkByte wrapper) s
      (frames.map fun f => encodeKissFrame f.1 f.2).flatten).2.escaped = false := by
  induction frames generalizing s with
  | nil => exact ⟨rfl, hs, he⟩
  | cons f frames ih =>
    obtain ⟨hcmd, hlen⟩ := hframes f (by simp)
    obtain ⟨h₁, h₂, h₃⟩ := ih (s := .opened) (fun g hg => hframes g (by simp [hg])) rfl rfl
    simp only [List.map_cons, List.flatten_cons, Stream.mealy_append,
      mealy_encodeKissFrame hs he hcmd hlen]
    exact ⟨by rw [h₁]; rfl, h₂, h₃⟩

/-- However the encoded frames are cut into chunks, each is processed once, in order and unescaped.
-/
theorem receiveChunks_encoded (clock : ℕ → ℚ) (frames : List (UInt8 × Bytes))
    (chunks : List Bytes)
    (hframes : ∀ f ∈ frames, f.1.toNat ≤ 15 ∧ 1 + f.2.length ≤ maxFrameSize)
    (hchunks : chunks.flatten = (frames.map fun f => encodeKissFrame f.1 f.2).flatten) :
    (Stream.feed decodeKiss {} chunks).1 = frames.map (fun f => .frame (f.1 :: f.2)) ∧
    (receiveChunks clock {} chunks).rx =
      frames.foldl (fun m f => processReceivedFrame clock m (f.1 :: f.2)) {} ∧
    (∀ m buffer, (processReceivedFrame clock m buffer).frameErrors =
      m.frameErrors + if dropsFrame m buffer then 1 else 0) ∧
    (receiveChunks clock {} chunks).decoder.escaped = false ∧
    (receiveChunks clock {} chunks).decoder.rxFrameBuffer = [] := by
  obtain ⟨hevents, hbuffer, hescaped⟩ := mealy_frames (s := {}) hframes rfl rfl
  have hfeed : Stream.feed decodeKiss {} chunks = Stream.mealy (bulkByte wrapper) {}
      (frames.map fun f => encodeKissFrame f.1 f.2).flatten := by
    rw [← hchunks]
    exact feed_decodeKiss wrapper {} chunks
  rw [receiveChunks_eq, hfeed]
  refine ⟨hevents, ?_, processReceivedFrame_frameErrors clock, hescaped, hbuffer⟩
  rw [hevents, List.foldl_map]
  rfl

theorem receiveChunks_encoded_split :
    (Stream.feed decodeKiss {} [[0xC0, 0x06, 0xDB], [0xDC, 0xC0, 0xC0, 0x00, 0xC0]]).1 =
      [.frame [0x06, 0xC0], .frame [0x00]] :=
  (receiveChunks_encoded (fun _ => 0) [(0x06, [0xC0]), (0x00, [])]
    [[0xC0, 0x06, 0xDB], [0xDC, 0xC0, 0xC0, 0x00, 0xC0]] (by decide) (by decide)).1

/-- The queue holds 64 unpaired Data frames; the next one is counted as a frame error. -/
theorem receiveChunks_queue_full :
    (receiveChunks (fun _ => 0) {}
      [(List.replicate 65 (encodeKissFrame 0x00 [])).flatten]).rx.frameErrors = 1 := by
  have hmap : List.replicate 65 (encodeKissFrame 0x00 []) =
      (List.replicate 65 ((0x00 : UInt8), ([] : Bytes))).map fun f => encodeKissFrame f.1 f.2 := by
    rw [List.map_replicate]
  have hframes : ∀ f ∈ List.replicate 65 ((0x00 : UInt8), ([] : Bytes)),
      f.1.toNat ≤ 15 ∧ 1 + f.2.length ≤ maxFrameSize := by
    intro f hf
    rw [List.eq_of_mem_replicate hf]
    decide
  rw [receiveChunks_eq, decodeKiss, feed_decodeKiss, List.flatten_singleton, hmap,
    (mealy_frames (s := {}) hframes rfl rfl).1]
  decide +kernel

end OpenHop.Kiss.KissModemWrapper
