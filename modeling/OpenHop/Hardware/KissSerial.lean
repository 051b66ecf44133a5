import OpenHop.Hardware.KissModem

/-! # The KISS serial link

`send_frame` queues an encoded frame for the transmit thread and the peer decodes what the
serial line delivers. The type byte in front of the data carries the KISS port in its upper
half.
-/

namespace OpenHop.Kiss.KissSerialWrapper

def kissMaskPort : ℕ := 0xF0
def kissMaskCmd : ℕ := 0x0F
def kissCmdData : ℕ := 0x00
def txBufferSize : ℕ := 1024

/-- The state of the wrapper apart from its decoder. `callbacks` are the calls of the frame
callback, if one is installed. -/
structure SerialLink where
  kissPort : Fin 16
  isConnected : Bool := false
  txBuffer : List Bytes := []
  bufferOverruns : ℕ := 0
  hasCallback : Bool := true
  framesReceived : ℕ := 0
  bytesReceived : ℕ := 0
  frameErrors : ℕ := 0
  callbacks : List Bytes := []

/-- The wrapper as constructed; only four bits of the port number are kept. -/
def SerialLink.init (kissPort : ℕ) : SerialLink where
  kissPort := ⟨kissPort &&& 0x0F, Nat.lt_of_le_of_lt Nat.and_le_right (by decide)⟩

@[simp] theorem SerialLink.init_kissPort (p : Fin 16) : (init p.val).kissPort = p := by
  revert p
  decide

def cmdByte (kissPort : Fin 16) (cmd : ℕ) : UInt8 :=
  .ofNat (((kissPort.val <<< 4) &&& kissMaskPort) ||| (cmd &&& kissMaskCmd))

def encodeKissFrame (kissPort : Fin 16) (cmd : ℕ) (data : Bytes) : Bytes :=
  fend :: cmdByte kissPort cmd :: (data.flatMap KissModemWrapper.escapeByte ++ [fend])

def sendFrame (m : SerialLink) (data : Bytes) : Bool × SerialLink :=
  if !m.isConnected || decide (data.length > maxFrameSize) then (false, m)
  else
    let kissFrame := encodeKissFrame m.kissPort kissCmdData data
    if m.txBuffer.length < txBufferSize then
      (true, { m with txBuffer := m.txBuffer ++ [kissFrame] })
    else (false, { m with bufferOverruns := m.bufferOverruns + 1 })

def processReceivedFrame (m : SerialLink) : Bytes → SerialLink
  | [] => m
  | cmdByte :: data =>
    let port := (cmdByte.toNat &&& kissMaskPort) >>> 4
    let cmd := cmdByte.toNat &&& kissMaskCmd
    if port ≠ m.kissPort.val then m
    else if cmd = kissCmdData then
      if m.hasCallback && decide (data.length > 0) then
        { m with
          framesReceived := m.framesReceived + 1
          bytesReceived := m.bytesReceived + data.length
          callbacks := m.callbacks ++ [data] }
      else m
    else m

def handleEvent (m : SerialLink) : DecoderEvent → SerialLink
  | .frame buffer => processReceivedFrame m buffer
  | .frameError => { m with frameErrors := m.frameErrors + 1 }

/-- `_decode_kiss` with its effects on the link. -/
def receiveChunk (s : DecoderState × SerialLink) (data : Bytes) : DecoderState × SerialLink :=
  let r := decodeKiss s.1 data
  (r.2, r.1.foldl handleEvent s.2)

def receiveChunks (s : DecoderState × SerialLink) (chunks : List Bytes) :
    DecoderState × SerialLink :=
  chunks.foldl receiveChunk s

theorem sendFrame_accepts {m : SerialLink} {data : Bytes} (h : (sendFrame m data).1 = true) :
    data.length ≤ maxFrameSize ∧
      (sendFrame m data).2.txBuffer =
        m.txBuffer ++ [encodeKissFrame m.kissPort kissCmdData data] := by
  unfold sendFrame at h ⊢
  split at h
  · cases h
  · rename_i hguard
    rw [if_neg hguard]
    simp only [Bool.or_eq_true, Bool.not_eq_true', decide_eq_true_eq, not_or, not_lt] at hguard
    dsimp only at h ⊢
    split at h
    · rename_i hspace
      rw [if_pos hspace]
      exact ⟨hguard.2, rfl⟩
    · cases h

theorem receiveChunks_eq (s : DecoderState × SerialLink) (chunks : List Bytes) :
    (receiveChunks s chunks).2 =
      (Stream.mealy (bulkByte wrapper) s.1 chunks.flatten).1.foldl handleEvent s.2 := by
  rw [← feed_decodeKiss]
  induction chunks generalizing s with
  | nil => rfl
  | cons c cs ih =>
    rw [receiveChunks, List.foldl_cons]
    refine (ih (receiveChunk s c)).trans ?_
    simp only [receiveChunk, decodeKiss, Stream.feed, List.foldl_append]

theorem cmdByte_data (p : Fin 16) :
    ((cmdByte p kissCmdData).toNat &&& kissMaskPort) >>> 4 = p.val ∧
      (cmdByte p kissCmdData).toNat &&& kissMaskCmd = kissCmdData ∧
      cmdByte p kissCmdData ≠ fesc ∧ (cmdByte p kissCmdData = fend ↔ p = 12) := by
  revert p
  decide

theorem mealy_escapeByte_full {buf : Bytes} (b : UInt8) (h : buf.length = maxFrameSize) :
    Stream.mealy (bulkByte wrapper) ⟨true, false, buf⟩ (KissModemWrapper.escapeByte b) =
      ([.frameError], .resync) := by
  apply KissModemWrapper.mealy_escapeByte_eq
  · exact if_pos h.ge
  · rw [plainByte, if_pos rfl, if_pos h.ge]
    rfl

/-- From the start of a frame, data followed by a FEND: collected and closed if the buffer has room
for it, and a frame error if the last byte is one too many. -/
theorem mealy_body {buf data : Bytes} (hle : buf.length + data.length ≤ maxFrameSize + 1)
    (hbuf : buf.length ≤ maxFrameSize) :
    (Stream.mealy (bulkByte wrapper) ⟨true, false, buf⟩
      (data.flatMap KissModemWrapper.escapeByte ++ [fend])).1 =
      if buf.length + data.length ≤ maxFrameSize then
        if 1 < (buf ++ data).length then [.frame (buf ++ data)] else []
      else [.frameError] := by
  split
  · rename_i hfit
    rw [Stream.mealy_append, KissModemWrapper.mealy_escaped serial_fills hfit]
    have hclose : bulkByte wrapper ⟨true, false, buf ++ data⟩ fend =
        (if 1 < (buf ++ data).length then [.frame (buf ++ data)] else [], .opened) := by
      simp [bulkByte, frameEnd, wrapper]
    simp only [Stream.mealy, hclose, List.nil_append, List.append_nil]
  · rename_i hover
    rcases List.eq_nil_or_concat data with rfl | ⟨front, b, rfl⟩
    · simp only [List.length_nil] at hover
      omega
    · rw [List.concat_eq_append] at hle hover ⊢
      simp only [List.length_append, List.length_singleton] at hle hover
      have hfront : buf.length + front.length = maxFrameSize := by omega
      have hfull : (buf ++ front).length = maxFrameSize := by rw [List.length_append, hfront]
      rw [List.flatMap_append, Stream.mealy_append, Stream.mealy_append,
        KissModemWrapper.mealy_escaped serial_fills hfront.le]
      simp only [List.flatMap_cons, List.flatMap_nil, List.append_nil,
        mealy_escapeByte_full b hfull]
      rfl

/-- The events of one encoded frame on a fresh decoder. On port 12 the type byte is taken for
another FEND, and the data for a frame of its own. -/
theorem mealy_encodeKissFrame (p : Fin 16) {data : Bytes} (hne : data ≠ [])
    (hle : data.length ≤ maxFrameSize) :
    (Stream.mealy (bulkByte wrapper) {} (encodeKissFrame p kissCmdData data)).1 =
      if p = 12 then if 1 < data.length then [.frame data] else []
      else if data.length < maxFrameSize then [.frame (cmdByte p kissCmdData :: data)]
      else [.frameError] := by
  obtain ⟨-, -, hesc, hport⟩ := cmdByte_data p
  have hopen : bulkByte wrapper {} fend = ([], .opened) :=
    KissModemWrapper.bulkByte_fend_of_empty rfl rfl
  have hagain : bulkByte wrapper .opened fend = ([], .opened) :=
    KissModemWrapper.bulkByte_fend_of_empty rfl rfl
  have hlen : 0 < data.length := List.length_pos_of_ne_nil hne
  rw [encodeKissFrame, Stream.mealy, hopen, Stream.mealy]
  by_cases hp : p = 12
  · have hbody := @mealy_body [] data (by simp; omega) (by simp)
    rw [if_pos hp, hport.mpr hp, hagain]
    simpa [DecoderState.opened, hle] using hbody
  · have hfend : cmdByte p kissCmdData ≠ fend := fun h => hp (hport.mp h)
    have hbody := @mealy_body [cmdByte p kissCmdData] data
      (by simp only [List.length_singleton]; omega) (by simp [maxFrameSize])
    have hroom : [cmdByte p kissCmdData].length + data.length ≤ maxFrameSize ↔
        data.length < maxFrameSize := by
      simp only [List.length_singleton]
      omega
    have hlong : 1 < ([cmdByte p kissCmdData] ++ data).length := by
      simp only [List.length_append, List.length_singleton]
      omega
    rw [if_neg hp, KissModemWrapper.bulkByte_opened hfend hesc]
    simp only [hroom, hlong, if_true] at hbody
    simpa using hbody

/-- Data accepted for sending reaches the callback of a peer on the same port, however the line
cuts it, exactly if the port is not 12 and the data is shorter than `maxFrameSize`. -/
theorem sendFrame_received_iff (m : SerialLink) (data : Bytes) (chunks : List Bytes)
    (hne : data ≠ []) (haccept : (sendFrame m data).1 = true)
    (hchunks : (sendFrame m data).2.txBuffer = m.txBuffer ++ [chunks.flatten]) :
    (receiveChunks ({}, .init m.kissPort) chunks).2.callbacks = [data] ↔
      m.kissPort ≠ 12 ∧ data.length < maxFrameSize := by
  obtain ⟨hle, hqueued⟩ := sendFrame_accepts haccept
  have hwire : chunks.flatten = encodeKissFrame m.kissPort kissCmdData data := by
    simpa using hchunks.symm.trans hqueued
  have hlen : 0 < data.length := List.length_pos_of_ne_nil hne
  obtain ⟨hport, hcmd, -, -⟩ := cmdByte_data m.kissPort
  have hquiet : (SerialLink.init m.kissPort).callbacks = [] := rfl
  have hcallback : (SerialLink.init m.kissPort).hasCallback = true := rfl
  rw [receiveChunks_eq, hwire, mealy_encodeKissFrame m.kissPort hne hle]
  by_cases hp : m.kissPort = 12
  · rw [if_pos hp]
    refine iff_of_false ?_ (fun h => h.1 hp)
    obtain ⟨b, rest, rfl⟩ := List.exists_cons_of_ne_nil hne
    split
    · simp only [List.foldl_cons, List.foldl_nil, handleEvent, processReceivedFrame]
      split
      · simp [hquiet]
      · split
        · split
          · simp [hquiet]
          · simp [hquiet]
        · simp [hquiet]
    · simp [hquiet]
  · rw [if_neg hp]
    split
    · rename_i hshort
      refine iff_of_true ?_ ⟨hp, hshort⟩
      simp [handleEvent, processReceivedFrame, hport, hcmd, hlen, hcallback, hquiet]
    · rename_i hfull
      refine iff_of_false ?_ (fun h => hfull h.2)
      simp [handleEvent, hquiet]

/-- One byte on port 0, sent in two reads. -/
theorem sendFrame_received_port_zero :
    (receiveChunks ({}, .init 0) [[0xC0, 0x00, 0xDB], [0xDC, 0xC0]]).2.callbacks =
      [[0xC0]] :=
  (sendFrame_received_iff { kissPort := 0, isConnected := true } [0xC0]
    [[0xC0, 0x00, 0xDB], [0xDC, 0xC0]] (by decide) rfl (by decide)).mpr (by decide)

/-- On port 12 an accepted frame never reaches the peer's callback. -/
theorem sendFrame_lost_port_twelve :
    let m : SerialLink := { kissPort := 12, isConnected := true }
    (sendFrame m [0x01, 0x02]).1 = true ∧
    (sendFrame m [0x01, 0x02]).2.txBuffer = [[0xC0, 0xC0, 0x01, 0x02, 0xC0]] ∧
    (receiveChunks ({}, .init 12) [[0xC0, 0xC0, 0x01, 0x02, 0xC0]]).2.callbacks = [] := by
  intro m
  refine ⟨rfl, by decide, ?_⟩
  rw [receiveChunks_eq]
  decide

end OpenHop.Kiss.KissSerialWrapper
