import OpenHop.Data.Bytes
import OpenHop.Machine.Stream

/-! # The USB and TCP modem protocol

A modem frame is SYNC, command, length, payload and a CRC-16 over everything after SYNC.
Both radios parse the byte stream with the same loop over a buffer: search SYNC, reject an
absurd length by one byte, wait for a complete frame, drop it on a CRC mismatch.
-/

namespace OpenHop.Modem

def protoSync : UInt8 := 0xAA
@[simp] def maxLoraPayload : ℕ := 255

/-- One round of the inner loop of `crc16_ccitt`. -/
def crc16Bit (crc : ℕ) : ℕ :=
  (if crc &&& 0x8000 ≠ 0 then (crc <<< 1) ^^^ 0x1021 else crc <<< 1) &&& 0xFFFF

def crc16Byte (crc : ℕ) (byte : UInt8) : ℕ :=
  crc16Bit^[8] (crc ^^^ (byte.toNat <<< 8))

/-- CRC-16/CCITT-FALSE. -/
def crc16Ccitt (data : Bytes) : ℕ := data.foldl crc16Byte 0xFFFF

inductive FrameError where
  | payloadTooLong (length : ℕ)
  deriving DecidableEq, Repr

def buildFrame (cmd : UInt8) (payload : Bytes) : Except FrameError Bytes :=
  let length := payload.length
  if length > 0xFFFF then .error (.payloadTooLong length)
  else
    let hdr := cmd :: Bytes.le 2 length
    let crc := crc16Ccitt (hdr ++ payload)
    .ok (protoSync :: (hdr ++ payload ++ Bytes.le 2 crc))

/-- What one pass of the loop does with a buffer that starts at a SYNC byte. -/
inductive ParseStep where
  | wait (buf : Bytes)
  | drop (rest : Bytes)
  | frame (cmd : UInt8) (payload rest : Bytes)

def word (lo hi : UInt8) : ℕ := lo.toNat ||| (hi.toNat <<< 8)

def parseSynced (buf : Bytes) : ParseStep :=
  match buf with
  | _ :: cmd :: l₀ :: l₁ :: body =>
    let length := word l₀ l₁
    -- the length of a desynchronised frame: give up this SYNC byte only
    if length > maxLoraPayload + 32 then .drop (cmd :: l₀ :: l₁ :: body)
    else if body.length < length + 2 then .wait buf
    else
      let hdr := [cmd, l₀, l₁]
      let payload := body.take length
      let crcRecv := word (body.getD length 0) (body.getD (length + 1) 0)
      let rest := body.drop (length + 2)
      if crcRecv ≠ crc16Ccitt (hdr ++ payload) then .drop rest else .frame cmd payload rest
  | _ => .wait buf

def cutToSync (buf : Bytes) : Bytes := buf.dropWhile (· ≠ protoSync)

theorem length_cutToSync_le (buf : Bytes) : (cutToSync buf).length ≤ buf.length :=
  (List.dropWhile_suffix _).length_le

theorem parseSynced_oversized {b cmd l₀ l₁ : UInt8} {body : Bytes}
    (h : maxLoraPayload + 32 < word l₀ l₁) :
    parseSynced (b :: cmd :: l₀ :: l₁ :: body) = .drop (cmd :: l₀ :: l₁ :: body) := by
  simp only [parseSynced, gt_iff_lt, h, if_true]

theorem parseSynced_complete {b cmd l₀ l₁ c₀ c₁ : UInt8} {payload rest : Bytes}
    (hl : word l₀ l₁ = payload.length) (hle : payload.length ≤ maxLoraPayload + 32) :
    parseSynced (b :: cmd :: l₀ :: l₁ :: (payload ++ c₀ :: c₁ :: rest)) =
      if word c₀ c₁ ≠ crc16Ccitt (cmd :: l₀ :: l₁ :: payload) then .drop rest
      else .frame cmd payload rest := by
  have hdrop : (payload ++ c₀ :: c₁ :: rest).drop (payload.length + 2) = rest := by
    rw [← List.drop_drop, List.drop_left]
    rfl
  have h₀ : (payload ++ c₀ :: c₁ :: rest).getD payload.length 0 = c₀ := by simp
  have h₁ : (payload ++ c₀ :: c₁ :: rest).getD (payload.length + 1) 0 = c₁ := by simp
  simp only [parseSynced, hl, gt_iff_lt, not_lt.mpr hle, if_false, List.take_left, hdrop, h₀, h₁]
  rw [if_neg (by simp)]
  rfl

theorem parseSynced_cases (buf : Bytes) :
    parseSynced buf = .wait buf ∨
    (∃ b cmd l₀ l₁ body, buf = b :: cmd :: l₀ :: l₁ :: body ∧
      maxLoraPayload + 32 < word l₀ l₁) ∨
    (∃ b cmd l₀ l₁ payload c₀ c₁ rest,
      buf = b :: cmd :: l₀ :: l₁ :: (payload ++ c₀ :: c₁ :: rest) ∧
      word l₀ l₁ = payload.length ∧ payload.length ≤ maxLoraPayload + 32) := by
  rcases buf with _ | ⟨b, _ | ⟨cmd, _ | ⟨l₀, _ | ⟨l₁, body⟩⟩⟩⟩
  · exact .inl rfl
  · exact .inl rfl
  · exact .inl rfl
  · exact .inl rfl
  · by_cases hbig : maxLoraPayload + 32 < word l₀ l₁
    · exact .inr (.inl ⟨b, cmd, l₀, l₁, body, rfl, hbig⟩)
    · by_cases hshort : body.length < word l₀ l₁ + 2
      · left
        simp only [parseSynced, gt_iff_lt, hbig, hshort, if_true, if_false]
      · have hlen : (body.take (word l₀ l₁)).length = word l₀ l₁ := by
          rw [List.length_take]
          omega
        obtain ⟨c₀, c₁, rest, hrest⟩ :
            ∃ c₀ c₁ rest, body.drop (word l₀ l₁) = c₀ :: c₁ :: rest := by
          have hd : 2 ≤ (body.drop (word l₀ l₁)).length := by
            rw [List.length_drop]
            omega
          match body.drop (word l₀ l₁), hd with
          | c₀ :: c₁ :: rest, _ => exact ⟨c₀, c₁, rest, rfl⟩
        refine .inr (.inr ⟨b, cmd, l₀, l₁, body.take (word l₀ l₁), c₀, c₁, rest, ?_, hlen.symm, ?_⟩)
        · rw [← hrest, List.take_append_drop]
        · rw [hlen]
          exact not_lt.mp hbig

theorem parseSynced_drop_inv {buf rest : Bytes} (h : parseSynced buf = .drop rest) :
    ∃ b pre, buf = b :: (pre ++ rest) := by
  rcases parseSynced_cases buf with hw | ⟨b, cmd, l₀, l₁, body, rfl, hbig⟩ |
      ⟨b, cmd, l₀, l₁, payload, c₀, c₁, rest', rfl, hl, hle⟩
  · rw [hw] at h
    cases h
  · rw [parseSynced_oversized hbig] at h
    cases h
    exact ⟨b, [], rfl⟩
  · rw [parseSynced_complete hl hle] at h
    split at h
    · cases h
      exact ⟨b, cmd :: l₀ :: l₁ :: (payload ++ [c₀, c₁]), by simp⟩
    · cases h

theorem parseSynced_drop_length {buf rest : Bytes} (h : parseSynced buf = .drop rest) :
    rest.length < buf.length := by
  obtain ⟨b, pre, rfl⟩ := parseSynced_drop_inv h
  simp only [List.length_cons, List.length_append]
  omega

theorem parseSynced_frame_inv {buf payload rest : Bytes} {cmd : UInt8}
    (h : parseSynced buf = .frame cmd payload rest) :
    ∃ b l₀ l₁ c₀ c₁, buf = b :: cmd :: l₀ :: l₁ :: (payload ++ c₀ :: c₁ :: rest) ∧
      word l₀ l₁ = payload.length ∧ payload.length ≤ maxLoraPayload + 32 ∧
      word c₀ c₁ = crc16Ccitt (cmd :: l₀ :: l₁ :: payload) := by
  rcases parseSynced_cases buf with hw | ⟨b, cmd', l₀, l₁, body, rfl, hbig⟩ |
      ⟨b, cmd', l₀, l₁, payload', c₀, c₁, rest', rfl, hl, hle⟩
  · rw [hw] at h
    cases h
  · rw [parseSynced_oversized hbig] at h
    cases h
  · rw [parseSynced_complete hl hle] at h
    split at h
    · cases h
    · rename_i hcrc
      cases h
      exact ⟨b, l₀, l₁, c₀, c₁, rfl, hl, hle, not_not.mp hcrc⟩

theorem parseSynced_frame_length {buf payload rest : Bytes} {cmd : UInt8}
    (h : parseSynced buf = .frame cmd payload rest) : rest.length + 6 ≤ buf.length := by
  obtain ⟨b, l₀, l₁, c₀, c₁, rfl, -⟩ := parseSynced_frame_inv h
  simp only [List.length_cons, List.length_append]
  omega

theorem parseSynced_append {buf : Bytes} (m : Bytes) :
    (∀ rest, parseSynced buf = .drop rest → parseSynced (buf ++ m) = .drop (rest ++ m)) ∧
    (∀ cmd payload rest, parseSynced buf = .frame cmd payload rest →
      parseSynced (buf ++ m) = .frame cmd payload (rest ++ m)) := by
  rcases parseSynced_cases buf with hw | ⟨b, cmd', l₀, l₁, body, rfl, hbig⟩ |
      ⟨b, cmd', l₀, l₁, payload', c₀, c₁, rest', rfl, hl, hle⟩
  · rw [hw]
    exact ⟨fun _ h => (nomatch h), fun _ _ _ h => (nomatch h)⟩
  · rw [parseSynced_oversized hbig]
    refine ⟨fun rest h => ?_, fun _ _ _ h => nomatch h⟩
    cases h
    exact parseSynced_oversized hbig
  · have hm := @parseSynced_complete b cmd' l₀ l₁ c₀ c₁ payload' (rest' ++ m) hl hle
    simp only [List.cons_append, List.append_assoc]
    rw [parseSynced_complete hl hle, hm]
    by_cases hcrc : word c₀ c₁ ≠ crc16Ccitt (cmd' :: l₀ :: l₁ :: payload')
    · rw [if_pos hcrc, if_pos hcrc]
      exact ⟨fun _ h => ParseStep.drop.inj h ▸ rfl, fun _ _ _ h => nomatch h⟩
    · rw [if_neg hcrc, if_neg hcrc]
      refine ⟨fun _ h => (nomatch h), fun _ _ _ h => ?_⟩
      cases h
      rfl

/-- The parse loop of `_rx_worker`: the frames dispatched and the buffer kept. -/
def parseLoop (buf : Bytes) : List (UInt8 × Bytes) × Bytes :=
  if buf.length < 6 then ([], buf)
  else if cutToSync buf = [] then ([], [])
  else
    match _h : parseSynced (cutToSync buf) with
    | .wait kept => ([], kept)
    | .drop rest => parseLoop rest
    | .frame cmd payload rest =>
      let r := parseLoop rest
      ((cmd, payload) :: r.1, r.2)
termination_by buf.length
decreasing_by
  · exact (parseSynced_drop_length _h).trans_le (length_cutToSync_le buf)
  · have := parseSynced_frame_length _h
    have := length_cutToSync_le buf
    omega

namespace USBLoRaRadio

/-- One read of the serial port. -/
def rxWorker (buf chunk : Bytes) : List (UInt8 × Bytes) × Bytes := parseLoop (buf ++ chunk)

end USBLoRaRadio

namespace TCPLoRaRadio

/-- One read of the socket; an empty read means the peer closed it and the buffer is cleared. -/
def rxWorker (buf chunk : Bytes) : List (UInt8 × Bytes) × Bytes :=
  if chunk = [] then ([], []) else parseLoop (buf ++ chunk)

end TCPLoRaRadio

/-- The parse loop without its minimum-length gate. -/
def scan (buf : Bytes) : List (UInt8 × Bytes) × Bytes :=
  match _h : parseSynced (cutToSync buf) with
  | .wait kept => ([], kept)
  | .drop rest => scan rest
  | .frame cmd payload rest =>
    let r := scan rest
    ((cmd, payload) :: r.1, r.2)
termination_by buf.length
decreasing_by
  · exact (parseSynced_drop_length _h).trans_le (length_cutToSync_le buf)
  · have := parseSynced_frame_length _h
    have := length_cutToSync_le buf
    omega

theorem parseSynced_wait {buf kept : Bytes} (h : parseSynced buf = .wait kept) : kept = buf := by
  rcases parseSynced_cases buf with hw | ⟨b, cmd', l₀, l₁, body, rfl, hbig⟩ |
      ⟨b, cmd', l₀, l₁, payload', c₀, c₁, rest', rfl, hl, hle⟩
  · rw [hw] at h
    exact (ParseStep.wait.inj h).symm
  · rw [parseSynced_oversized hbig] at h
    cases h
  · rw [parseSynced_complete hl hle] at h
    split at h <;> cases h

/-- What follows a pass, where `f` handles the remaining buffer. -/
def ParseStep.continueWith (f : Bytes → List (UInt8 × Bytes) × Bytes) :
    ParseStep → List (UInt8 × Bytes) × Bytes
  | .wait kept => ([], kept)
  | .drop rest => f rest
  | .frame cmd payload rest => ((cmd, payload) :: (f rest).1, (f rest).2)

theorem scan_eq (buf : Bytes) : scan buf = (parseSynced (cutToSync buf)).continueWith scan := by
  rw [scan]
  split <;> simp_all only [ParseStep.continueWith]

theorem parseLoop_eq (buf : Bytes) :
    parseLoop buf =
      if buf.length < 6 then ([], buf)
      else if cutToSync buf = [] then ([], [])
      else (parseSynced (cutToSync buf)).continueWith parseLoop := by
  rw [parseLoop]
  split
  · rfl
  · split
    · rfl
    · split <;> simp_all only [ParseStep.continueWith]

theorem scan_of_wait {buf : Bytes} (h : parseSynced (cutToSync buf) = .wait (cutToSync buf)) :
    scan buf = ([], cutToSync buf) := by
  rw [scan_eq, h]
  rfl

theorem cutToSync_cons (b : UInt8) (a : Bytes) :
    cutToSync (b :: a) = if b = protoSync then b :: a else cutToSync a := by
  by_cases hb : b = protoSync <;> simp [cutToSync, hb]

theorem cutToSync_append (a m : Bytes) : cutToSync (a ++ m) = cutToSync (cutToSync a ++ m) := by
  induction a with
  | nil => rfl
  | cons b a ih =>
    by_cases hb : b = protoSync
    · simp [cutToSync_cons, hb]
    · simpa [cutToSync_cons, hb] using ih

theorem cutToSync_append_of_ne_nil {a : Bytes} (h : cutToSync a ≠ []) (m : Bytes) :
    cutToSync (a ++ m) = cutToSync a ++ m := by
  induction a with
  | nil => exact absurd rfl h
  | cons b a ih =>
    by_cases hb : b = protoSync
    · simp [cutToSync_cons, hb]
    · have h' : cutToSync a ≠ [] := by simpa [cutToSync_cons, hb] using h
      simpa [cutToSync_cons, hb] using ih h'

theorem scan_cutToSync_append (a m : Bytes) : scan (cutToSync a ++ m) = scan (a ++ m) := by
  rw [scan_eq, scan_eq (a ++ m), ← cutToSync_append]

theorem scan_resumable : Stream.Resumable scan := by
  refine ⟨fun a => ?_⟩
  induction hn : a.length using Nat.strong_induction_on generalizing a with
  | _ n ih =>
    intro m
    cases hp : parseSynced (cutToSync a) with
    | wait kept =>
      obtain rfl := parseSynced_wait hp
      rw [scan_of_wait hp, scan_cutToSync_append, List.nil_append]
    | drop rest =>
      have hlen := (parseSynced_drop_length hp).trans_le (length_cutToSync_le a)
      have hne : cutToSync a ≠ [] := fun h => by simp [h, parseSynced] at hp
      have hm := (parseSynced_append m).1 _ hp
      rw [← cutToSync_append_of_ne_nil hne] at hm
      rw [scan_eq a, scan_eq (a ++ m), hp, hm]
      exact ih rest.length (hn ▸ hlen) rest rfl m
    | frame cmd payload rest =>
      have hlen := parseSynced_frame_length hp
      have hle := length_cutToSync_le a
      have hne : cutToSync a ≠ [] := fun h => by simp [h, parseSynced] at hp
      have hm := (parseSynced_append m).2 _ _ _ hp
      rw [← cutToSync_append_of_ne_nil hne] at hm
      rw [scan_eq a, scan_eq (a ++ m), hp, hm]
      simp only [ParseStep.continueWith, ih rest.length (by omega) rest rfl m, List.cons_append]

theorem scan_of_short {buf : Bytes} (h : buf.length < 6) : (scan buf).1 = [] := by
  induction hn : buf.length using Nat.strong_induction_on generalizing buf with
  | _ n ih =>
    have hle := length_cutToSync_le buf
    rw [scan_eq]
    cases hp : parseSynced (cutToSync buf) with
    | wait kept => rfl
    | drop rest =>
      have hlen := parseSynced_drop_length hp
      exact ih rest.length (by omega) (by omega) rfl
    | frame cmd payload rest =>
      have hlen := parseSynced_frame_length hp
      omega

theorem parseLoop_scan (buf : Bytes) :
    (scan buf).1 = (parseLoop buf).1 ∧ (scan buf).2 = (scan (parseLoop buf).2).2 ∧
      (scan (parseLoop buf).2).1 = [] := by
  induction hn : buf.length using Nat.strong_induction_on generalizing buf with
  | _ n ih =>
    have hle := length_cutToSync_le buf
    rw [parseLoop_eq]
    split
    · rename_i hshort
      exact ⟨scan_of_short hshort, rfl, scan_of_short hshort⟩
    · split
      · rename_i hnone
        have hscan : scan buf = ([], []) := by
          rw [scan_of_wait (by rw [hnone]; rfl), hnone]
        have hnil : scan [] = ([], []) := scan_of_wait rfl
        rw [hscan, hnil]
        exact ⟨rfl, rfl, rfl⟩
      · cases hp : parseSynced (cutToSync buf) with
        | wait kept =>
          obtain rfl := parseSynced_wait hp
          have hscan := scan_of_wait hp
          have hkept : scan (cutToSync buf) = ([], cutToSync buf) := by
            simpa using scan_cutToSync_append buf [] |>.trans (by simpa using hscan)
          simp only [ParseStep.continueWith, hscan, hkept, and_self]
        | drop rest =>
          have hlen := parseSynced_drop_length hp
          rw [scan_eq buf, hp]
          exact ih rest.length (by omega) rest rfl
        | frame cmd payload rest =>
          have hlen := parseSynced_frame_length hp
          obtain ⟨h₁, h₂, h₃⟩ := ih rest.length (by omega) rest rfl
          rw [scan_eq buf, hp]
          exact ⟨congrArg (List.cons (cmd, payload)) h₁, h₂, h₃⟩

theorem parseLoop_defers : Stream.Defers scan parseLoop :=
  ⟨fun buf => (parseLoop_scan buf).1, fun buf => (parseLoop_scan buf).2.1,
    fun buf => (parseLoop_scan buf).2.2⟩

theorem word_eq_toNatLE (lo hi : UInt8) : word lo hi = Bytes.toNatLE [lo, hi] := by
  have hlo : lo.toNat < 2 ^ 8 := lo.toNat_lt
  simp only [word, Bytes.toNatLE, Nat.shiftLeft_eq]
  rw [Nat.or_comm, Nat.mul_comm, ← Nat.two_pow_add_eq_or_of_lt hlo]
  omega

theorem le_word (lo hi : UInt8) : Bytes.le 2 (word lo hi) = [lo, hi] := by
  rw [word_eq_toNatLE]
  exact Bytes.le_toNatLE [lo, hi]

theorem exists_le_two {n : ℕ} (h : n < 65536) : ∃ lo hi, Bytes.le 2 n = [lo, hi] ∧ word lo hi = n :=
  ⟨_, _, rfl, by rw [word_eq_toNatLE]; exact Bytes.toNatLE_le 2 n h⟩

theorem crc16Bit_lt (crc : ℕ) : crc16Bit crc < 65536 :=
  Nat.lt_of_le_of_lt Nat.and_le_right (by decide)

theorem crc16Ccitt_lt (data : Bytes) : crc16Ccitt data < 65536 := by
  have hbyte : ∀ crc b, crc16Byte crc b < 65536 := by
    intro crc b
    rw [crc16Byte, Function.iterate_succ_apply']
    exact crc16Bit_lt _
  rcases List.eq_nil_or_concat data with rfl | ⟨init, b, rfl⟩
  · decide
  · rw [crc16Ccitt, List.concat_eq_append, List.foldl_append]
    exact hbyte _ b

theorem cutToSync_head {a rest : Bytes} {b : UInt8} (h : cutToSync a = b :: rest) :
    b = protoSync := by
  induction a with
  | nil => cases h
  | cons x a ih =>
    rw [cutToSync_cons] at h
    split at h
    · cases h
      assumption
    · exact ih h

theorem buildFrame_eq_ok_iff {cmd : UInt8} {payload w : Bytes} :
    buildFrame cmd payload = .ok w ↔ payload.length ≤ 0xFFFF ∧
      w = protoSync :: (cmd :: Bytes.le 2 payload.length ++ payload ++
        Bytes.le 2 (crc16Ccitt (cmd :: Bytes.le 2 payload.length ++ payload))) := by
  simp only [buildFrame]
  split
  · rename_i h
    simp only [reduceCtorEq, false_iff, not_and]
    omega
  · rename_i h
    simp only [Except.ok.injEq, not_lt.mp h, true_and, eq_comm]

theorem parseSynced_buildFrame {cmd : UInt8} {payload w : Bytes} (rest : Bytes)
    (hle : payload.length ≤ maxLoraPayload + 32) (hw : buildFrame cmd payload = .ok w) :
    parseSynced (w ++ rest) = .frame cmd payload rest := by
  obtain ⟨hlen, rfl⟩ := buildFrame_eq_ok_iff.mp hw
  obtain ⟨l₀, l₁, hl, hword⟩ := exists_le_two (n := payload.length) (by omega)
  obtain ⟨c₀, c₁, hc, hcrc⟩ := exists_le_two (crc16Ccitt_lt (cmd :: l₀ :: l₁ :: payload))
  have hp := @parseSynced_complete protoSync cmd l₀ l₁ c₀ c₁ payload rest hword hle
  rw [if_neg (by rw [hcrc]; exact not_not.mpr rfl)] at hp
  simpa [hl, hc] using hp

theorem scan_buildFrame {cmd : UInt8} {payload w : Bytes} (rest : Bytes)
    (hle : payload.length ≤ maxLoraPayload + 32) (hw : buildFrame cmd payload = .ok w) :
    scan (w ++ rest) = ((cmd, payload) :: (scan rest).1, (scan rest).2) := by
  have hsync : cutToSync (w ++ rest) = w ++ rest := by
    obtain ⟨-, rfl⟩ := buildFrame_eq_ok_iff.mp hw
    rw [List.cons_append, cutToSync_cons, if_pos rfl]
  rw [scan_eq, hsync, parseSynced_buildFrame rest hle hw]
  rfl

theorem parseSynced_frame_wire {buf payload rest : Bytes} {cmd : UInt8}
    (h : parseSynced (cutToSync buf) = .frame cmd payload rest) :
    ∃ w, buildFrame cmd payload = .ok w ∧ cutToSync buf = w ++ rest := by
  obtain ⟨b, l₀, l₁, c₀, c₁, hbuf, hl, hmax, hcrc⟩ := parseSynced_frame_inv h
  obtain rfl := cutToSync_head hbuf
  have hlen16 : payload.length ≤ 0xFFFF := hmax.trans (by decide)
  refine ⟨_, buildFrame_eq_ok_iff.mpr ⟨hlen16, rfl⟩, ?_⟩
  rw [hbuf, ← hl, le_word]
  simp only [List.cons_append, List.nil_append, ← hcrc, le_word, List.append_assoc]

theorem scan_sound (buf : Bytes) :
    ∀ f ∈ (scan buf).1, ∃ w, buildFrame f.1 f.2 = .ok w ∧ w <:+: buf := by
  induction hn : buf.length using Nat.strong_induction_on generalizing buf with
  | _ n ih =>
    have hle := length_cutToSync_le buf
    have hsuffix : cutToSync buf <:+ buf := List.dropWhile_suffix _
    rw [scan_eq]
    cases hp : parseSynced (cutToSync buf) with
    | wait kept => simp [ParseStep.continueWith]
    | drop rest =>
      have hlen := parseSynced_drop_length hp
      intro f hf
      obtain ⟨b, pre, hpre⟩ := parseSynced_drop_inv hp
      obtain ⟨w, hw, hin⟩ := ih rest.length (by omega) rest rfl f hf
      have hrest : rest <:+ cutToSync buf := ⟨b :: pre, hpre.symm⟩
      exact ⟨w, hw, hin.trans (hrest.trans hsuffix).isInfix⟩
    | frame cmd payload rest =>
      obtain ⟨wire, hbuild, hwire⟩ := parseSynced_frame_wire hp
      have hlen := parseSynced_frame_length hp
      intro f hf
      rcases List.mem_cons.mp hf with rfl | hf
      · exact ⟨wire, hbuild, (List.IsPrefix.isInfix ⟨rest, hwire.symm⟩).trans hsuffix.isInfix⟩
      · obtain ⟨w, hw, hin⟩ := ih rest.length (by omega) rest rfl f hf
        have hrest : rest <:+ cutToSync buf := ⟨wire, hwire.symm⟩
        exact ⟨w, hw, hin.trans (hrest.trans hsuffix).isInfix⟩

theorem scan_frames_append {frames : List (UInt8 × Bytes)} {ws : List Bytes} {rest : Bytes}
    (hmax : ∀ f ∈ frames, f.2.length ≤ maxLoraPayload + 32)
    (hbuild : List.Forall₂ (fun f w => buildFrame f.1 f.2 = .ok w) frames ws) :
    scan (ws.flatten ++ rest) = (frames ++ (scan rest).1, (scan rest).2) := by
  induction hbuild with
  | nil => rfl
  | cons hw _ ih =>
    rw [List.flatten_cons, List.append_assoc, scan_buildFrame _ (hmax _ (by simp)) hw,
      ih fun f hf => hmax f (by simp [hf])]
    rfl

theorem scan_flatten_buildFrame {frames : List (UInt8 × Bytes)} {ws : List Bytes}
    (hmax : ∀ f ∈ frames, f.2.length ≤ maxLoraPayload + 32)
    (hbuild : List.Forall₂ (fun f w => buildFrame f.1 f.2 = .ok w) frames ws) :
    scan ws.flatten = (frames, []) := by
  have hnil : scan [] = ([], []) := scan_of_wait rfl
  have h := @scan_frames_append frames ws [] hmax hbuild
  simpa [hnil] using h

/-- The frames a worker dispatches depend on the stream only, are frames of the stream, and are
exactly the frames a stream was built from. -/
structure ReceivesFrames (worker : Bytes → Bytes → List (UInt8 × Bytes) × Bytes) : Prop where
  chunk_independent : ∀ chunks chunks' : List Bytes, (∀ c ∈ chunks, c ≠ []) →
    (∀ c ∈ chunks', c ≠ []) → chunks.flatten = chunks'.flatten →
    (Stream.feed worker [] chunks).1 = (Stream.feed worker [] chunks').1
  sound : ∀ chunks : List Bytes, (∀ c ∈ chunks, c ≠ []) →
    ∀ f ∈ (Stream.feed worker [] chunks).1,
      ∃ w, buildFrame f.1 f.2 = .ok w ∧ w <:+: chunks.flatten
  complete : ∀ (frames : List (UInt8 × Bytes)) (ws chunks : List Bytes),
    (∀ f ∈ frames, f.2.length ≤ maxLoraPayload + 32) →
    List.Forall₂ (fun f w => buildFrame f.1 f.2 = .ok w) frames ws →
    (∀ c ∈ chunks, c ≠ []) → chunks.flatten = ws.flatten →
    (Stream.feed worker [] chunks).1 = frames

theorem feed_outputs_scan {worker : Bytes → Bytes → List (UInt8 × Bytes) × Bytes}
    (hw : ∀ buf chunk, chunk ≠ [] → worker buf chunk = parseLoop (buf ++ chunk))
    {chunks : List Bytes} (hne : ∀ c ∈ chunks, c ≠ []) :
    (Stream.feed worker [] chunks).1 = (scan chunks.flatten).1 := by
  rw [Stream.feed_congr (g := fun buf c => parseLoop (buf ++ c))
    (fun c hc buf => hw buf c (hne c hc))]
  exact Stream.feed_outputs scan_resumable parseLoop_defers (scan_of_short (by simp)) chunks

theorem receivesFrames_of_parseLoop {worker : Bytes → Bytes → List (UInt8 × Bytes) × Bytes}
    (hw : ∀ buf chunk, chunk ≠ [] → worker buf chunk = parseLoop (buf ++ chunk)) :
    ReceivesFrames worker := by
  have hfeed : ∀ chunks : List Bytes, (∀ c ∈ chunks, c ≠ []) →
      (Stream.feed worker [] chunks).1 = (scan chunks.flatten).1 :=
    fun _ hne => feed_outputs_scan hw hne
  refine ⟨?_, ?_, ?_⟩
  · intro chunks chunks' hne hne' heq
    rw [hfeed chunks hne, hfeed chunks' hne', heq]
  · intro chunks hne f hf
    rw [hfeed chunks hne] at hf
    exact scan_sound _ f hf
  · intro frames ws chunks hmax hbuild hne heq
    rw [hfeed chunks hne, heq, scan_flatten_buildFrame hmax hbuild]

/-- Both radios parse their modem's byte stream correctly. -/
theorem rxWorker_receivesFrames :
    ReceivesFrames USBLoRaRadio.rxWorker ∧ ReceivesFrames TCPLoRaRadio.rxWorker :=
  ⟨receivesFrames_of_parseLoop fun _ _ _ => rfl,
    receivesFrames_of_parseLoop fun _ _ hne => if_neg hne⟩

end OpenHop.Modem
